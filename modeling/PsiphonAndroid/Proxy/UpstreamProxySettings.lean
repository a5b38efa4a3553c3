import Mathlib
import PsiphonAndroid.Lib.Url

/-!
# The upstream proxy

`UpstreamProxySettings`, with what reads it: the check before a connection (`validateCustomProxySettings`), the proxy part of the
tunnel config (`buildTunnelCoreConfig`) and the settings screen (`proxySettingsRestartRequired` and
`updateProxySettingsFromPreferences` of `OptionsTabFragment`). `parseInt` is `Integer.parseInt`, with `none` for a
`NumberFormatException`; nothing here depends on which texts it reads. `system` is the system proxy, saved or current.
-/

namespace PsiphonAndroid

open Lib

/-- `trim`: the characters up to the space are taken off both ends. -/
def javaTrim (s : String) : String := String.ofList ((s.toList.dropWhile (· ≤ ' ')).rdropWhile (· ≤ ' '))

/-- The characters `Uri.encode` leaves alone: letters, digits and a few marks. -/
def isUriAllowed (c : Char) : Bool := c.isAlphanum || c ∈ ['_', '-', '!', '.', '~', Char.ofNat 39, '(', ')', '*']

/-- `Uri.encode`. -/
def uriEncode (s : String) : String := String.ofList (percentEncode isUriAllowed s.toList)

/-! ## Preferences -/

/-- The nine proxy preferences, each stored or not. -/
structure ProxyPrefs where
  useProxySettings : Option Bool
  useSystemProxySettings : Option Bool
  useCustomProxySettings : Option Bool
  useCustomProxySettingsHost : Option String
  useCustomProxySettingsPort : Option String
  useProxyAuthentication : Option Bool
  useProxyUsername : Option String
  useProxyPassword : Option String
  useProxyDomain : Option String
  deriving DecidableEq

namespace ProxyPrefs

variable (prefs : ProxyPrefs)

/-- `getUseHTTPProxy`. -/
def getUseHTTPProxy : Bool := prefs.useProxySettings.getD false

/-- `getUseSystemProxySettings`. -/
def getUseSystemProxySettings : Bool := prefs.useSystemProxySettings.getD false

/-- `getUseCustomProxySettings`. -/
def getUseCustomProxySettings : Bool := prefs.useCustomProxySettings.getD false

/-- `getCustomProxyHost`. -/
def getCustomProxyHost : String := javaTrim (prefs.useCustomProxySettingsHost.getD "")

/-- `getCustomProxyPort`. -/
def getCustomProxyPort : String := prefs.useCustomProxySettingsPort.getD ""

/-- `getUseProxyAuthentication`. -/
def getUseProxyAuthentication : Bool := prefs.useProxyAuthentication.getD false

/-- `getProxyUsername`. -/
def getProxyUsername : String := prefs.useProxyUsername.getD ""

/-- `getProxyPassword`. -/
def getProxyPassword : String := prefs.useProxyPassword.getD ""

/-- `getProxyDomain`. -/
def getProxyDomain : String := prefs.useProxyDomain.getD ""

end ProxyPrefs

/-- `isValidProxyHostName`. -/
def isValidProxyHostName (proxyHost : String) : Bool := proxyHost != "" && !proxyHost.toList.contains ' '

/-- `isValidProxyPort`. -/
def isValidProxyPort (proxyPort : Int) : Bool := 1 ≤ proxyPort && proxyPort ≤ 65535

/-- `Integer.parseInt` on the texts of ASCII digits. -/
def parseDigits (s : String) : Option Int :=
  if s ≠ "" ∧ s.toList.all Char.isDigit then some (Nat.ofDigitChars 10 s.toList 0) else none

/-! ## The proxy and its URL -/

/-- `ProxySettings`. -/
structure ProxySettings where
  proxyHost : String
  proxyPort : Int
  deriving DecidableEq

section Url

variable (parseInt : String → Option Int) (system : Option ProxySettings) (prefs : ProxyPrefs)

/-- The settings of a custom proxy. -/
def customProxySettings : ProxySettings := ⟨prefs.getCustomProxyHost, (parseInt prefs.getCustomProxyPort).getD 0⟩

/-- `getProxySettings`. -/
def getProxySettings : Option ProxySettings :=
  if !prefs.getUseHTTPProxy then none else
  let settings := if prefs.getUseCustomProxySettings then some (customProxySettings parseInt prefs) else none
  if prefs.getUseSystemProxySettings then system else settings

/-- The part of the URL for the authentication. -/
def upstreamProxyAuthentication : String :=
  if prefs.getUseProxyAuthentication then
    let domain := prefs.getProxyDomain
    (if domain ≠ "" then uriEncode domain ++ uriEncode "\\" else "") ++ uriEncode prefs.getProxyUsername ++ ":" ++
      uriEncode prefs.getProxyPassword ++ "@"
  else ""

/-- `getUpstreamProxyUrl`. -/
def getUpstreamProxyUrl : String :=
  match getProxySettings parseInt system prefs with
  | none => ""
  | some proxySettings =>
    "http://" ++ upstreamProxyAuthentication prefs ++ proxySettings.proxyHost ++ ":" ++ toString proxySettings.proxyPort

/-- The `UpstreamProxyUrl` of `buildTunnelCoreConfig`. -/
def configUpstreamProxyUrl (useUpstreamProxy : Bool) : Option String :=
  if useUpstreamProxy && prefs.getUseHTTPProxy && (getProxySettings parseInt system prefs).isSome then
    some (getUpstreamProxyUrl parseInt system prefs)
  else none

/-- `validateCustomProxySettings`. -/
def validateCustomProxySettings : Bool :=
  if !prefs.getUseHTTPProxy || !prefs.getUseCustomProxySettings then true else
  match getProxySettings parseInt system prefs with
  | none => false
  | some proxySettings => isValidProxyHostName proxySettings.proxyHost && isValidProxyPort proxySettings.proxyPort

end Url

/-! ## The settings screen -/

/-- `updateProxySettingsFromPreferences`: each of the keys that is pending is copied. -/
def updateProxySettingsFromPreferences (pending prefs : ProxyPrefs) : ProxyPrefs where
  useProxySettings := pending.useProxySettings.or prefs.useProxySettings
  useSystemProxySettings := pending.useSystemProxySettings.or prefs.useSystemProxySettings
  useCustomProxySettings := pending.useCustomProxySettings.or prefs.useCustomProxySettings
  useCustomProxySettingsHost := pending.useCustomProxySettingsHost.or prefs.useCustomProxySettingsHost
  useCustomProxySettingsPort := pending.useCustomProxySettingsPort.or prefs.useCustomProxySettingsPort
  useProxyAuthentication := pending.useProxyAuthentication.or prefs.useProxyAuthentication
  useProxyUsername := pending.useProxyUsername.or prefs.useProxyUsername
  useProxyPassword := pending.useProxyPassword.or prefs.useProxyPassword
  useProxyDomain := pending.useProxyDomain.or prefs.useProxyDomain

/-- `proxySettingsRestartRequired`. -/
def proxySettingsRestartRequired (pending prefs : ProxyPrefs) : Bool :=
  let useHTTPProxyPreference := pending.useProxySettings.getD false
  if useHTTPProxyPreference ≠ prefs.getUseHTTPProxy then true else
  if !useHTTPProxyPreference then false else
  let useCustomProxySettingsPreference := pending.useCustomProxySettings.getD false
  if useCustomProxySettingsPreference ≠ prefs.getUseCustomProxySettings then true else
  if !useCustomProxySettingsPreference then false else
  if pending.useCustomProxySettingsHost.getD "" ≠ prefs.getCustomProxyHost ∨
      pending.useCustomProxySettingsPort.getD "" ≠ prefs.getCustomProxyPort then true else
  let useProxyAuthenticationPreference := pending.useProxyAuthentication.getD false
  if useProxyAuthenticationPreference ≠ prefs.getUseProxyAuthentication then true else
  if !useProxyAuthenticationPreference then false else
  pending.useProxyUsername.getD "" ≠ prefs.getProxyUsername ∨ pending.useProxyPassword.getD "" ≠ prefs.getProxyPassword ∨
    pending.useProxyDomain.getD "" ≠ prefs.getProxyDomain

/-! ## What the URL is made of -/

/-- What a user authenticates as: the domain, a backslash and the name, or the name alone; and the password. -/
def proxyCredentials (prefs : ProxyPrefs) : Option (String × String) :=
  if prefs.getUseProxyAuthentication then
    some (if prefs.getProxyDomain ≠ "" then prefs.getProxyDomain ++ "\\" ++ prefs.getProxyUsername else prefs.getProxyUsername,
      prefs.getProxyPassword)
  else none

/-- The user information of a URL. -/
def credentialsText (credentials : Option (String × String)) : Option (List Char) :=
  credentials.map fun c => percentEncode isUriAllowed c.1.toList ++ ':' :: percentEncode isUriAllowed c.2.toList

theorem keepsAscii_isUriAllowed : KeepsAscii isUriAllowed := by
  intro c hc
  unfold isUriAllowed at hc
  rw [Bool.or_eq_true] at hc
  rcases hc with hc | hc
  · have hlt : c.toNat < 128 := by
      simp only [Char.isAlphanum, Char.isAlpha, Char.isUpper, Char.isLower, Char.isDigit, Bool.or_eq_true, Bool.and_eq_true,
        decide_eq_true_eq, ge_iff_le, UInt32.le_iff_toNat_le] at hc
      have hz : 'Z'.val.toNat = 90 := rfl
      have hz' : 'z'.val.toNat = 122 := rfl
      have h9 : '9'.val.toNat = 57 := rfl
      have hn : c.toNat = c.val.toNat := rfl
      omega
    refine ⟨hlt, ?_⟩
    rintro rfl
    exact absurd hc (by decide)
  · have hmarks : (['_', '-', '!', '.', '~', Char.ofNat 39, '(', ')', '*'].all fun d => decide (d.toNat < 128 ∧ d ≠ '%')) = true := by
      decide
    exact of_decide_eq_true (List.all_eq_true.mp hmarks c (of_decide_eq_true hc))

/-- The authentication in the URL is the user information and an `@`. -/
theorem toList_upstreamProxyAuthentication (prefs : ProxyPrefs) :
    (upstreamProxyAuthentication prefs).toList = (credentialsText (proxyCredentials prefs)).elim [] (· ++ ['@']) := by
  unfold upstreamProxyAuthentication proxyCredentials
  split
  · dsimp only
    split
    · simp [credentialsText, uriEncode, percentEncode]
    · simp [credentialsText, uriEncode]
  · rfl

/-- The URL, put together from its parts. -/
theorem toList_getUpstreamProxyUrl {parseInt : String → Option Int} {system : Option ProxySettings} {prefs : ProxyPrefs}
    {settings : ProxySettings} (h : getProxySettings parseInt system prefs = some settings) :
    (getUpstreamProxyUrl parseInt system prefs).toList = joinUrl "http".toList (credentialsText (proxyCredentials prefs))
      settings.proxyHost.toList (toString settings.proxyPort).toList := by
  unfold getUpstreamProxyUrl
  rw [h]
  dsimp only
  rw [String.toList_append, String.toList_append, String.toList_append, String.toList_append,
    toList_upstreamProxyAuthentication, joinUrl]
  simp

end PsiphonAndroid
