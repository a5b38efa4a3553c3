import PsiphonAndroid.Proxy.UpstreamProxySettings

/-!
# The upstream proxy URL means what was entered

User name, domain and password are percent-encoded, the host is not, and it is checked for being there and having no space only.
So the URL of an accepted custom proxy is read back as it was entered exactly when the host is a host in the sense of RFC 3986.
-/

namespace PsiphonAndroid

open Lib

/-- The user information of a URL stands for these credentials: name and password, each percent-decoded. -/
def StandsFor (userinfo : Option (List Char)) : Option (String × String) → Prop
  | none => userinfo = none
  | some (user, password) => ∃ name secret, userinfo = some (name ++ ':' :: secret) ∧ ':' ∉ name ∧
      percentDecode name = some user.toList ∧ percentDecode secret = some password.toList

/-- Parsed as a URL, `getUpstreamProxyUrl` gives back the trimmed host, the port and the credentials, and nothing else. -/
def MeansEntered (parseInt : String → Option Int) (system : Option ProxySettings) (prefs : ProxyPrefs) : Prop :=
  ∃ u port, parseUrl (getUpstreamProxyUrl parseInt system prefs).toList = some u ∧
    u.scheme = "http".toList ∧ u.path = [] ∧ u.query = none ∧ u.fragment = none ∧
    u.authority.host = prefs.getCustomProxyHost.toList ∧
    u.authority.port = some port ∧ (Nat.ofDigitChars 10 port 0 : Int) = (parseInt prefs.getCustomProxyPort).getD 0 ∧
    StandsFor u.authority.userinfo (proxyCredentials prefs)

namespace ProxyUrlAux

/-- Encoded credentials stand for themselves. -/
theorem standsFor_credentialsText (credentials : Option (String × String)) :
    StandsFor (credentialsText credentials) credentials := by
  cases credentials with
  | none => rfl
  | some c =>
    refine ⟨_, _, rfl, ?_, percentDecode_percentEncode keepsAscii_isUriAllowed _,
      percentDecode_percentEncode keepsAscii_isUriAllowed _⟩
    exact not_mem_of_isText (isText_percentEncode keepsAscii_isUriAllowed (fun _ h => h) _) (by decide) (by decide) (by decide)

/-- What `Uri.encode` leaves alone may stand in user information. -/
theorem isUserinfoChar_of_allowed {c : Char} (h : isUriAllowed c = true) : isUserinfoChar c = true := by
  unfold isUriAllowed at h
  rw [Bool.or_eq_true] at h
  rcases h with h | h
  · simp [isUserinfoChar, isUnreserved, h]
  · have hmarks : ['_', '-', '!', '.', '~', Char.ofNat 39, '(', ')', '*'].all isUserinfoChar = true := by decide
    exact List.all_eq_true.mp hmarks c (of_decide_eq_true h)

theorem isText_append {ok : Char → Bool} {s t : List Char} (hs : isText ok s = true) (ht : isText ok t = true) :
    isText ok (s ++ t) = true := by
  induction s using isText.induct with
  | case1 => exact ht
  | case2 hi lo rest ih =>
    rw [isText, Bool.and_eq_true] at hs
    simp only [List.cons_append]
    rw [isText, hs.1, ih hs.2]
    rfl
  | case3 c rest hpat ih =>
    rw [isText.eq_3 ok c rest hpat, Bool.and_eq_true, Bool.and_eq_true, bne_iff_ne] at hs
    rw [List.cons_append, isText.eq_3 ok c _ (fun _ _ _ hc => absurd hc hs.1.1), ih hs.2, hs.1.2]
    simp [hs.1.1]

theorem isText_credentialsText (credentials : Option (String × String)) :
    (credentialsText credentials).all (isText isUserinfoChar) = true := by
  have htext : ∀ s : String, isText isUserinfoChar (percentEncode isUriAllowed s.toList) = true := fun s =>
    isText_percentEncode keepsAscii_isUriAllowed (fun _ h => isUserinfoChar_of_allowed h) _
  cases credentials with
  | none => rfl
  | some c =>
    have hcolon : isText isUserinfoChar (':' :: percentEncode isUriAllowed c.2.toList) = true :=
      isText_append (s := [':']) (by decide) (htext c.2)
    exact isText_append (htext c.1) hcolon

/-- The digits of a port in range. -/
theorem port_digits {port : Int} (h : isValidProxyPort port = true) :
    (toString port).toList.all Char.isDigit = true ∧ (Nat.ofDigitChars 10 (toString port).toList 0 : Int) = port := by
  simp only [isValidProxyPort, Bool.and_eq_true, decide_eq_true_eq] at h
  have hrepr : (toString port).toList = Nat.toDigits 10 port.toNat := by
    rw [Int.toString_eq_repr, Int.repr_eq_if, if_pos (by omega), Nat.toList_repr]
  rw [hrepr, List.all_eq_true, Nat.ofDigitChars_ten_toDigits]
  exact ⟨fun c hc => Nat.isDigit_of_mem_toDigits (by decide) (by decide) hc, by omega⟩

end ProxyUrlAux

open ProxyUrlAux

/-- For every custom proxy that `validateCustomProxySettings` accepts, with any credentials: the URL means what was entered exactly
when the trimmed host is a host of RFC 3986. -/
theorem proxy_url_means_entered_iff (parseInt : String → Option Int) (system : Option ProxySettings) (prefs : ProxyPrefs)
    (hproxy : prefs.getUseHTTPProxy = true) (hcustom : prefs.getUseCustomProxySettings = true)
    (hsystem : prefs.getUseSystemProxySettings = false) (hvalid : validateCustomProxySettings parseInt system prefs = true) :
    MeansEntered parseInt system prefs ↔ isHost prefs.getCustomProxyHost.toList = true := by
  have hsettings : getProxySettings parseInt system prefs = some (customProxySettings parseInt prefs) := by
    simp [getProxySettings, hproxy, hcustom, hsystem]
  constructor
  · rintro ⟨u, -, hparse, -, -, -, -, hhost, -⟩
    rw [← hhost]
    exact isHost_of_parseUrl hparse
  · intro hhost
    have hport : isValidProxyPort (customProxySettings parseInt prefs).proxyPort = true := by
      unfold validateCustomProxySettings at hvalid
      simp only [hproxy, hcustom, hsettings, Bool.not_true, Bool.or_self, Bool.false_eq_true, if_false, Bool.and_eq_true] at hvalid
      exact hvalid.2
    obtain ⟨hdigits, hvalue⟩ := port_digits hport
    have hparse : parseUrl (getUpstreamProxyUrl parseInt system prefs).toList = some ⟨"http".toList,
        ⟨credentialsText (proxyCredentials prefs), prefs.getCustomProxyHost.toList,
          some (toString (customProxySettings parseInt prefs).proxyPort).toList⟩, [], none, none⟩ := by
      rw [toList_getUpstreamProxyUrl hsettings]
      exact parseUrl_join (by decide) (isText_credentialsText _) hhost hdigits
    exact ⟨_, _, hparse, rfl, rfl, rfl, rfl, rfl, rfl, hvalue, standsFor_credentialsText _⟩

/-- Preferences with a custom proxy and a user of a domain. -/
def customProxyPrefs (host : String) : ProxyPrefs :=
  ⟨some true, some false, some true, some host, some "8080", some true, some "al@ice", some "a:b/c", some "CORP"⟩

/-- A name and a password with delimiters in them are read back. -/
theorem proxy_url_means_entered_name : MeansEntered parseDigits none (customProxyPrefs " proxy.example ") :=
  (proxy_url_means_entered_iff parseDigits none (customProxyPrefs " proxy.example ") rfl rfl rfl (by decide +kernel)).mpr
    (by decide +kernel)

/-- A host with a slash is accepted, and the URL names the host before the slash, without a port. -/
theorem proxy_url_host_with_slash :
    validateCustomProxySettings parseDigits none (customProxyPrefs "proxy.example/x") = true ∧
    (parseUrl (getUpstreamProxyUrl parseDigits none (customProxyPrefs "proxy.example/x")).toList).map
      (fun u => (u.authority.host, u.authority.port, u.path)) = some ("proxy.example".toList, none, "/x:8080".toList) ∧
    ¬MeansEntered parseDigits none (customProxyPrefs "proxy.example/x") := by
  refine ⟨by decide +kernel, by decide +kernel, ?_⟩
  rintro ⟨u, -, hparse, -, -, -, -, hhost, -⟩
  have := isHost_of_parseUrl hparse
  rw [hhost] at this
  exact absurd this (by decide +kernel)

end PsiphonAndroid
