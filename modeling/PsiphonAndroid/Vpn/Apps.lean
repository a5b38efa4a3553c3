import Mathlib.Data.List.DropRight
import Mathlib.Data.List.Nodup

/-!
# Which apps the VPN takes

`TunnelManager.vpnServiceBuilder` with the preferences it reads and prunes (`VpnAppsUtils`, `SharedPreferenceUtils`). A
`LinkedHashSet` is the list of its elements in the order of iteration. A builder is the list of the calls made on it, each with
whether it was accepted or answered with `NameNotFoundException`; which it is may depend on the calls before. The session name and
the meteredness of the builder are left out.
-/

namespace PsiphonAndroid

/-! ## Stored sets -/

/-- `DELIMITER`. -/
def delimiter : Char := ','

/-- `serializeSet`: every element and the delimiter, without the last delimiter. -/
def serializeSet (set : List String) : String :=
  String.ofList (set.flatMap fun element => element.toList ++ [delimiter]).dropLast

/-- `String.split` of Java at the delimiter: the pieces, less the empty ones at the end. -/
def splitString (s : String) : List String :=
  ((s.toList.splitOn delimiter).map String.ofList).rdropWhile (· == "")

/-- `deserializeSet`. -/
def deserializeSet (serializedSet : String) : List String :=
  if serializedSet = "" then [] else (splitString serializedSet).eraseDups

/-! ## Preferences -/

/-- The application id. -/
def packageName : String := "com.psiphon3"

/-- `defaultExcludedApps`. -/
def defaultExcludedApps : List String := ["ca.psiphon.conduit", "network.ryve.app"]

/-- `defaultIncludedApps`. -/
def defaultIncludedApps : List String := []

/-- `VpnAppsExclusionSetting`. -/
inductive VpnAppsExclusionSetting where
  | allApps
  | includeApps
  | excludeApps
  deriving DecidableEq

/-- The preferences that select apps, with their defaults where nothing is stored. -/
structure VpnAppsPrefs where
  excludeAppsFromVpn : Bool
  includeAppsInVpn : Bool
  includeAppsInVpnString : String
  excludeAppsFromVpnString : String
  deriving DecidableEq

/-- `getUserAppsIncludedInVpn`. -/
def getUserAppsIncludedInVpn (prefs : VpnAppsPrefs) : List String :=
  (deserializeSet prefs.includeAppsInVpnString).filter (· ∉ defaultExcludedApps)

/-- `getUserAppsExcludedFromVpn`. -/
def getUserAppsExcludedFromVpn (prefs : VpnAppsPrefs) : List String :=
  ((deserializeSet prefs.excludeAppsFromVpnString).filter (· ∉ defaultIncludedApps)).filter (· ≠ packageName)

/-- The getter of a mode. -/
def getUserApps (mode : VpnAppsExclusionSetting) (prefs : VpnAppsPrefs) : List String :=
  match mode with
  | .allApps => []
  | .includeApps => getUserAppsIncludedInVpn prefs
  | .excludeApps => getUserAppsExcludedFromVpn prefs

/-- `setUserAppsToIncludeInVpn`. -/
def setUserAppsToIncludeInVpn (prefs : VpnAppsPrefs) (includeApps : List String) : VpnAppsPrefs :=
  { prefs with includeAppsInVpnString := serializeSet includeApps }

/-- `setUserAppsToExcludeFromVpn`. -/
def setUserAppsToExcludeFromVpn (prefs : VpnAppsPrefs) (excludeApps : List String) : VpnAppsPrefs :=
  { prefs with excludeAppsFromVpnString := serializeSet excludeApps }

/-- `isTunneledAppId`; a union of sets is the one list after the other. -/
def isTunneledAppId (prefs : VpnAppsPrefs) (appId : String) : Bool :=
  if prefs.excludeAppsFromVpn then
    let excludedApps := getUserAppsExcludedFromVpn prefs ++ defaultExcludedApps
    !excludedApps.contains appId
  else if prefs.includeAppsInVpn then
    let includedApps := getUserAppsIncludedInVpn prefs ++ defaultIncludedApps ++ [packageName]
    includedApps.contains appId
  else true

/-! ## The builder -/

/-- The two lists of a builder. -/
inductive AppList where
  | allowed
  | disallowed
  deriving DecidableEq

/-- A call of `addAllowedApplication` or `addDisallowedApplication`, and whether the builder accepted it. -/
structure AppCall where
  list : AppList
  packageId : String
  accepted : Bool
  deriving DecidableEq

/-- The packages a builder accepted for a list. -/
def applications (calls : List AppCall) (list : AppList) : List String :=
  (calls.filter fun c => c.list = list ∧ c.accepted).map AppCall.packageId

/-- A package is tunnelled: one of the allowed ones, or none of the disallowed ones where none is allowed. -/
def Tunnelled (calls : List AppCall) (packageId : String) : Prop :=
  if applications calls .allowed = [] then packageId ∉ applications calls .disallowed else packageId ∈ applications calls .allowed

/-- The device: its SDK level, the installed packages, those `verifyTrustedPackage` trusts, and where the builder throws
`NameNotFoundException`. No package has an empty name, and the app itself is there. -/
structure PackageManager where
  sdkInt : Nat
  installed : String → Bool
  trusted : String → Bool
  nameNotFound : List AppCall → String → Bool
  installed_empty : installed "" = false
  installed_self : installed packageName = true
  found_self : ∀ calls, nameNotFound calls packageName = false

namespace PackageManager

variable (pm : PackageManager)

/-- `supportsVpnExclusions`. -/
def supportsVpnExclusions : Bool := 21 ≤ pm.sdkInt

/-- The condition of the default lists: installed, and with a trusted signature. -/
def installedTrusted (packageId : String) : Bool := pm.installed packageId && pm.trusted packageId

/-- The builder is called for one package. -/
def add (list : AppList) (packageId : String) (calls : List AppCall) : List AppCall :=
  calls ++ [⟨list, packageId, !pm.nameNotFound calls packageId⟩]

/-- A loop of `vpnServiceBuilder` over a set: the eligible packages are offered to the builder, and what it did not accept is taken
out of the set. -/
def addApplications (list : AppList) (eligible : String → Bool) : List String → List AppCall → List AppCall × List String
  | [], calls => (calls, [])
  | packageId :: rest, calls =>
    if eligible packageId then
      let r := addApplications list eligible rest (pm.add list packageId calls)
      (r.1, if pm.nameNotFound calls packageId then r.2 else packageId :: r.2)
    else addApplications list eligible rest calls

end PackageManager

/-- `getVpnAppsExclusionMode`. -/
def getVpnAppsExclusionMode (pm : PackageManager) (prefs : VpnAppsPrefs) : VpnAppsExclusionSetting :=
  if pm.supportsVpnExclusions then
    if prefs.excludeAppsFromVpn then .excludeApps else if prefs.includeAppsInVpn then .includeApps else .allApps
  else .allApps

/-- What `vpnServiceBuilder` reads and writes of the service: the preferences, `vpnAppsExclusionSetting` and
`vpnAppsExclusionCount`. -/
structure VpnApps where
  prefs : VpnAppsPrefs
  setting : VpnAppsExclusionSetting
  count : Nat
  deriving DecidableEq

namespace VpnApps

variable (pm : PackageManager) (s : VpnApps)

/-- The case `INCLUDE_APPS`. -/
def includeApps : List AppCall × VpnApps :=
  let includedApps := getUserAppsIncludedInVpn s.prefs
  let r := pm.addApplications .allowed pm.installed includedApps []
  let prefs := if includedApps.length ≠ r.2.length then setUserAppsToIncludeInVpn s.prefs r.2 else s.prefs
  if 0 < r.2.length then
    (pm.add .allowed packageName (pm.addApplications .allowed pm.installedTrusted defaultIncludedApps r.1).1,
      ⟨prefs, .includeApps, r.2.length⟩)
  else (r.1, ⟨prefs, .allApps, r.2.length⟩)

/-- The case `EXCLUDE_APPS`. -/
def excludeApps : List AppCall × VpnApps :=
  let excludedApps := getUserAppsExcludedFromVpn s.prefs
  let r := pm.addApplications .disallowed pm.installed excludedApps []
  let prefs := if excludedApps.length ≠ r.2.length then setUserAppsToExcludeFromVpn s.prefs r.2 else s.prefs
  if 0 < r.2.length then
    ((pm.addApplications .disallowed pm.installedTrusted defaultExcludedApps r.1).1, ⟨prefs, .excludeApps, r.2.length⟩)
  else (r.1, ⟨prefs, .allApps, r.2.length⟩)

/-- The switch of `vpnServiceBuilder`. -/
def selectApps : List AppCall × VpnApps :=
  match getVpnAppsExclusionMode pm s.prefs with
  | .allApps => ([], ⟨s.prefs, .allApps, 0⟩)
  | .includeApps => s.includeApps pm
  | .excludeApps => s.excludeApps pm

/-- `vpnServiceBuilder`: the calls on the builder, and the service afterwards. -/
def vpnServiceBuilder : List AppCall × VpnApps :=
  if pm.sdkInt < 21 then ([], s) else
  let r := s.selectApps pm
  if r.2.setting = .allApps then
    if pm.supportsVpnExclusions then
      ((pm.addApplications .disallowed pm.installedTrusted defaultExcludedApps r.1).1, r.2)
    else r
  else r

end VpnApps

end PsiphonAndroid
