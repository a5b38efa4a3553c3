import PsiphonAndroid.Theorems.VpnApps

/-!
# The app's own view of the routing

`isTunneledAppId` decides from the preferences what `vpnServiceBuilder` decides from the preferences, the installed packages and
their signatures. The two differ in three places: the builder takes a trusted default excluded app out in every mode but
`INCLUDE_APPS`, and `isTunneledAppId` takes any default excluded app out in `EXCLUDE_APPS` only; the builder falls back to all apps
where no included app is left; and below SDK level 21 the builder takes every app, whatever is selected.
-/

namespace PsiphonAndroid

/-- One of the user's apps is installed and found by a builder that has refused the installed ones before it. -/
def PackageManager.AcceptsOne (pm : PackageManager) (list : AppList) (users : List String) : Prop :=
  ∃ before q after, users = before ++ q :: after ∧ pm.installed q = true ∧
    pm.nameNotFound ((before.filter pm.installed).map fun r => ⟨list, r, false⟩) q = false

/-- Where the app's view of a package is the builder's. -/
def ViewsAgree (pm : PackageManager) (prefs : VpnAppsPrefs) (p : String) : Prop :=
  if pm.sdkInt < 21 then
    if prefs.excludeAppsFromVpn then p ∉ getUserAppsExcludedFromVpn prefs ∧ p ∉ defaultExcludedApps
    else if prefs.includeAppsInVpn then p ∈ getUserAppsIncludedInVpn prefs ∨ p = packageName
    else True
  else if prefs.excludeAppsFromVpn then
    p ∈ getUserAppsExcludedFromVpn prefs ∨ p ∉ defaultExcludedApps ∨ pm.trusted p = true
  else if prefs.includeAppsInVpn then
    pm.AcceptsOne .allowed (getUserAppsIncludedInVpn prefs) ∨ p = packageName ∨ (p ∈ defaultExcludedApps ∧ pm.trusted p = true)
  else ¬(p ∈ defaultExcludedApps ∧ pm.trusted p = true)

namespace VpnAppsViewAux

open VpnAppsAux

variable {pm : PackageManager} {users kept : List String} {calls : List AppCall} {mode setting : VpnAppsExclusionSetting}
  {p : String}

/-- The loop over the user's apps keeps something exactly when the builder accepts one of them. -/
theorem addApplications_ne_nil_iff (pm : PackageManager) (list : AppList) (users : List String) :
    ∀ calls, (pm.addApplications list pm.installed users calls).2 ≠ [] ↔
      ∃ before q after, users = before ++ q :: after ∧ pm.installed q = true ∧
        pm.nameNotFound (calls ++ (before.filter pm.installed).map fun r => ⟨list, r, false⟩) q = false := by
  induction users with
  | nil =>
    intro calls
    simp [PackageManager.addApplications]
  | cons u rest ih =>
    intro calls
    rw [PackageManager.addApplications]
    by_cases hu : pm.installed u = true
    · rw [if_pos hu]
      dsimp only
      cases hn : pm.nameNotFound calls u with
      | false =>
        refine ⟨fun _ => ⟨[], u, rest, rfl, hu, ?_⟩, fun _ => List.cons_ne_nil _ _⟩
        simpa using hn
      | true =>
        rw [if_pos rfl, ih, PackageManager.add, hn]
        constructor
        · rintro ⟨before, q, after, rfl, hq, hfound⟩
          refine ⟨u :: before, q, after, rfl, hq, ?_⟩
          rw [List.filter_cons_of_pos hu]
          simpa using hfound
        · rintro ⟨before, q, after, heq, hq, hfound⟩
          rcases before with _ | ⟨b, before⟩
          · obtain ⟨rfl, -⟩ := List.cons.inj heq
            rw [List.filter_nil, List.map_nil, List.append_nil, hn] at hfound
            cases hfound
          · obtain ⟨rfl, rfl⟩ := List.cons.inj heq
            refine ⟨before, q, after, rfl, hq, ?_⟩
            rw [List.filter_cons_of_pos hu] at hfound
            simpa using hfound
    · rw [if_neg hu, ih]
      constructor
      · rintro ⟨before, q, after, rfl, hq, hfound⟩
        exact ⟨u :: before, q, after, rfl, hq, by rwa [List.filter_cons_of_neg hu]⟩
      · rintro ⟨before, q, after, heq, hq, hfound⟩
        rcases before with _ | ⟨b, before⟩
        · obtain ⟨rfl, -⟩ := List.cons.inj heq
          exact absurd hq hu
        · obtain ⟨rfl, rfl⟩ := List.cons.inj heq
          exact ⟨before, q, after, rfl, hq, by rwa [List.filter_cons_of_neg hu] at hfound⟩

/-- What a segment adds to its list is what was accepted in it. -/
theorem mem_applications_segment {list : AppList} {packages : List String} (h : Segment pm list packages calls) (rest : AppList) :
    p ∈ applications calls rest ↔ list = rest ∧ p ∈ acceptedIn calls := by
  rw [mem_applications]
  constructor
  · rintro ⟨c, hc, hl, ha, rfl⟩
    exact ⟨(h.list c hc).symm.trans hl, List.mem_map_of_mem (List.mem_filter.mpr ⟨hc, ha⟩)⟩
  · rintro ⟨rfl, hp⟩
    obtain ⟨c, hc, rfl⟩ := List.mem_map.mp hp
    obtain ⟨hc, ha⟩ := List.mem_filter.mp hc
    exact ⟨c, hc, h.list c hc, ha, rfl⟩

theorem applications_append (a b : List AppCall) (list : AppList) :
    applications (a ++ b) list = applications a list ++ applications b list := by
  simp [applications]

/-- A package that is always found is accepted in a segment exactly when the segment offers it. -/
theorem mem_acceptedIn_iff {list : AppList} {packages : List String} (h : Segment pm list packages calls)
    (hfound : ∀ before, pm.nameNotFound before p = false) : p ∈ acceptedIn calls ↔ p ∈ packages := by
  refine ⟨fun hp => ?_, h.mem_acceptedIn hfound⟩
  obtain ⟨c, hc, rfl⟩ := List.mem_map.mp hp
  exact h.mem (List.mem_of_mem_filter hc)

/-- What a builder does with an installed package that it always finds: in `INCLUDE_APPS` with something kept it takes the user's
apps and the app itself, else all but the apps excluded by the user or, with a trusted signature, by default. -/
theorem tunnelled_of_built (h : Built pm mode users calls setting kept) (hinstalled : pm.installed p = true)
    (hfound : ∀ before, pm.nameNotFound before p = false) :
    (mode = .includeApps ∧ kept ≠ [] ∧ (Tunnelled calls p ↔ p ∈ users ∨ p = packageName)) ∨
    ((mode = .includeApps → kept = []) ∧ (mode ≠ .excludeApps → p ∉ users) ∧
      (Tunnelled calls p ↔ ¬(p ∈ users ∨ p ∈ defaultExcludedApps ∧ pm.trusted p = true))) := by
  cases h with
  | @included user hmode hseg hkept _ =>
    refine .inl ⟨hmode, hkept, ?_⟩
    have hself : applications [⟨.allowed, packageName, true⟩] .allowed = [packageName] := rfl
    have hall := applications_append user [⟨.allowed, packageName, true⟩] .allowed
    rw [hself] at hall
    unfold Tunnelled
    rw [hall, if_neg (by simp), List.mem_append, mem_applications_segment hseg, mem_acceptedIn_iff hseg hfound, List.mem_filter]
    simp [hinstalled]
  | @excluded list user rest _ hmode hseg hlist _ _ hrest =>
    have hnot : list = .allowed → p ∉ users := by
      intro hl hp
      have := hseg.mem_acceptedIn hfound (List.mem_filter.mpr ⟨hp, hinstalled⟩)
      rw [hlist hl] at this
      exact absurd this List.not_mem_nil
    have hallowed : mode ≠ .excludeApps → list = .allowed := by
      intro hm
      cases list with
      | allowed => rfl
      | disallowed => exact absurd (hmode.mp rfl) hm
    have hnone : applications (user ++ rest) .allowed = [] := by
      rw [applications_append, List.append_eq_nil_iff, List.eq_nil_iff_forall_not_mem, List.eq_nil_iff_forall_not_mem]
      refine ⟨fun q hq => ?_, fun q hq => ?_⟩
      · obtain ⟨rfl, hq⟩ := (mem_applications_segment hseg _).mp hq
        rw [hlist rfl] at hq
        exact absurd hq List.not_mem_nil
      · obtain ⟨hl, -⟩ := (mem_applications_segment hrest _).mp hq
        cases hl
    refine .inr ⟨fun hm => hlist (hallowed (by rw [hm]; exact nofun)), fun hm => hnot (hallowed hm), ?_⟩
    unfold Tunnelled
    rw [if_pos hnone, applications_append, List.mem_append, mem_applications_segment hseg, mem_applications_segment hrest,
      mem_acceptedIn_iff hseg hfound, mem_acceptedIn_iff hrest hfound, List.mem_filter, List.mem_filter]
    unfold PackageManager.installedTrusted
    rw [hinstalled, Bool.true_and]
    refine not_congr (or_congr ?_ ?_)
    · refine ⟨fun h => h.2.1, fun hp => ⟨?_, hp, rfl⟩⟩
      cases list with
      | allowed => exact absurd hp (hnot rfl)
      | disallowed => rfl
    · exact ⟨fun h => h.2, fun h => ⟨rfl, h⟩⟩

/-- Below SDK level 21 nothing is restricted. -/
theorem tunnelled_below (s : VpnApps) (hsdk : pm.sdkInt < 21) : Tunnelled (s.vpnServiceBuilder pm).1 p := by
  have hcalls : (s.vpnServiceBuilder pm).1 = [] := by
    unfold VpnApps.vpnServiceBuilder
    rw [if_pos hsdk]
  rw [hcalls]
  unfold Tunnelled
  exact List.not_mem_nil

/-- The view in `EXCLUDE_APPS` differs for a default excluded app that is not trusted and not the user's. -/
theorem exclude_agrees {users : List String} {tunnelled : Prop}
    (h : tunnelled ↔ ¬(p ∈ users ∨ p ∈ defaultExcludedApps ∧ pm.trusted p = true)) :
    ((!(users ++ defaultExcludedApps).contains p) = true ↔ tunnelled) ↔
      p ∈ users ∨ p ∉ defaultExcludedApps ∨ pm.trusted p = true := by
  rw [h]
  simp only [Bool.not_eq_true', List.contains_eq_mem, List.mem_append, decide_eq_false_iff_not]
  by_cases hu : p ∈ users
  · simp [hu]
  · by_cases hd : p ∈ defaultExcludedApps
    · simp [hu, hd]
    · simp [hu, hd]

/-- The view in `INCLUDE_APPS` is the builder's where something was kept; where nothing was, it is for the app itself and for a
trusted default excluded app. -/
theorem include_agrees {users kept : List String} {tunnelled : Prop}
    (h : (kept ≠ [] ∧ (tunnelled ↔ p ∈ users ∨ p = packageName)) ∨
      (kept = [] ∧ p ∉ users ∧ (tunnelled ↔ ¬(p ∈ users ∨ p ∈ defaultExcludedApps ∧ pm.trusted p = true)))) :
    ((users ++ defaultIncludedApps ++ [packageName]).contains p = true ↔ tunnelled) ↔
      kept ≠ [] ∨ p = packageName ∨ (p ∈ defaultExcludedApps ∧ pm.trusted p = true) := by
  have hself : packageName ∉ defaultExcludedApps := by decide
  simp only [List.contains_eq_mem, List.mem_append, defaultIncludedApps, List.not_mem_nil, or_false, List.mem_singleton,
    decide_eq_true_eq]
  rcases h with ⟨hne, htunnelled⟩ | ⟨hnil, hp, htunnelled⟩
  · rw [htunnelled]
    exact ⟨fun _ => .inl hne, fun _ => Iff.rfl⟩
  · rw [htunnelled]
    by_cases hps : p = packageName
    · subst hps
      simp [hself, hp]
    · simp [hps, hp, hnil]

end VpnAppsViewAux

open VpnAppsAux VpnAppsViewAux

/-- For an installed package that the builder accepts, `isTunneledAppId` says that it is tunnelled exactly when the builder of the
same preferences tunnels it, if and only if `ViewsAgree`. -/
theorem isTunneledAppId_agrees_iff (pm : PackageManager) (s : VpnApps) (p : String) (hinstalled : pm.installed p = true)
    (hfound : ∀ before, pm.nameNotFound before p = false) :
    (isTunneledAppId s.prefs p = true ↔ Tunnelled (s.vpnServiceBuilder pm).1 p) ↔ ViewsAgree pm s.prefs p := by
  unfold ViewsAgree isTunneledAppId
  by_cases hsdk : pm.sdkInt < 21
  · rw [iff_true_right (tunnelled_below s hsdk), if_pos hsdk]
    cases s.prefs.excludeAppsFromVpn with
    | true => simp
    | false =>
      cases s.prefs.includeAppsInVpn with
      | true => simp [defaultIncludedApps]
      | false => simp
  · obtain ⟨kept, hbuilt, -, -, hloop⟩ := vpnServiceBuilder_built pm s (Nat.not_lt.mp hsdk)
    have hcases := tunnelled_of_built hbuilt hinstalled hfound
    have hsupports : pm.supportsVpnExclusions = true := decide_eq_true (Nat.not_lt.mp hsdk)
    rw [if_neg hsdk]
    unfold getVpnAppsExclusionMode at hcases hloop
    rw [if_pos hsupports] at hcases hloop
    cases he : s.prefs.excludeAppsFromVpn with
    | true =>
      rw [he, if_pos rfl] at hcases
      obtain ⟨hm, -, -⟩ | ⟨-, -, htunnelled⟩ := hcases
      · cases hm
      · exact exclude_agrees htunnelled
    | false =>
      rw [he, if_neg Bool.false_ne_true] at hcases hloop
      cases hi : s.prefs.includeAppsInVpn with
      | true =>
        rw [hi, if_pos rfl] at hcases hloop
        have hkept : kept ≠ [] ↔ pm.AcceptsOne .allowed (getUserAppsIncludedInVpn s.prefs) := by
          rw [← hloop]
          exact addApplications_ne_nil_iff pm .allowed (getUserAppsIncludedInVpn s.prefs) []
        simp only [Bool.false_eq_true, if_false, if_true]
        rw [← hkept]
        refine include_agrees ?_
        rcases hcases with ⟨-, hne, htunnelled⟩ | ⟨hnone, hnot, htunnelled⟩
        · exact .inl ⟨hne, htunnelled⟩
        · exact .inr ⟨hnone rfl, hnot nofun, htunnelled⟩
      | false =>
        rw [hi, if_neg Bool.false_ne_true] at hcases
        obtain ⟨hm, -, -⟩ | ⟨-, -, htunnelled⟩ := hcases
        · cases hm
        · rw [htunnelled]
          simp [getUserApps]

/-- With nothing selected the app's view of a browser is the builder's. -/
theorem isTunneledAppId_agrees_browser : ∃ (pm : PackageManager) (s : VpnApps), pm.installed "org.mozilla.firefox" = true ∧
    (isTunneledAppId s.prefs "org.mozilla.firefox" = true ↔ Tunnelled (s.vpnServiceBuilder pm).1 "org.mozilla.firefox") := by
  let installed : String → Bool := fun p => p ∈ ["com.psiphon3", "org.mozilla.firefox", "ca.psiphon.conduit"]
  let pm : PackageManager := ⟨30, installed, fun _ => true, fun _ _ => false, by decide, by decide, fun _ => rfl⟩
  let s : VpnApps := ⟨⟨false, false, "", ""⟩, .allApps, 0⟩
  exact ⟨pm, s, by decide, (isTunneledAppId_agrees_iff pm s "org.mozilla.firefox" (by decide) fun _ => rfl).mpr (by
    show ¬_
    decide)⟩

/-- With nothing selected, a trusted Conduit is tunnelled in the app's view, and the builder leaves it out. -/
theorem isTunneledAppId_conduit : ∃ (pm : PackageManager) (s : VpnApps), pm.installed "ca.psiphon.conduit" = true ∧
    (∀ before, pm.nameNotFound before "ca.psiphon.conduit" = false) ∧
    isTunneledAppId s.prefs "ca.psiphon.conduit" = true ∧ ¬Tunnelled (s.vpnServiceBuilder pm).1 "ca.psiphon.conduit" := by
  let installed : String → Bool := fun p => p ∈ ["com.psiphon3", "ca.psiphon.conduit"]
  let pm : PackageManager := ⟨30, installed, fun _ => true, fun _ _ => false, by decide, by decide, fun _ => rfl⟩
  let s : VpnApps := ⟨⟨false, false, "", ""⟩, .allApps, 0⟩
  refine ⟨pm, s, by decide, fun _ => rfl, by decide, ?_⟩
  unfold Tunnelled
  decide

end PsiphonAndroid
