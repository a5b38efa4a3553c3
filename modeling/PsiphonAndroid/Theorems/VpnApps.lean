import PsiphonAndroid.Vpn.Apps

/-!
# The app selection is safe

Every loop of `vpnServiceBuilder` appends one segment to the calls on the builder. The user's segment comes first and offers every
stored app that is installed, so what it keeps of the stored set is what the device found when it was offered, and the pruned set is
read back as it was stored.
-/

namespace PsiphonAndroid

/-- The list the user's apps are offered for. -/
def userList (mode : VpnAppsExclusionSetting) : AppList := if mode = .excludeApps then .disallowed else .allowed

/-- The builder answered as the device does: it accepted a package unless it is not found after the calls before. -/
def Answered (pm : PackageManager) (calls : List AppCall) : Prop :=
  ∀ before c after, calls = before ++ c :: after → c.accepted = !pm.nameNotFound before c.packageId

namespace VpnAppsAux

/-! ## Stored sets -/

/-- A nonempty set is stored as its elements joined by the delimiter. -/
theorem flatMap_dropLast (set : List String) (h : set ≠ []) :
    (set.flatMap fun element => element.toList ++ [delimiter]).dropLast = [delimiter].intercalate (set.map String.toList) := by
  induction set with
  | nil => exact absurd rfl h
  | cons e rest ih =>
    cases rest with
    | nil => simp
    | cons e' rest' =>
      have hne : (e' :: rest').flatMap (fun element => element.toList ++ [delimiter]) ≠ [] := by simp
      rw [List.flatMap_cons, List.dropLast_append_of_ne_nil hne, ih (List.cons_ne_nil _ _), List.map_cons, List.map_cons,
        List.map_cons, List.intercalate_cons_cons, List.append_assoc]

/-- Without repetitions nothing is erased. -/
theorem eraseDups_of_nodup {l : List String} (h : l.Nodup) : l.eraseDups = l := by
  induction l with
  | nil => rfl
  | cons e rest ih =>
    obtain ⟨he, hrest⟩ := List.nodup_cons.mp h
    have hfilter : rest.filter (fun b => !b == e) = rest := by
      refine List.filter_eq_self.mpr fun b hb => ?_
      have : b ≠ e := fun hbe => he (hbe ▸ hb)
      simpa using this
    rw [List.eraseDups_cons, hfilter, ih hrest]

/-- Nothing is left twice. -/
theorem nodup_eraseDups (l : List String) : l.eraseDups.Nodup := by
  induction hn : l.length using Nat.strong_induction_on generalizing l with
  | _ n ih =>
    cases l with
    | nil => exact List.nodup_nil
    | cons e rest =>
      rw [List.eraseDups_cons, List.nodup_cons, List.mem_eraseDups, List.mem_filter]
      refine ⟨fun h => by simp at h, ih _ ?_ _ rfl⟩
      have := List.length_filter_le (fun b => !b == e) rest
      rw [← hn, List.length_cons]
      omega

/-- No piece of a split holds the character it was split at. -/
theorem not_mem_of_mem_splitOn (s : List Char) : ∀ piece ∈ s.splitOn delimiter, delimiter ∉ piece := by
  induction s with
  | nil => simp
  | cons c s ih =>
    intro piece hp
    rw [List.splitOn_cons_eq_if_modifyHead] at hp
    split at hp
    · rcases List.mem_cons.mp hp with rfl | hp
      · exact List.not_mem_nil
      · exact ih piece hp
    · rename_i hc
      obtain ⟨first, others, hsplit⟩ := List.exists_cons_of_ne_nil (List.splitOn_ne_nil delimiter s)
      rw [hsplit] at hp ih
      rcases List.mem_cons.mp hp with rfl | hp
      · intro hd
        rcases List.mem_cons.mp hd with hd | hd
        · exact hc (by simp [hd])
        · exact ih first List.mem_cons_self hd
      · exact ih piece (List.mem_cons_of_mem _ hp)

/-- The elements of a stored set are distinct and hold no delimiter. -/
theorem deserializeSet_spec (s : String) :
    (deserializeSet s).Nodup ∧ ∀ element ∈ deserializeSet s, delimiter ∉ element.toList := by
  unfold deserializeSet
  split
  · exact ⟨List.nodup_nil, fun _ h => absurd h List.not_mem_nil⟩
  · refine ⟨nodup_eraseDups _, fun element he => ?_⟩
    have hpiece := (List.rdropWhile_prefix _ _).subset (List.mem_eraseDups.mp he)
    obtain ⟨piece, hp, rfl⟩ := List.mem_map.mp hpiece
    rw [String.toList_ofList]
    exact not_mem_of_mem_splitOn _ _ hp

/-- A set of package names is read back as it was stored. -/
theorem deserializeSet_serializeSet {set : List String} (hnodup : set.Nodup)
    (hd : ∀ element ∈ set, delimiter ∉ element.toList) (hempty : ∀ element ∈ set, element ≠ "") :
    deserializeSet (serializeSet set) = set := by
  cases set with
  | nil => rfl
  | cons e rest =>
    have hchars := flatMap_dropLast (e :: rest) (List.cons_ne_nil _ _)
    have hsplit : ([delimiter].intercalate ((e :: rest).map String.toList)).splitOn delimiter = (e :: rest).map String.toList := by
      refine List.splitOn_intercalate _ ?_ (List.cons_ne_nil _ _)
      intro l hl
      obtain ⟨element, he, rfl⟩ := List.mem_map.mp hl
      exact hd element he
    have hne : serializeSet (e :: rest) ≠ "" := by
      intro h
      unfold serializeSet at h
      rw [String.ofList_eq_empty_iff, hchars] at h
      rw [h, List.splitOn_nil] at hsplit
      have hhead := (List.cons.inj hsplit).1
      exact hempty e List.mem_cons_self (String.toList_injective hhead.symm)
    have hpieces : splitString (serializeSet (e :: rest)) = e :: rest := by
      unfold splitString serializeSet
      rw [String.toList_ofList, hchars, hsplit, List.map_map]
      have hid : (e :: rest).map (String.ofList ∘ String.toList) = e :: rest := by
        refine List.map_id'' (fun x => ?_) _
        exact String.ofList_toList
      rw [hid, List.rdropWhile_eq_self_iff]
      intro hl hlast
      exact hempty _ (List.getLast_mem hl) (beq_iff_eq.mp hlast)
    unfold deserializeSet
    rw [if_neg hne, hpieces, eraseDups_of_nodup hnodup]

/-- What a getter reads after the set was pruned, and stored where that changed it. -/
theorem pruned_read_back (q f : String → Bool) (s : String) {kept : List String} (hkept : kept = ((deserializeSet s).filter q).filter f)
    (hempty : ∀ element ∈ kept, element ≠ "") :
    (deserializeSet (if ((deserializeSet s).filter q).length ≠ kept.length then serializeSet kept else s)).filter q = kept := by
  have hsub : kept.Sublist ((deserializeSet s).filter q) := hkept ▸ List.filter_sublist
  obtain ⟨hnodup, hd⟩ := deserializeSet_spec s
  split
  · rw [deserializeSet_serializeSet (hnodup.sublist (hsub.trans List.filter_sublist))
      (fun e he => hd e (List.mem_of_mem_filter (hsub.subset he))) hempty]
    exact List.filter_eq_self.mpr fun e he => List.of_mem_filter (hsub.subset he)
  · rename_i hlength
    exact (hsub.eq_of_length (not_ne_iff.mp hlength).symm).symm

/-! ## Segments of calls -/

/-- The calls of a loop: one for each package it offered, for one list, and accepted for a package that is always found. -/
structure Segment (pm : PackageManager) (list : AppList) (packages : List String) (calls : List AppCall) : Prop where
  packages : calls.map AppCall.packageId = packages
  list : ∀ c ∈ calls, c.list = list
  found : ∀ c ∈ calls, (∀ before, pm.nameNotFound before c.packageId = false) → c.accepted = true

/-- The packages accepted in a segment. -/
def acceptedIn (calls : List AppCall) : List String := (calls.filter AppCall.accepted).map AppCall.packageId

/-- Every call of a segment is for one of its packages. -/
theorem Segment.mem {pm : PackageManager} {list : AppList} {packages : List String} {calls : List AppCall}
    (h : Segment pm list packages calls) {c : AppCall} (hc : c ∈ calls) : c.packageId ∈ packages :=
  h.packages ▸ List.mem_map_of_mem hc

/-- A package that is always found is accepted where it is offered. -/
theorem Segment.mem_acceptedIn {pm : PackageManager} {list : AppList} {packages : List String} {calls : List AppCall}
    (h : Segment pm list packages calls) {p : String} (hfound : ∀ before, pm.nameNotFound before p = false) (hp : p ∈ packages) :
    p ∈ acceptedIn calls := by
  rw [← h.packages] at hp
  obtain ⟨c, hc, rfl⟩ := List.mem_map.mp hp
  exact List.mem_map_of_mem (List.mem_filter.mpr ⟨hc, h.found c hc hfound⟩)

/-- A loop appends a segment, and keeps what was accepted in it. -/
theorem addApplications_spec (pm : PackageManager) (list : AppList) (eligible : String → Bool) (packages : List String) :
    ∀ calls, ∃ segment, (pm.addApplications list eligible packages calls).1 = calls ++ segment ∧
      Segment pm list (packages.filter eligible) segment ∧ (pm.addApplications list eligible packages calls).2 = acceptedIn segment := by
  induction packages with
  | nil => exact fun calls => ⟨[], (List.append_nil calls).symm, ⟨rfl, nofun, nofun⟩, rfl⟩
  | cons p rest ih =>
    intro calls
    by_cases hp : eligible p = true
    · obtain ⟨segment, hcalls, hseg, hkept⟩ := ih (pm.add list p calls)
      refine ⟨⟨list, p, !pm.nameNotFound calls p⟩ :: segment, ?_, ⟨?_, ?_, ?_⟩, ?_⟩
      · rw [PackageManager.addApplications, if_pos hp]
        dsimp only
        rw [hcalls, PackageManager.add, List.append_assoc]
        rfl
      · rw [List.map_cons, hseg.packages, List.filter_cons_of_pos hp]
      · intro c hc
        rcases List.mem_cons.mp hc with rfl | hc
        · rfl
        · exact hseg.list c hc
      · intro c hc hfound
        rcases List.mem_cons.mp hc with rfl | hc
        · change (!pm.nameNotFound calls p) = true
          rw [hfound]
          rfl
        · exact hseg.found c hc hfound
      · rw [PackageManager.addApplications, if_pos hp]
        dsimp only
        rw [hkept]
        unfold acceptedIn
        cases hn : pm.nameNotFound calls p with
        | true => rw [if_pos rfl, List.filter_cons_of_neg (by simp)]
        | false => rw [if_neg Bool.noConfusion, List.filter_cons_of_pos (by simp), List.map_cons]
    · rw [PackageManager.addApplications, if_neg hp, List.filter_cons_of_neg hp]
      exact ih calls

/-- The builder accepted a package when it was first offered. -/
def acceptedFirst (calls : List AppCall) (packageId : String) : Bool :=
  (calls.find? fun c => c.packageId = packageId).any AppCall.accepted

/-- In a segment of distinct packages every package is offered once. -/
theorem acceptedFirst_mem {seg : List AppCall} (hnodup : (seg.map AppCall.packageId).Nodup) :
    ∀ c ∈ seg, acceptedFirst seg c.packageId = c.accepted := by
  induction seg with
  | nil => exact nofun
  | cons c' seg ih =>
    intro c hc
    rw [List.map_cons, List.nodup_cons] at hnodup
    unfold acceptedFirst at ih ⊢
    rcases List.mem_cons.mp hc with rfl | hc
    · rw [List.find?_cons_of_pos (by simp)]
      rfl
    · have hne : c'.packageId ≠ c.packageId := fun he => hnodup.1 (he ▸ List.mem_map_of_mem hc)
      rw [List.find?_cons_of_neg (by simpa using hne)]
      exact ih hnodup.2 c hc

/-- What the user's loop keeps is a part of the set, in the order of the set. -/
theorem acceptedIn_eq {pm : PackageManager} {list : AppList} {users : List String} {seg : List AppCall}
    (hseg : Segment pm list (users.filter pm.installed) seg) (hnodup : users.Nodup) :
    acceptedIn seg = users.filter fun p => acceptedFirst seg p && pm.installed p := by
  have hfirst := acceptedFirst_mem (hseg.packages ▸ hnodup.filter pm.installed)
  calc acceptedIn seg
      = (seg.filter fun c => acceptedFirst seg c.packageId).map AppCall.packageId := by
        unfold acceptedIn
        rw [List.filter_congr fun c hc => (hfirst c hc).symm]
    _ = (users.filter pm.installed).filter (acceptedFirst seg) := by
        rw [← hseg.packages, List.filter_map]
        rfl
    _ = users.filter fun p => acceptedFirst seg p && pm.installed p := List.filter_filter

/-! ## The answers of the builder -/

/-- No calls are answered. -/
theorem answered_nil (pm : PackageManager) : Answered pm [] := by
  intro before c after h
  exact absurd h.symm (List.append_ne_nil_of_right_ne_nil _ (List.cons_ne_nil _ _))

/-- What was answered first does not depend on what came later. -/
theorem answered_of_append {pm : PackageManager} {calls rest : List AppCall} (h : Answered pm (calls ++ rest)) : Answered pm calls := by
  intro before c after he
  refine h before c (after ++ rest) ?_
  rw [he, List.append_assoc, List.cons_append]

/-- A call is answered by the package manager. -/
theorem answered_add {pm : PackageManager} {calls : List AppCall} (h : Answered pm calls) (list : AppList) (p : String) :
    Answered pm (pm.add list p calls) := by
  intro before c after he
  rw [PackageManager.add] at he
  rcases List.eq_nil_or_concat after with rfl | ⟨after', x, rfl⟩
  · obtain ⟨rfl, hc⟩ := List.append_inj' he rfl
    obtain rfl := List.singleton_inj.mp hc
    rfl
  · rw [List.concat_eq_append, ← List.cons_append, ← List.append_assoc] at he
    exact h before c after' (List.append_inj' he rfl).1

/-- A loop leaves the answers the device's. -/
theorem answered_addApplications {pm : PackageManager} {list : AppList} {eligible : String → Bool} {packages : List String} :
    ∀ {calls}, Answered pm calls → Answered pm (pm.addApplications list eligible packages calls).1 := by
  induction packages with
  | nil => exact fun h => h
  | cons p rest ih =>
    intro calls h
    rw [PackageManager.addApplications]
    split
    · exact ih (answered_add h list p)
    · exact ih h

/-- Every call of `vpnServiceBuilder` is answered by the device. -/
theorem answered_vpnServiceBuilder (pm : PackageManager) (s : VpnApps) : Answered pm (s.vpnServiceBuilder pm).1 := by
  have hselect : Answered pm (s.selectApps pm).1 := by
    unfold VpnApps.selectApps
    split
    · exact answered_nil pm
    · unfold VpnApps.includeApps
      dsimp only
      split
      · exact answered_add (answered_addApplications (answered_addApplications (answered_nil pm))) _ _
      · exact answered_addApplications (answered_nil pm)
    · unfold VpnApps.excludeApps
      dsimp only
      split
      · exact answered_addApplications (answered_addApplications (answered_nil pm))
      · exact answered_addApplications (answered_nil pm)
  unfold VpnApps.vpnServiceBuilder
  split
  · exact answered_nil pm
  · dsimp only
    split
    · split
      · exact answered_addApplications hselect
      · exact hselect
    · exact hselect

/-! ## The shape of a builder -/

/-- The applications of a list are those of the calls accepted for it. -/
theorem mem_applications {calls : List AppCall} {list : AppList} {p : String} :
    p ∈ applications calls list ↔ ∃ c ∈ calls, c.list = list ∧ c.accepted = true ∧ c.packageId = p := by
  simp [applications, and_assoc]

/-- The calls on a builder for a list of user apps, with the setting and the user apps that were kept: the accepted user apps and
the app itself are allowed, or only user apps and default excluded ones are disallowed. -/
inductive Built (pm : PackageManager) (mode : VpnAppsExclusionSetting) (users : List String) :
    List AppCall → VpnAppsExclusionSetting → List String → Prop
  | included {user : List AppCall} (hmode : mode = .includeApps) (hseg : Segment pm .allowed (users.filter pm.installed) user)
      (hkept : acceptedIn user ≠ []) (hdefault : ∀ p ∈ users, p ∉ defaultExcludedApps) :
      Built pm mode users (user ++ [⟨.allowed, packageName, true⟩]) .includeApps (acceptedIn user)
  | excluded {list : AppList} {user rest : List AppCall} {setting : VpnAppsExclusionSetting}
      (hmode : list = .disallowed ↔ mode = .excludeApps)
      (hseg : Segment pm list (users.filter pm.installed) user) (hlist : list = .allowed → acceptedIn user = [])
      (hself : list = .disallowed → packageName ∉ users)
      (hsetting : (setting = .excludeApps ∧ acceptedIn user ≠ []) ∨ (setting = .allApps ∧ acceptedIn user = []))
      (hrest : Segment pm .disallowed (defaultExcludedApps.filter pm.installedTrusted) rest) :
      Built pm mode users (user ++ rest) setting (acceptedIn user)

variable {pm : PackageManager} {users kept : List String} {calls : List AppCall} {mode setting : VpnAppsExclusionSetting}

/-- The calls begin with the user's apps that are installed, and what is kept of them is what was accepted there. -/
theorem Built.user (h : Built pm mode users calls setting kept) :
    ∃ user rest, calls = user ++ rest ∧ Segment pm (userList mode) (users.filter pm.installed) user ∧ kept = acceptedIn user := by
  cases h with
  | included hmode hseg =>
    subst hmode
    exact ⟨_, _, rfl, hseg, rfl⟩
  | @excluded list _ _ _ hmode hseg =>
    have hlist : list = userList mode := by
      unfold userList
      split
      · rename_i hm
        exact hmode.mpr hm
      · rename_i hm
        cases list with
        | allowed => rfl
        | disallowed => exact absurd (hmode.mp rfl) hm
    exact ⟨_, _, rfl, hlist ▸ hseg, rfl⟩

/-- An exclusion setting is returned where an app was kept. -/
theorem Built.setting_iff (h : Built pm mode users calls setting kept) :
    (setting = .includeApps ∨ setting = .excludeApps) ↔ 0 < kept.length := by
  rw [List.length_pos_iff]
  cases h with
  | included _ _ hkept => exact ⟨fun _ => hkept, fun _ => Or.inl rfl⟩
  | excluded _ _ _ _ hsetting =>
    rcases hsetting with ⟨rfl, hne⟩ | ⟨rfl, he⟩
    · exact ⟨fun _ => hne, fun _ => Or.inr rfl⟩
    · refine ⟨fun hs => ?_, fun hne => absurd he hne⟩
      rcases hs with hs | hs <;> cases hs

/-- Everything the builder accepted is allowed with the app itself, or nothing is allowed. -/
theorem Built.lists (h : Built pm mode users calls setting kept) :
    (applications calls .disallowed = [] ∧ packageName ∈ applications calls .allowed ∧
      ∀ p ∈ applications calls .allowed, p = packageName ∨ p ∈ users ∧ p ∉ defaultExcludedApps) ∨
    (applications calls .allowed = [] ∧ packageName ∉ applications calls .disallowed ∧
      (∀ p ∈ applications calls .disallowed, p ∈ users ∨ p ∈ defaultExcludedApps) ∧
      (∀ c ∈ calls, c.accepted = true → c.packageId ∈ applications calls .disallowed) ∧
      ∀ p ∈ defaultExcludedApps, pm.installedTrusted p = true → ∃ c ∈ calls, c.packageId = p) := by
  cases h with
  | @included user _ hseg _ hdefault =>
    refine Or.inl ⟨?_, ?_, ?_⟩
    · rw [List.eq_nil_iff_forall_not_mem]
      intro p hp
      obtain ⟨c, hc, hlist, -⟩ := mem_applications.mp hp
      rcases List.mem_append.mp hc with hc | hc
      · rw [hseg.list c hc] at hlist
        cases hlist
      · rw [List.mem_singleton.mp hc] at hlist
        cases hlist
    · exact mem_applications.mpr ⟨_, List.mem_append_right _ (List.mem_singleton_self _), rfl, rfl, rfl⟩
    · intro p hp
      obtain ⟨c, hc, -, -, rfl⟩ := mem_applications.mp hp
      rcases List.mem_append.mp hc with hc | hc
      · have hu := List.mem_of_mem_filter (hseg.mem hc)
        exact Or.inr ⟨hu, hdefault _ hu⟩
      · rw [List.mem_singleton.mp hc]
        exact Or.inl rfl
  | @excluded list user rest _ _ hseg hlist hself _ hrest =>
    have hdisallowed : ∀ c ∈ user ++ rest, c.accepted = true → c.list = .disallowed := by
      intro c hc ha
      rcases List.mem_append.mp hc with hc | hc
      · cases list with
        | disallowed => exact hseg.list c hc
        | allowed =>
          have hmem : c.packageId ∈ acceptedIn user := List.mem_map_of_mem (List.mem_filter.mpr ⟨hc, ha⟩)
          rw [hlist rfl] at hmem
          cases hmem
      · exact hrest.list c hc
    refine Or.inr ⟨?_, ?_, ?_, ?_, ?_⟩
    · rw [List.eq_nil_iff_forall_not_mem]
      intro p hp
      obtain ⟨c, hc, hl, ha, -⟩ := mem_applications.mp hp
      rw [hdisallowed c hc ha] at hl
      cases hl
    · intro hp
      obtain ⟨c, hc, hl, -, hp⟩ := mem_applications.mp hp
      rcases List.mem_append.mp hc with hc | hc
      · exact hself ((hseg.list c hc).symm.trans hl) (hp ▸ List.mem_of_mem_filter (hseg.mem hc))
      · have : packageName ∈ defaultExcludedApps := hp ▸ List.mem_of_mem_filter (hrest.mem hc)
        exact absurd this (by decide)
    · intro p hp
      obtain ⟨c, hc, -, -, rfl⟩ := mem_applications.mp hp
      rcases List.mem_append.mp hc with hc | hc
      · exact Or.inl (List.mem_of_mem_filter (hseg.mem hc))
      · exact Or.inr (List.mem_of_mem_filter (hrest.mem hc))
    · intro c hc ha
      exact mem_applications.mpr ⟨c, hc, hdisallowed c hc ha, ha, rfl⟩
    · intro p hp htrusted
      have hmem : p ∈ rest.map AppCall.packageId := hrest.packages ▸ List.mem_filter.mpr ⟨hp, htrusted⟩
      obtain ⟨c, hc, hcp⟩ := List.mem_map.mp hmem
      exact ⟨c, List.mem_append_right _ hc, hcp⟩

/-- The user's loop: what it appends and keeps, and that what it keeps can be stored. -/
theorem userLoop (pm : PackageManager) (list : AppList) {users : List String} (hnodup : users.Nodup) :
    ∃ user, pm.addApplications list pm.installed users [] = (user, acceptedIn user) ∧
      Segment pm list (users.filter pm.installed) user ∧ (∃ f, acceptedIn user = users.filter f) ∧
      ∀ p ∈ acceptedIn user, p ≠ "" := by
  obtain ⟨user, hcalls, hseg, hkept⟩ := addApplications_spec pm list pm.installed users []
  refine ⟨user, Prod.ext hcalls hkept, hseg, ⟨_, acceptedIn_eq hseg hnodup⟩, ?_⟩
  rintro p hp rfl
  obtain ⟨c, hc, hempty⟩ := List.mem_map.mp hp
  have := List.of_mem_filter (hseg.mem (List.mem_of_mem_filter hc))
  rw [hempty, pm.installed_empty] at this
  cases this

/-- The stored list of included apps has no repetitions. -/
theorem nodup_getUserAppsIncludedInVpn (prefs : VpnAppsPrefs) : (getUserAppsIncludedInVpn prefs).Nodup :=
  (deserializeSet_spec _).1.filter _

/-- Neither has that of the excluded ones. -/
theorem nodup_getUserAppsExcludedFromVpn (prefs : VpnAppsPrefs) : (getUserAppsExcludedFromVpn prefs).Nodup :=
  ((deserializeSet_spec _).1.filter _).filter _

/-- The list of included apps is read back as it was pruned. -/
theorem getUserAppsIncludedInVpn_pruned (prefs : VpnAppsPrefs) {kept : List String} {f : String → Bool}
    (hkept : kept = (getUserAppsIncludedInVpn prefs).filter f) (hempty : ∀ p ∈ kept, p ≠ "") :
    getUserAppsIncludedInVpn (if (getUserAppsIncludedInVpn prefs).length ≠ kept.length then setUserAppsToIncludeInVpn prefs kept
      else prefs) = kept := by
  have h := pruned_read_back _ f prefs.includeAppsInVpnString hkept hempty
  unfold getUserAppsIncludedInVpn at hkept ⊢
  split at h
  · rename_i hlength
    rw [if_pos hlength]
    exact h
  · rename_i hlength
    rw [if_neg hlength]
    exact h

/-- The stored list of excluded apps leaves out this application and the default ones. -/
theorem getUserAppsExcludedFromVpn_eq (prefs : VpnAppsPrefs) : getUserAppsExcludedFromVpn prefs =
    (deserializeSet prefs.excludeAppsFromVpnString).filter fun p => p ≠ packageName ∧ p ∉ defaultIncludedApps := by
  unfold getUserAppsExcludedFromVpn
  rw [List.filter_filter]
  simp only [Bool.decide_and]

/-- The list of excluded apps is read back as it was pruned. -/
theorem getUserAppsExcludedFromVpn_pruned (prefs : VpnAppsPrefs) {kept : List String} {f : String → Bool}
    (hkept : kept = (getUserAppsExcludedFromVpn prefs).filter f) (hempty : ∀ p ∈ kept, p ≠ "") :
    getUserAppsExcludedFromVpn (if (getUserAppsExcludedFromVpn prefs).length ≠ kept.length then
      setUserAppsToExcludeFromVpn prefs kept else prefs) = kept := by
  rw [getUserAppsExcludedFromVpn_eq prefs] at hkept ⊢
  have h := pruned_read_back _ f prefs.excludeAppsFromVpnString hkept hempty
  rw [getUserAppsExcludedFromVpn_eq]
  split at h
  · rename_i hlength
    rw [if_pos hlength]
    exact h
  · rename_i hlength
    rw [if_neg hlength]
    exact h

/-- The default excluded apps are disallowed after the calls so far. -/
theorem excludeDefaults (pm : PackageManager) (calls : List AppCall) :
    ∃ rest, (pm.addApplications .disallowed pm.installedTrusted defaultExcludedApps calls).1 = calls ++ rest ∧
      Segment pm .disallowed (defaultExcludedApps.filter pm.installedTrusted) rest := by
  obtain ⟨rest, hcalls, hrest, -⟩ := addApplications_spec pm .disallowed pm.installedTrusted defaultExcludedApps calls
  exact ⟨rest, hcalls, hrest⟩

/-- A builder together with the service afterwards: what was kept is what the loop over the user's apps left, is counted, and is
what the getter of the mode reads. -/
def BuiltFor (pm : PackageManager) (mode : VpnAppsExclusionSetting) (prefs : VpnAppsPrefs) (r : List AppCall × VpnApps) : Prop :=
  ∃ kept, Built pm mode (getUserApps mode prefs) r.1 r.2.setting kept ∧ r.2.count = kept.length ∧
    getUserApps mode r.2.prefs = kept ∧
    (pm.addApplications (userList mode) pm.installed (getUserApps mode prefs) []).2 = kept

/-- A list without elements. -/
theorem not_lt_length {l : List String} (h : ¬0 < l.length) : l = [] := List.length_eq_zero_iff.mp (Nat.eq_zero_of_not_pos h)

/-- The case `INCLUDE_APPS`, with the app itself allowed where something was kept. -/
theorem includeApps_eq (pm : PackageManager) (s : VpnApps) : ∃ user prefs,
    Segment pm .allowed ((getUserAppsIncludedInVpn s.prefs).filter pm.installed) user ∧
    getUserAppsIncludedInVpn prefs = acceptedIn user ∧
    (pm.addApplications .allowed pm.installed (getUserAppsIncludedInVpn s.prefs) []).2 = acceptedIn user ∧
    s.includeApps pm = if 0 < (acceptedIn user).length then
      (user ++ [⟨.allowed, packageName, true⟩], ⟨prefs, .includeApps, (acceptedIn user).length⟩)
    else (user, ⟨prefs, .allApps, (acceptedIn user).length⟩) := by
  obtain ⟨user, hloop, hseg, ⟨f, hfilter⟩, hempty⟩ := userLoop pm .allowed (nodup_getUserAppsIncludedInVpn s.prefs)
  have hself : pm.add .allowed packageName user = user ++ [⟨.allowed, packageName, true⟩] := by
    rw [PackageManager.add, pm.found_self]
    rfl
  refine ⟨user, _, hseg, getUserAppsIncludedInVpn_pruned s.prefs hfilter hempty, by rw [hloop], ?_⟩
  rw [← hself]
  unfold VpnApps.includeApps
  dsimp only
  rw [hloop]
  rfl

/-- The case `EXCLUDE_APPS`, with the default excluded apps disallowed where something was kept. -/
theorem excludeApps_eq (pm : PackageManager) (s : VpnApps) : ∃ user prefs,
    Segment pm .disallowed ((getUserAppsExcludedFromVpn s.prefs).filter pm.installed) user ∧
    getUserAppsExcludedFromVpn prefs = acceptedIn user ∧
    (pm.addApplications .disallowed pm.installed (getUserAppsExcludedFromVpn s.prefs) []).2 = acceptedIn user ∧
    s.excludeApps pm = if 0 < (acceptedIn user).length then
      ((pm.addApplications .disallowed pm.installedTrusted defaultExcludedApps user).1,
        ⟨prefs, .excludeApps, (acceptedIn user).length⟩)
    else (user, ⟨prefs, .allApps, (acceptedIn user).length⟩) := by
  obtain ⟨user, hloop, hseg, ⟨f, hfilter⟩, hempty⟩ := userLoop pm .disallowed (nodup_getUserAppsExcludedFromVpn s.prefs)
  refine ⟨user, _, hseg, getUserAppsExcludedFromVpn_pruned s.prefs hfilter hempty, by rw [hloop], ?_⟩
  unfold VpnApps.excludeApps
  dsimp only
  rw [hloop]

/-- The end of `vpnServiceBuilder`. -/
theorem vpnServiceBuilder_eq {pm : PackageManager} {s : VpnApps} (hsdk : 21 ≤ pm.sdkInt) {r : List AppCall × VpnApps}
    (h : s.selectApps pm = r) : s.vpnServiceBuilder pm = if r.2.setting = .allApps then
      ((pm.addApplications .disallowed pm.installedTrusted defaultExcludedApps r.1).1, r.2) else r := by
  have hsupports : pm.supportsVpnExclusions = true := decide_eq_true hsdk
  subst h
  unfold VpnApps.vpnServiceBuilder
  rw [if_neg (Nat.not_lt.mpr hsdk)]
  dsimp only
  rw [if_pos hsupports]

/-- Only the exclusion mode disallows. -/
theorem userList_eq (mode : VpnAppsExclusionSetting) : userList mode = .disallowed ↔ mode = .excludeApps := by
  cases mode <;> decide

/-- The default excluded apps are disallowed where nothing was kept. -/
theorem builtFor_allApps {pm : PackageManager} {s : VpnApps} (hsdk : 21 ≤ pm.sdkInt) {mode : VpnAppsExclusionSetting}
    {user : List AppCall} {prefs : VpnAppsPrefs} {count : Nat}
    (hselect : s.selectApps pm = (user, ⟨prefs, .allApps, count⟩))
    (hseg : Segment pm (userList mode) ((getUserApps mode s.prefs).filter pm.installed) user) (hkept : acceptedIn user = [])
    (hself : userList mode = .disallowed → packageName ∉ getUserApps mode s.prefs) (hcount : count = (acceptedIn user).length)
    (hprefs : getUserApps mode prefs = acceptedIn user)
    (hloop : (pm.addApplications (userList mode) pm.installed (getUserApps mode s.prefs) []).2 = acceptedIn user) : BuiltFor pm mode s.prefs (s.vpnServiceBuilder pm) := by
  obtain ⟨rest, hcalls, hrest⟩ := excludeDefaults pm user
  rw [vpnServiceBuilder_eq hsdk hselect, if_pos rfl, hcalls]
  exact ⟨_, .excluded (userList_eq mode) hseg (fun _ => hkept) hself (Or.inr ⟨rfl, hkept⟩) hrest, hcount, hprefs, hloop⟩

/-- `vpnServiceBuilder` in each of its modes. -/
theorem vpnServiceBuilder_built (pm : PackageManager) (s : VpnApps) (hsdk : 21 ≤ pm.sdkInt) :
    BuiltFor pm (getVpnAppsExclusionMode pm s.prefs) s.prefs (s.vpnServiceBuilder pm) := by
  have hselect : s.selectApps pm = s.selectApps pm := rfl
  conv_rhs at hselect => unfold VpnApps.selectApps
  cases hmode : getVpnAppsExclusionMode pm s.prefs with
  | allApps =>
    rw [hmode] at hselect
    have hseg : Segment pm .allowed ((getUserApps .allApps s.prefs).filter pm.installed) [] := ⟨rfl, nofun, nofun⟩
    exact builtFor_allApps hsdk hselect hseg rfl nofun rfl rfl rfl
  | includeApps =>
    rw [hmode] at hselect
    obtain ⟨user, prefs, hseg, hprefs, hloop, heq⟩ := includeApps_eq pm s
    by_cases hpos : 0 < (acceptedIn user).length
    · rw [if_pos hpos] at heq
      rw [vpnServiceBuilder_eq hsdk (hselect.trans heq), if_neg VpnAppsExclusionSetting.noConfusion]
      have hdefault : ∀ p ∈ getUserAppsIncludedInVpn s.prefs, p ∉ defaultExcludedApps := by
        intro p hp
        have := List.of_mem_filter hp
        exact of_decide_eq_true this
      exact ⟨acceptedIn user, .included rfl hseg (List.length_pos_iff.mp hpos) hdefault, rfl, hprefs, hloop⟩
    · rw [if_neg hpos] at heq
      exact builtFor_allApps hsdk (hselect.trans heq) hseg (not_lt_length hpos) nofun rfl hprefs hloop
  | excludeApps =>
    rw [hmode] at hselect
    obtain ⟨user, prefs, hseg, hprefs, hloop, heq⟩ := excludeApps_eq pm s
    have hself : packageName ∉ getUserAppsExcludedFromVpn s.prefs := by
      intro hp
      have := List.of_mem_filter hp
      exact of_decide_eq_true this rfl
    by_cases hpos : 0 < (acceptedIn user).length
    · obtain ⟨rest, hcalls, hrest⟩ := excludeDefaults pm user
      rw [if_pos hpos, hcalls] at heq
      rw [vpnServiceBuilder_eq hsdk (hselect.trans heq), if_neg VpnAppsExclusionSetting.noConfusion]
      have hne := List.length_pos_iff.mp hpos
      exact ⟨acceptedIn user, .excluded (userList_eq .excludeApps) hseg nofun (fun _ => hself) (Or.inl ⟨rfl, hne⟩) hrest, rfl, hprefs,
        hloop⟩
    · rw [if_neg hpos] at heq
      exact builtFor_allApps hsdk (hselect.trans heq) hseg (not_lt_length hpos) (fun _ => hself) rfl hprefs hloop

end VpnAppsAux

open VpnAppsAux

/-- The builder that `vpnServiceBuilder` makes, on a device that supports VPN exclusions, for all preferences.
1. It is not given both an allowed and a disallowed application.
2. The app itself is tunnelled: it is allowed where any app is, and never disallowed.
3. A default excluded app that is installed and trusted, and accepted where it is offered, is not tunnelled.
4. A package that is in no list is tunnelled if and only if no app is allowed.
5. The setting is `INCLUDE_APPS` or `EXCLUDE_APPS` if and only if the count is positive.
6. The builder is first offered every app of the user's list that is installed, in the order of the list, and accepts those that the
   device finds after the calls before; the getter of the active mode then gives exactly these, and the count says how many they are. -/
theorem app_selection_safe (pm : PackageManager) (s : VpnApps) (hsdk : 21 ≤ pm.sdkInt) :
    let calls := (s.vpnServiceBuilder pm).1
    let s' := (s.vpnServiceBuilder pm).2
    let mode := getVpnAppsExclusionMode pm s.prefs
    (applications calls .allowed = [] ∨ applications calls .disallowed = []) ∧
    (Tunnelled calls packageName ∧ packageName ∉ applications calls .disallowed ∧
      (applications calls .allowed ≠ [] → packageName ∈ applications calls .allowed)) ∧
    (∀ p ∈ defaultExcludedApps, pm.installed p = true → pm.trusted p = true →
      ((∃ c ∈ calls, c.packageId = p) → ∃ c ∈ calls, c.packageId = p ∧ c.accepted = true) → ¬Tunnelled calls p) ∧
    (∀ p, p ∉ getUserApps mode s.prefs → p ∉ defaultExcludedApps → p ∉ defaultIncludedApps → p ≠ packageName →
      (Tunnelled calls p ↔ applications calls .allowed = [])) ∧
    ((s'.setting = .includeApps ∨ s'.setting = .excludeApps) ↔ 0 < s'.count) ∧
    (∃ user rest, calls = user ++ rest ∧ Answered pm user ∧ (∀ c ∈ user, c.list = userList mode) ∧
      user.map AppCall.packageId = (getUserApps mode s.prefs).filter pm.installed ∧
      getUserApps mode s'.prefs = (user.filter AppCall.accepted).map AppCall.packageId ∧
      s'.count = (getUserApps mode s'.prefs).length) := by
  intro calls s' mode
  obtain ⟨kept, hbuilt, hcount, hprefs, -⟩ := vpnServiceBuilder_built pm s hsdk
  have hsettings : (s'.setting = .includeApps ∨ s'.setting = .excludeApps) ↔ 0 < s'.count := hcount ▸ hbuilt.setting_iff
  have hgetter : ∃ user rest, calls = user ++ rest ∧ Answered pm user ∧ (∀ c ∈ user, c.list = userList mode) ∧
      user.map AppCall.packageId = (getUserApps mode s.prefs).filter pm.installed ∧
      getUserApps mode s'.prefs = (user.filter AppCall.accepted).map AppCall.packageId ∧
      s'.count = (getUserApps mode s'.prefs).length := by
    obtain ⟨user, rest, hcalls, hseg, hkept⟩ := hbuilt.user
    have hanswered : Answered pm (user ++ rest) := hcalls ▸ answered_vpnServiceBuilder pm s
    exact ⟨user, rest, hcalls, answered_of_append hanswered, hseg.list, hseg.packages, hprefs.trans hkept,
      hcount.trans (congrArg List.length hprefs.symm)⟩
  unfold Tunnelled
  rcases hbuilt.lists with ⟨hdis, hself, hallowed⟩ | ⟨hall, hself, hdis, haccepted, hoffered⟩
  · have hne : applications calls .allowed ≠ [] := List.ne_nil_of_mem hself
    refine ⟨Or.inr hdis, ⟨?_, ?_, fun _ => hself⟩, ?_, ?_, hsettings, hgetter⟩
    · rw [if_neg hne]
      exact hself
    · rw [hdis]
      exact List.not_mem_nil
    · intro p hp _ _ _ htunnelled
      rw [if_neg hne] at htunnelled
      rcases hallowed p htunnelled with rfl | ⟨-, hn⟩
      · exact absurd hp (by decide)
      · exact hn hp
    · intro p hu _ _ hp
      rw [if_neg hne]
      refine ⟨fun htunnelled => ?_, fun he => absurd he hne⟩
      rcases hallowed p htunnelled with rfl | ⟨hmem, -⟩
      · exact absurd rfl hp
      · exact absurd hmem hu
  · refine ⟨Or.inl hall, ⟨?_, hself, fun hne => absurd hall hne⟩, ?_, ?_, hsettings, hgetter⟩
    · rw [if_pos hall]
      exact hself
    · intro p hp hinstalled htrusted hacc htunnelled
      rw [if_pos hall] at htunnelled
      have hboth : pm.installedTrusted p = true := Bool.and_eq_true_iff.mpr ⟨hinstalled, htrusted⟩
      obtain ⟨c, hc, rfl, ha⟩ := hacc (hoffered p hp hboth)
      exact htunnelled (haccepted c hc ha)
    · intro p hu hd _ _
      rw [if_pos hall]
      refine ⟨fun _ => hall, fun _ hmem => ?_⟩
      rcases hdis p hmem with h | h
      · exact hu h
      · exact hd h

/-- Three stored apps, of which one is gone and one is refused by the builder: the third is kept. Conduit is stored too, and stays out. -/
theorem app_selection_safe_pruned : ∃ (pm : PackageManager) (s : VpnApps), 21 ≤ pm.sdkInt ∧
    getUserApps .includeApps s.prefs = ["org.mozilla.firefox", "gone", "refused"] ∧
    getUserApps .includeApps (s.vpnServiceBuilder pm).2.prefs = ["org.mozilla.firefox"] ∧
    ∃ user rest, (s.vpnServiceBuilder pm).1 = user ++ rest ∧ Answered pm user ∧ (∀ c ∈ user, c.list = .allowed) ∧
      user.map AppCall.packageId = ["org.mozilla.firefox", "refused"] ∧
      (user.filter AppCall.accepted).map AppCall.packageId = ["org.mozilla.firefox"] := by
  let installed : String → Bool := fun p => p ∈ ["com.psiphon3", "org.mozilla.firefox", "refused", "ca.psiphon.conduit"]
  let pm : PackageManager := ⟨30, installed, fun _ => true, fun _ p => p = "refused", by decide, by decide, fun _ => by decide⟩
  let s : VpnApps := ⟨⟨false, true, "org.mozilla.firefox,gone,refused,ca.psiphon.conduit", ""⟩, .allApps, 0⟩
  have hmode : getVpnAppsExclusionMode pm s.prefs = .includeApps := by decide
  have hstored : getUserApps .includeApps s.prefs = ["org.mozilla.firefox", "gone", "refused"] := by decide +kernel
  have hkept : getUserApps .includeApps (s.vpnServiceBuilder pm).2.prefs = ["org.mozilla.firefox"] := by decide +kernel
  have hinstalled : ["org.mozilla.firefox", "gone", "refused"].filter pm.installed = ["org.mozilla.firefox", "refused"] := by
    decide +kernel
  obtain ⟨user, rest, hcalls, hanswered, hlist, hpackages, hgetter, -⟩ := (app_selection_safe pm s (by decide)).2.2.2.2.2
  rw [hmode] at hlist hpackages hgetter
  exact ⟨pm, s, by decide, hstored, hkept, user, rest, hcalls, hanswered, hlist, hpackages.trans (hstored ▸ hinstalled),
    hgetter.symm.trans hkept⟩

end PsiphonAndroid
