import PsiphonAndroid.Flow.FairQueue

/-!
# The invariant of the fair queue

`Core` is what the queue keeps in every state, and with it no `ASSERT` fails. Each operation has one lemma that says what it does to the
flows that are sending, queued or have just sent, and to the times.
-/

namespace PsiphonAndroid

namespace FairQueue

variable {m : FairQueue}

/-- The flow is sending, queued, or has just sent. -/
def Busy (m : FairQueue) (flow : Nat) : Prop :=
  m.sendingFlow = some flow ∨ flow ∈ m.queuedTree ∨ m.previousFlow = some flow

/-- The order of the tree: by time, and by address where the times are the same. -/
def Before (m : FairQueue) (f g : Nat) : Prop := m.time f < m.time g ∨ (m.time f = m.time g ∧ f < g)

/-- What holds in every state. -/
structure Core (m : FairQueue) : Prop where
  nodup : m.flowsList.Nodup
  tree_nodup : m.queuedTree.Nodup
  listed : ∀ f, m.Busy f → f ∈ m.flowsList
  queued : ∀ f ∈ m.flowsList, ((m.mem f).isQueued = true ↔ f ∈ m.queuedTree)
  sorted : m.queuedTree.Pairwise m.Before
  sending : ∀ f, m.sendingFlow = some f → f ∉ m.queuedTree ∧ m.previousFlow = none ∧ m.scheduleJob = false ∧
    m.sendingLen ≤ m.mtu ∧ ∀ g ∈ m.queuedTree, m.time f ≤ m.time g
  previous : ∀ f, m.previousFlow = some f → f ∉ m.queuedTree ∧ m.sendingFlow = none ∧ m.scheduleJob = true
  time_le : ∀ f ∈ m.flowsList, m.time f ≤ m.maxTime
  len_le : ∀ f ∈ m.queuedTree, (m.mem f).dataLen ≤ m.mtu
  fits : m.mtu + m.packetWeight ≤ m.maxTime
  max_le : m.maxTime ≤ fairqueueMaxTime

/-- A queue that is not being freed sends while there is something to send, unless its job will. -/
def Works (m : FairQueue) : Prop := m.freeing = false → m.sendingFlow = none → m.scheduleJob = false → m.queuedTree = []

theorem ensure_true {b : Bool} (h : b = true) : ensure b = .ok () := by
  rw [ensure, if_pos h]

/-! ## Reads and writes -/

theorem setTime_mem (m : FairQueue) (flow t g : Nat) :
    (m.setTime flow t).mem g = if g = flow then { m.mem flow with time := t } else m.mem g :=
  Function.update_apply _ _ _ _

theorem setQueued_mem (m : FairQueue) (flow : Nat) (b : Bool) (d n g : Nat) :
    (m.setQueued flow b d n).mem g = if g = flow then { m.mem flow with isQueued := b, data := d, dataLen := n } else m.mem g :=
  Function.update_apply _ _ _ _

@[simp] theorem setTime_time (m : FairQueue) (flow t g : Nat) : (m.setTime flow t).time g = if g = flow then t else m.time g := by
  unfold time
  rw [setTime_mem]
  split <;> rfl

@[simp] theorem setTime_isQueued (m : FairQueue) (flow t g : Nat) :
    ((m.setTime flow t).mem g).isQueued = (m.mem g).isQueued := by
  rw [setTime_mem]
  split
  · rename_i h
    rw [h]
  · rfl

@[simp] theorem setTime_data (m : FairQueue) (flow t g : Nat) : ((m.setTime flow t).mem g).data = (m.mem g).data := by
  rw [setTime_mem]
  split
  · rename_i h
    rw [h]
  · rfl

@[simp] theorem setTime_dataLen (m : FairQueue) (flow t g : Nat) : ((m.setTime flow t).mem g).dataLen = (m.mem g).dataLen := by
  rw [setTime_mem]
  split
  · rename_i h
    rw [h]
  · rfl

@[simp] theorem setQueued_time (m : FairQueue) (flow : Nat) (b : Bool) (d n g : Nat) : (m.setQueued flow b d n).time g = m.time g := by
  unfold time
  rw [setQueued_mem]
  split
  · rename_i h
    rw [h]
  · rfl

@[simp] theorem setQueued_isQueued (m : FairQueue) (flow : Nat) (b : Bool) (d n g : Nat) :
    ((m.setQueued flow b d n).mem g).isQueued = if g = flow then b else (m.mem g).isQueued := by
  rw [setQueued_mem]
  split <;> rfl

@[simp] theorem setQueued_data (m : FairQueue) (flow : Nat) (b : Bool) (d n g : Nat) :
    ((m.setQueued flow b d n).mem g).data = if g = flow then d else (m.mem g).data := by
  rw [setQueued_mem]
  split <;> rfl

@[simp] theorem setQueued_dataLen (m : FairQueue) (flow : Nat) (b : Bool) (d n g : Nat) :
    ((m.setQueued flow b d n).mem g).dataLen = if g = flow then n else (m.mem g).dataLen := by
  rw [setQueued_mem]
  split <;> rfl

/-! ## The tree -/

theorem bCompare_neg_iff (a b : Nat) : bCompare a b < 0 ↔ a < b := by
  unfold bCompare
  split <;> split <;> omega

theorem compareFlows_neg_iff (f g : Nat) : m.compareFlows f g < 0 ↔ m.Before f g := by
  unfold compareFlows Before
  dsimp only
  split
  · rename_i hcmp
    have hne : m.time f ≠ m.time g := fun hn => hcmp ((bCompare_eq_zero_iff _ _).mpr hn)
    rw [bCompare_neg_iff]
    omega
  · rename_i hcmp
    have heq := (bCompare_eq_zero_iff _ _).mp (not_not.mp hcmp)
    rw [bCompare_neg_iff]
    omega

theorem compareFlows_zero {f g : Nat} (h : m.compareFlows f g = 0) : f = g := by
  unfold compareFlows at h
  dsimp only at h
  split at h
  · rename_i hcmp
    exact absurd h hcmp
  · exact (bCompare_eq_zero_iff _ _).mp h

theorem Before.time_le {f g : Nat} (h : m.Before f g) : m.time f ≤ m.time g := by
  unfold Before at h
  omega

theorem Before.trans {f g k : Nat} (h : m.Before f g) (h' : m.Before g k) : m.Before f k := by
  unfold Before at *
  omega

/-- The order depends on the times only, up to a common difference. -/
theorem Before.shift {m' : FairQueue} {f g d : Nat} (h : m.Before f g) (hf : m'.time f + d = m.time f) (hg : m'.time g + d = m.time g) :
    m'.Before f g := by
  unfold Before at *
  omega

theorem Before.congr {m' : FairQueue} {f g : Nat} (h : m.Before f g) (hf : m'.time f = m.time f) (hg : m'.time g = m.time g) :
    m'.Before f g :=
  @Before.shift m m' f g 0 h hf hg

/-- The first flow of the tree has the least time. -/
theorem head_time_le {tree : List Nat} (hs : tree.Pairwise m.Before) {first : Nat} (hfirst : tree.head? = some first) :
    ∀ g ∈ tree, m.time first ≤ m.time g := by
  obtain ⟨rest, rfl⟩ := List.head?_eq_some_iff.mp hfirst
  intro g hg
  rcases List.mem_cons.mp hg with rfl | hg
  · exact Nat.le_refl _
  · exact ((List.pairwise_cons.mp hs).1 g hg).time_le

/-- A flow that is not in the tree is inserted, in its place. -/
theorem treeInsert_spec {flow : Nat} {tree : List Nat} (hnot : flow ∉ tree) (hs : tree.Pairwise m.Before) :
    ∃ tree', m.treeInsert flow tree = some tree' ∧ tree'.Perm (flow :: tree) ∧ tree'.Pairwise m.Before := by
  induction tree with
  | nil => exact ⟨[flow], rfl, List.Perm.refl _, List.pairwise_singleton _ _⟩
  | cons f tree ih =>
    obtain ⟨hfirst, hs'⟩ := List.pairwise_cons.mp hs
    obtain ⟨hne, hnot'⟩ := not_or.mp (mt List.mem_cons.mpr hnot)
    unfold treeInsert
    split
    · rename_i hlt
      have hbefore := (compareFlows_neg_iff _ _).mp hlt
      refine ⟨_, rfl, List.Perm.refl _, List.pairwise_cons.mpr ⟨?_, hs⟩⟩
      intro g hg
      rcases List.mem_cons.mp hg with rfl | hg
      · exact hbefore
      · exact hbefore.trans (hfirst g hg)
    · rename_i hge
      rw [if_neg fun hn => hne (compareFlows_zero hn)]
      obtain ⟨tree', hins, hperm, hsorted⟩ := ih hnot' hs'
      refine ⟨f :: tree', by rw [hins]; rfl, (hperm.cons f).trans (List.Perm.swap flow f tree), ?_⟩
      refine List.pairwise_cons.mpr ⟨?_, hsorted⟩
      intro g hg
      rcases List.mem_cons.mp (hperm.mem_iff.mp hg) with rfl | hg
      · have hnot := mt (compareFlows_neg_iff _ _).mpr hge
        unfold Before at *
        omega
      · exact hfirst g hg

/-! ## The current time -/

/-- No flow is sending, queued, or has just sent. -/
def Idle (m : FairQueue) : Prop := m.sendingFlow = none ∧ m.queuedTree = [] ∧ m.previousFlow = none

/-- Where the queue is not idle, the current time is the least time of its busy flows. -/
theorem getCurrentTime_spec (h : m.Core) (hbusy : ¬m.Idle) :
    (∃ b, m.Busy b ∧ m.getCurrentTime = m.time b) ∧ ∀ b, m.Busy b → m.getCurrentTime ≤ m.time b := by
  unfold getCurrentTime
  cases hs : m.sendingFlow with
  | some f =>
    obtain ⟨-, hp, -, -, hleast⟩ := h.sending f hs
    refine ⟨⟨f, Or.inl hs, rfl⟩, ?_⟩
    rintro b (hb | hb | hb)
    · rw [hs] at hb
      rw [Option.some.inj hb]
    · exact hleast b hb
    · rw [hp] at hb
      cases hb
  | none =>
    have hnot : ∀ b, m.sendingFlow ≠ some b := fun b hn => by rw [hs] at hn; cases hn
    have hhead : ∀ first rest, m.queuedTree = first :: rest → ∀ b ∈ m.queuedTree, m.time first ≤ m.time b :=
      fun first rest htree => head_time_le h.sorted (by rw [htree]; rfl)
    cases htree : m.queuedTree with
    | nil =>
      cases hp : m.previousFlow with
      | none => exact absurd ⟨hs, htree, hp⟩ hbusy
      | some previous =>
        refine ⟨⟨previous, Or.inr (Or.inr hp), rfl⟩, ?_⟩
        rintro b (hb | hb | hb)
        · exact absurd hb (hnot b)
        · rw [htree] at hb
          cases hb
        · rw [hp] at hb
          rw [← Option.some.inj hb]
          exact Nat.le_refl _
    | cons first rest =>
      have hfirst : m.Busy first := Or.inr (Or.inl (by rw [htree]; exact List.mem_cons_self))
      cases hp : m.previousFlow with
      | none =>
        refine ⟨⟨first, hfirst, rfl⟩, ?_⟩
        rintro b (hb | hb | hb)
        · exact absurd hb (hnot b)
        · exact hhead first rest htree b hb
        · rw [hp] at hb
          cases hb
      | some previous =>
        dsimp only [List.head?_cons]
        refine ⟨?_, ?_⟩
        · split
          · exact ⟨previous, Or.inr (Or.inr hp), rfl⟩
          · exact ⟨first, hfirst, rfl⟩
        · rintro b (hb | hb | hb)
          · exact absurd hb (hnot b)
          · have := hhead first rest htree b hb
            split <;> omega
          · rw [hp] at hb
            rw [← Option.some.inj hb]
            split <;> omega

/-! ## Operations that leave the times -/

/-- No flow gets busy, and the times stay; a flow that was not there starts at zero. -/
structure Quiet (m m' : FairQueue) : Prop where
  maxTime : m'.maxTime = m.maxTime
  mtu : m'.mtu = m.mtu
  packetWeight : m'.packetWeight = m.packetWeight
  busy : ∀ f, m'.Busy f → m.Busy f
  time : ∀ f ∈ m'.flowsList, (f ∈ m.flowsList ∧ m'.time f = m.time f) ∨ (f ∉ m.flowsList ∧ m'.time f = 0)

theorem Quiet.trans {m' m'' : FairQueue} (h : Quiet m m') (h' : Quiet m' m'') (hlist : m''.flowsList = m'.flowsList) : Quiet m m'' where
  maxTime := h'.maxTime.trans h.maxTime
  mtu := h'.mtu.trans h.mtu
  packetWeight := h'.packetWeight.trans h.packetWeight
  busy := fun f hf => h.busy f (h'.busy f hf)
  time := by
    intro f hf
    rcases h'.time f hf with ⟨hf', ht'⟩ | ⟨hf', -⟩
    · rw [ht']
      exact h.time f hf'
    · exact absurd (hlist ▸ hf) hf'

/-- The queue with its first flow sending. -/
def scheduled (m : FairQueue) (qflow : Nat) (rest : List Nat) : FairQueue :=
  { m.setQueued qflow false (m.mem qflow).data (m.mem qflow).dataLen with
    queuedTree := rest
    sendingFlow := some qflow
    sendingLen := (m.mem qflow).dataLen
    calls := m.calls ++ [.send (m.mem qflow).data (m.mem qflow).dataLen] }

theorem schedule_spec (h : m.Core) (hs : m.sendingFlow = none) (hp : m.previousFlow = none) (hf : m.freeing = false)
    (hj : m.scheduleJob = false) {qflow : Nat} {rest : List Nat} (htree : m.queuedTree = qflow :: rest) :
    m.schedule = .ok (m.scheduled qflow rest) ∧ (m.scheduled qflow rest).Core ∧ (m.scheduled qflow rest).Works ∧
      Quiet m (m.scheduled qflow rest) := by
  have hmem : qflow ∈ m.queuedTree := by rw [htree]; exact List.mem_cons_self
  have hrest : ∀ f ∈ rest, f ∈ m.queuedTree := fun f hf => by rw [htree]; exact List.mem_cons_of_mem _ hf
  have hlisted : qflow ∈ m.flowsList := h.listed qflow (Or.inr (Or.inl hmem))
  have hnodup := h.tree_nodup
  have hsorted := h.sorted
  rw [htree] at hnodup hsorted
  obtain ⟨hnot, hnodup⟩ := List.nodup_cons.mp hnodup
  obtain ⟨hfirst, hsorted⟩ := List.pairwise_cons.mp hsorted
  have htime : ∀ f, (m.scheduled qflow rest).time f = m.time f := fun f => setQueued_time m qflow _ _ _ f
  have hbusy : ∀ f, (m.scheduled qflow rest).Busy f → m.Busy f := by
    rintro f (hn | hn | hn)
    · exact Or.inr (Or.inl (Option.some.inj hn ▸ hmem))
    · exact Or.inr (Or.inl (hrest f hn))
    · exact absurd (hp.symm.trans hn) nofun
  refine ⟨?_, ⟨h.nodup, hnodup, fun f hb => h.listed f (hbusy f hb), ?_, ?_, ?_, ?_, ?_, ?_, h.fits, h.max_le⟩, (fun _ hn => nomatch hn), ?_⟩
  · unfold schedule
    rw [ensure_true (by rw [hs]; rfl), ensure_true (by rw [hp]; rfl), ensure_true (by rw [hf]; rfl), htree]
    simp only [bind, Except.bind, pure, Except.pure]
    rw [ensure_true ((h.queued qflow hlisted).mpr hmem)]
    simp [scheduled, setQueued]
  · intro f hf
    change ((m.setQueued qflow false _ _).mem f).isQueued = true ↔ f ∈ rest
    rw [setQueued_isQueued]
    by_cases hn : f = qflow
    · subst hn
      simp [hnot]
    · rw [if_neg hn, h.queued f hf, htree, List.mem_cons]
      simp [hn]
  · exact hsorted.imp fun hb => hb.congr (htime _) (htime _)
  · rintro f hn
    obtain rfl := Option.some.inj hn
    refine ⟨hnot, hp, hj, h.len_le qflow hmem, ?_⟩
    intro g hg
    rw [htime, htime]
    exact (hfirst g hg).time_le
  · exact fun f hn => absurd (hp.symm.trans hn) nofun
  · simp only [htime]
    exact h.time_le
  · intro f hf
    change ((m.setQueued qflow false _ _).mem f).dataLen ≤ m.mtu
    rw [setQueued_dataLen]
    by_cases hn : f = qflow
    · rw [if_pos hn]
      exact h.len_le qflow hmem
    · rw [if_neg hn]
      exact h.len_le f (hrest f hf)
  · exact ⟨rfl, rfl, rfl, hbusy, fun f hf => Or.inl ⟨hf, htime f⟩⟩

/-- The schedule job. -/
theorem scheduleJobHandler_spec (h : m.Core) (hj : m.scheduleJob = true) (hf : m.freeing = false) :
    ∃ m', { m with scheduleJob := false }.scheduleJobHandler = .ok m' ∧ m'.Core ∧ m'.Works ∧ Quiet m m' := by
  have hs : m.sendingFlow = none := by
    cases hs : m.sendingFlow with
    | none => rfl
    | some f => exact absurd (hj.symm.trans (h.sending f hs).2.2.1) nofun
  have hcore : { m with scheduleJob := false, previousFlow := none }.Core := by
    refine ⟨h.nodup, h.tree_nodup, ?_, h.queued, h.sorted, ?_, nofun, h.time_le, h.len_le, h.fits, h.max_le⟩
    · rintro f (hn | hn | hn)
      · exact h.listed f (Or.inl hn)
      · exact h.listed f (Or.inr (Or.inl hn))
      · cases hn
    · exact fun f hn => absurd (hs.symm.trans hn) nofun
  have hquiet : Quiet m { m with scheduleJob := false, previousFlow := none } := by
    refine ⟨rfl, rfl, rfl, ?_, fun f hf => Or.inl ⟨hf, rfl⟩⟩
    rintro f (hn | hn | hn)
    · exact Or.inl hn
    · exact Or.inr (Or.inl hn)
    · cases hn
  unfold scheduleJobHandler
  rw [ensure_true (by simp only [hs]; rfl), ensure_true (by simp only [hf]; rfl)]
  simp only [bind, Except.bind, pure, Except.pure]
  split
  · rename_i hne
    obtain ⟨qflow, rest, htree⟩ := List.exists_cons_of_ne_nil hne
    obtain ⟨hrun, hcore', hworks, hquiet'⟩ := schedule_spec hcore hs rfl hf rfl htree
    exact ⟨_, hrun, hcore', hworks, hquiet.trans hquiet' rfl⟩
  · rename_i hempty
    exact ⟨_, rfl, hcore, fun _ _ _ => not_not.mp hempty, hquiet⟩

/-- A new flow. -/
theorem flowInit_spec (h : m.Core) (hw : m.Works) {flow : Nat} (hnew : flow ∉ m.flowsList) (hf : m.freeing = false) :
    ∃ m', m.flowInit flow = .ok m' ∧ m'.Core ∧ m'.Works ∧ Quiet m m' := by
  have hidle : ¬m.Busy flow := fun hn => hnew (h.listed flow hn)
  have hne : ∀ f ∈ m.queuedTree, f ≠ flow := fun f hf hn => hidle (Or.inr (Or.inl (hn ▸ hf)))
  unfold flowInit
  rw [ensure_true (by rw [hf]; rfl)]
  refine ⟨_, rfl, ?_⟩
  have hmem : ∀ f ≠ flow, Function.update m.mem flow { m.mem flow with time := 0, isQueued := false } f = m.mem f :=
    fun f hn => Function.update_of_ne hn _ _
  have htime : ∀ f ≠ flow, (Function.update m.mem flow { m.mem flow with time := 0, isQueued := false } f).time = m.time f :=
    fun f hn => congrArg FairQueueFlow.time (hmem f hn)
  have hself : Function.update m.mem flow { m.mem flow with time := 0, isQueued := false } flow =
      { m.mem flow with time := 0, isQueued := false } := Function.update_self ..
  refine ⟨⟨?_, h.tree_nodup, ?_, ?_, ?_, ?_, h.previous, ?_, ?_, h.fits, h.max_le⟩, hw, ⟨rfl, rfl, rfl, fun _ hb => hb, ?_⟩⟩
  · exact List.nodup_append.mpr ⟨h.nodup, List.nodup_singleton _, fun a ha b hb => by
      rintro rfl
      exact hnew (List.mem_singleton.mp hb ▸ ha)⟩
  · exact fun f hb => List.mem_append_left _ (h.listed f hb)
  · intro f hfl
    change (Function.update m.mem flow _ f).isQueued = true ↔ f ∈ m.queuedTree
    rcases List.mem_append.mp hfl with hfl | hfl
    · rw [hmem f fun hn => hnew (hn ▸ hfl)]
      exact h.queued f hfl
    · rw [List.mem_singleton.mp hfl, hself]
      exact ⟨nofun, fun hn => absurd rfl (hne flow hn)⟩
  · refine h.sorted.imp_of_mem ?_
    exact fun hf hg hb => hb.congr (htime _ (hne _ hf)) (htime _ (hne _ hg))
  · intro f hn
    obtain ⟨hft, hp, hj, hlen, hleast⟩ := h.sending f hn
    refine ⟨hft, hp, hj, hlen, ?_⟩
    intro g hg
    change (Function.update m.mem flow _ f).time ≤ (Function.update m.mem flow _ g).time
    rw [htime f fun heq => hidle (heq ▸ Or.inl hn), htime g (hne g hg)]
    exact hleast g hg
  · intro f hfl
    change (Function.update m.mem flow _ f).time ≤ m.maxTime
    rcases List.mem_append.mp hfl with hfl | hfl
    · rw [htime f fun hn => hnew (hn ▸ hfl)]
      exact h.time_le f hfl
    · rw [List.mem_singleton.mp hfl, hself]
      exact Nat.zero_le _
  · intro f hft
    change (Function.update m.mem flow _ f).dataLen ≤ m.mtu
    rw [hmem f (hne f hft)]
    exact h.len_le f hft
  · intro f hfl
    rcases List.mem_append.mp hfl with hfl | hfl
    · exact Or.inl ⟨hfl, htime f fun hn => hnew (hn ▸ hfl)⟩
    · rw [List.mem_singleton.mp hfl]
      exact Or.inr ⟨hnew, congrArg FairQueueFlow.time hself⟩

/-- A flow is freed. -/
theorem flowFree_spec (h : m.Core) (hw : m.Works) {flow : Nat} (hold : flow ∈ m.flowsList)
    (hf : m.freeing = true ∨ m.sendingFlow ≠ some flow) :
    ∃ m', m.flowFree flow = .ok m' ∧ m'.Core ∧ m'.Works ∧ Quiet m m' := by
  have htree : (if (m.mem flow).isQueued = true then m.queuedTree.erase flow else m.queuedTree) = m.queuedTree.erase flow := by
    split
    · rfl
    · rename_i hn
      rw [List.erase_of_not_mem fun hmem => hn ((h.queued flow hold).mpr hmem)]
  unfold flowFree
  rw [ensure_true (by rcases hf with hf | hf <;> simp [hf])]
  refine ⟨_, rfl, ?_⟩
  simp only [htree]
  have hmem : ∀ f, f ∈ m.queuedTree.erase flow ↔ f ≠ flow ∧ f ∈ m.queuedTree := fun f => h.tree_nodup.mem_erase_iff
  have hopt : ∀ (o : Option Nat) f, (if o = some flow then none else o) = some f → f ≠ flow ∧ o = some f := by
    intro o f hn
    split at hn
    · cases hn
    · rename_i hne
      exact ⟨fun heq => hne (heq ▸ hn), hn⟩
  have hbusy : ∀ f, ((if m.sendingFlow = some flow then none else m.sendingFlow) = some f ∨ f ∈ m.queuedTree.erase flow ∨
      (if m.previousFlow = some flow then none else m.previousFlow) = some f) → f ≠ flow ∧ m.Busy f := by
    rintro f (hn | hn | hn)
    · exact ⟨(hopt _ f hn).1, Or.inl (hopt _ f hn).2⟩
    · exact ⟨((hmem f).mp hn).1, Or.inr (Or.inl ((hmem f).mp hn).2)⟩
    · exact ⟨(hopt _ f hn).1, Or.inr (Or.inr (hopt _ f hn).2)⟩
  refine ⟨⟨h.nodup.erase _, h.tree_nodup.erase _, ?_, ?_, h.sorted.sublist List.erase_sublist, ?_, ?_, ?_, ?_, h.fits, h.max_le⟩, ?_, ?_⟩
  · intro f hb
    obtain ⟨hne, hb⟩ := hbusy f hb
    exact (h.nodup.mem_erase_iff).mpr ⟨hne, h.listed f hb⟩
  · intro f hfl
    obtain ⟨hne, hfl⟩ := h.nodup.mem_erase_iff.mp hfl
    rw [h.queued f hfl]
    exact ⟨fun hn => (hmem f).mpr ⟨hne, hn⟩, fun hn => ((hmem f).mp hn).2⟩
  · intro f hn
    obtain ⟨hne, hn⟩ := hopt _ f hn
    obtain ⟨hft, hp, hj, hlen, hleast⟩ := h.sending f hn
    refine ⟨fun hmem' => hft ((hmem f).mp hmem').2, ?_, hj, hlen, fun g hg => hleast g ((hmem g).mp hg).2⟩
    simp only [hp]
    rfl
  · intro f hn
    obtain ⟨hne, hn⟩ := hopt _ f hn
    obtain ⟨hft, hs, hj⟩ := h.previous f hn
    refine ⟨fun hmem' => hft ((hmem f).mp hmem').2, ?_, hj⟩
    simp only [hs]
    rfl
  · exact fun f hfl => h.time_le f (List.mem_of_mem_erase hfl)
  · exact fun f hft => h.len_le f ((hmem f).mp hft).2
  · intro hfree hs hj
    have hs' : m.sendingFlow = none := by
      rcases hf with hf | hf
      · exact absurd (hfree.symm.trans hf) nofun
      · simpa only [if_neg hf] using hs
    change m.queuedTree.erase flow = []
    rw [hw hfree hs' hj]
    rfl
  · exact ⟨rfl, rfl, rfl, fun f hb => (hbusy f hb).2, fun f hfl => Or.inl ⟨List.mem_of_mem_erase hfl, rfl⟩⟩

/-! ## A packet is sent -/

/-- The flow is put into the tree. -/
def enqueued (m : FairQueue) (flow dataLen : Nat) (tree : List Nat) : FairQueue :=
  { m with queuedTree := tree, accepted := m.accepted ++ [flow] }.setQueued flow true m.accepted.length dataLen

/-- A flow that is listed and not busy is put into the tree; where another is sending, its time is not before that one's. -/
theorem enqueued_core (h : m.Core) {flow dataLen : Nat} (hfl : flow ∈ m.flowsList) (hidle : ¬m.Busy flow) (hlen : dataLen ≤ m.mtu)
    (hsend : ∀ f, m.sendingFlow = some f → m.time f ≤ m.time flow) {tree : List Nat} (hperm : tree.Perm (flow :: m.queuedTree))
    (hsorted : tree.Pairwise m.Before) :
    (m.enqueued flow dataLen tree).Core ∧ ∀ f, (m.enqueued flow dataLen tree).Busy f ↔ m.Busy f ∨ f = flow := by
  have hnot : flow ∉ m.queuedTree := fun hn => hidle (Or.inr (Or.inl hn))
  have hmem : ∀ f, f ∈ tree ↔ f = flow ∨ f ∈ m.queuedTree := fun f => hperm.mem_iff.trans List.mem_cons
  have htime : ∀ f, (m.enqueued flow dataLen tree).time f = m.time f := fun f => setQueued_time _ flow _ _ _ f
  have hbusy : ∀ f, (m.enqueued flow dataLen tree).Busy f ↔ m.Busy f ∨ f = flow := by
    intro f
    change (m.sendingFlow = some f ∨ f ∈ tree ∨ m.previousFlow = some f) ↔ _
    rw [hmem f]
    unfold Busy
    tauto
  refine ⟨⟨h.nodup, ?_, ?_, ?_, ?_, ?_, ?_, ?_, ?_, h.fits, h.max_le⟩, hbusy⟩
  · exact hperm.nodup_iff.mpr (List.nodup_cons.mpr ⟨hnot, h.tree_nodup⟩)
  · intro f hb
    rcases (hbusy f).mp hb with hb | rfl
    · exact h.listed f hb
    · exact hfl
  · intro f hf
    change ((setQueued _ flow true _ dataLen).mem f).isQueued = true ↔ f ∈ tree
    rw [setQueued_isQueued, hmem f]
    by_cases hn : f = flow
    · simp [hn]
    · rw [if_neg hn, h.queued f hf]
      simp [hn]
  · exact hsorted.imp fun hb => hb.congr (htime _) (htime _)
  · intro f hn
    obtain ⟨hft, hp, hj, hsl, hleast⟩ := h.sending f hn
    refine ⟨fun hmem' => ?_, hp, hj, hsl, ?_⟩
    · rcases (hmem f).mp hmem' with rfl | hf
      · exact hidle (Or.inl hn)
      · exact hft hf
    · intro g hg
      rw [htime, htime]
      rcases (hmem g).mp hg with rfl | hg
      · exact hsend f hn
      · exact hleast g hg
  · intro f hn
    obtain ⟨hft, hs, hj⟩ := h.previous f hn
    refine ⟨fun hmem' => ?_, hs, hj⟩
    rcases (hmem f).mp hmem' with rfl | hf
    · exact hidle (Or.inr (Or.inr hn))
    · exact hft hf
  · simp only [htime]
    exact h.time_le
  · intro f hf
    change ((setQueued _ flow true _ dataLen).mem f).dataLen ≤ m.mtu
    rw [setQueued_dataLen]
    by_cases hn : f = flow
    · rw [if_pos hn]
      exact hlen
    · rw [if_neg hn]
      exact h.len_le f (((hmem f).mp hf).resolve_left hn)

/-- What `input_handler_send` does once the flow's time is set: the flow is queued, and sends at once where nothing does. -/
theorem enqueue_spec (h : m.Core) {flow dataLen : Nat} (hfl : flow ∈ m.flowsList) (hidle : ¬m.Busy flow) (hlen : dataLen ≤ m.mtu)
    (hfree : m.freeing = false) (hsend : ∀ f, m.sendingFlow = some f → m.time f ≤ m.time flow) :
    ∃ tree m', m.treeInsert flow m.queuedTree = some tree ∧
      (if (m.enqueued flow dataLen tree).sendingFlow.isNone = true ∧ (m.enqueued flow dataLen tree).scheduleJob = false then
        (m.enqueued flow dataLen tree).schedule else .ok (m.enqueued flow dataLen tree)) = .ok m' ∧
      m'.Core ∧ m'.Works ∧ m'.maxTime = m.maxTime ∧ m'.mtu = m.mtu ∧ m'.packetWeight = m.packetWeight ∧ m'.flowsList = m.flowsList ∧
      (∀ f, m'.Busy f → m.Busy f ∨ f = flow) ∧ ∀ f ∈ m.flowsList, m'.time f = m.time f := by
  have hnot : flow ∉ m.queuedTree := fun hn => hidle (Or.inr (Or.inl hn))
  obtain ⟨tree, hins, hperm, hsorted⟩ := treeInsert_spec hnot h.sorted
  obtain ⟨hcore, hbusy⟩ := enqueued_core h hfl hidle hlen hsend hperm hsorted
  have htime : ∀ f, (m.enqueued flow dataLen tree).time f = m.time f := fun f => setQueued_time _ flow _ _ _ f
  refine ⟨tree, ?_⟩
  by_cases hnow : m.sendingFlow.isNone = true ∧ m.scheduleJob = false
  · have hs := Option.isNone_iff_eq_none.mp hnow.1
    have hp : m.previousFlow = none := by
      cases hp : m.previousFlow with
      | none => rfl
      | some f => exact absurd ((h.previous f hp).2.2.symm.trans hnow.2) nofun
    obtain ⟨qflow, rest, htree⟩ := List.exists_cons_of_ne_nil (fun hn : tree = [] => by
      rw [hn] at hperm
      exact List.cons_ne_nil _ _ (List.perm_nil.mp hperm.symm))
    obtain ⟨hrun, hcore', hworks, hquiet⟩ := schedule_spec hcore hs hp hfree hnow.2 htree
    refine ⟨_, hins, by rw [if_pos (by exact hnow)]; exact hrun, hcore', hworks, rfl, rfl, rfl, rfl, ?_, ?_⟩
    · exact fun f hb => (hbusy f).mp (hquiet.busy f hb)
    · intro f hf
      rcases hquiet.time f hf with ⟨-, ht⟩ | ⟨hn, -⟩
      · rw [ht, htime]
      · exact absurd hf hn
  · refine ⟨_, hins, by rw [if_neg (by exact hnow)], hcore, ?_, rfl, rfl, rfl, rfl, fun f => (hbusy f).mp, fun f _ => htime f⟩
    intro _ hs hj
    exact absurd ⟨Option.isNone_iff_eq_none.mpr hs, hj⟩ hnow

/-- A raise of the time of a flow that is not busy, to a time that is not before that of a sending flow. -/
theorem setTime_core (h : m.Core) {flow t : Nat} (hidle : ¬m.Busy flow) (ht : t ≤ m.maxTime) : (m.setTime flow t).Core := by
  have hne : ∀ f, m.Busy f → f ≠ flow := fun f hb hn => hidle (hn ▸ hb)
  have htime : ∀ f, m.Busy f → (m.setTime flow t).time f = m.time f := fun f hb => by rw [setTime_time, if_neg (hne f hb)]
  refine ⟨h.nodup, h.tree_nodup, h.listed, ?_, ?_, ?_, h.previous, ?_, ?_, h.fits, h.max_le⟩
  · intro f hf
    rw [setTime_isQueued]
    exact h.queued f hf
  · refine h.sorted.imp_of_mem ?_
    exact fun hf hg hb => hb.congr (htime _ (Or.inr (Or.inl hf))) (htime _ (Or.inr (Or.inl hg)))
  · intro f hn
    obtain ⟨hft, hp, hj, hlen, hleast⟩ := h.sending f hn
    refine ⟨hft, hp, hj, hlen, ?_⟩
    intro g hg
    rw [htime f (Or.inl hn), htime g (Or.inr (Or.inl hg))]
    exact hleast g hg
  · intro f hf
    rw [setTime_time]
    split
    · exact ht
    · exact h.time_le f hf
  · intro f hf
    rw [setTime_dataLen]
    exact h.len_le f hf

/-- The current time is that of some flow, or zero. -/
theorem getCurrentTime_le (h : m.Core) : m.getCurrentTime ≤ m.maxTime := by
  by_cases hidle : m.Idle
  · obtain ⟨hs, htree, hp⟩ := hidle
    unfold getCurrentTime
    rw [hs, htree, hp]
    exact Nat.zero_le _
  · obtain ⟨b, hb, heq⟩ := (getCurrentTime_spec h hidle).1
    rw [heq]
    exact h.time_le b (h.listed b hb)

/-- `input_handler_send` of a flow that has just sent: its time is not raised. -/
theorem inputHandlerSend_previous (h : m.Core) {flow dataLen : Nat} (hp : m.previousFlow = some flow) (hlen : dataLen ≤ m.mtu)
    (hfree : m.freeing = false) :
    ∃ m', m.inputHandlerSend flow dataLen = .ok m' ∧ m'.Core ∧ m'.Works ∧ Quiet m m' := by
  obtain ⟨hnot, hs, hj⟩ := h.previous flow hp
  have hfl := h.listed flow (Or.inr (Or.inr hp))
  have hcore : { m with previousFlow := none }.Core := by
    refine ⟨h.nodup, h.tree_nodup, ?_, h.queued, h.sorted, ?_, nofun, h.time_le, h.len_le, h.fits, h.max_le⟩
    · rintro f (hn | hn | hn)
      · exact h.listed f (Or.inl hn)
      · exact h.listed f (Or.inr (Or.inl hn))
      · cases hn
    · exact fun f hn => absurd (hs.symm.trans hn) nofun
  have hidle : ¬{ m with previousFlow := none }.Busy flow := by
    rintro (hn | hn | hn)
    · exact absurd (hs.symm.trans hn) nofun
    · exact hnot hn
    · cases hn
  obtain ⟨tree, m', hins, hrun, hcore', hworks, hmax, hmtu, hweight, hlist, hbusy, htime⟩ :=
    enqueue_spec hcore hfl hidle hlen hfree fun f hn => absurd (hs.symm.trans hn) nofun
  refine ⟨m', ?_, hcore', hworks, ⟨hmax, hmtu, hweight, ?_, ?_⟩⟩
  · unfold inputHandlerSend
    rw [ensure_true (by rw [hs]; rfl),
      ensure_true (by rw [Bool.not_eq_true', Bool.eq_false_iff]; exact fun hn => hnot ((h.queued flow hfl).mp hn)),
      ensure_true (by rw [hfree]; rfl), if_pos hp]
    simp only [bind, Except.bind, pure, Except.pure]
    rw [hins]
    exact hrun
  · intro f hb
    rcases hbusy f hb with (hn | hn | hn) | rfl
    · exact Or.inl hn
    · exact Or.inr (Or.inl hn)
    · cases hn
    · exact Or.inr (Or.inr hp)
  · intro f hf
    rw [hlist] at hf
    exact Or.inl ⟨hf, htime f hf⟩

/-- `input_handler_send` of a flow that was idle: its time is raised to the current time, and it gets busy. -/
theorem inputHandlerSend_idle (h : m.Core) {flow dataLen : Nat} (hfl : flow ∈ m.flowsList) (hidle : ¬m.Busy flow)
    (hlen : dataLen ≤ m.mtu) (hfree : m.freeing = false) :
    ∃ m', m.inputHandlerSend flow dataLen = .ok m' ∧ m'.Core ∧ m'.Works ∧ m'.maxTime = m.maxTime ∧ m'.mtu = m.mtu ∧
      m'.packetWeight = m.packetWeight ∧ m'.flowsList = m.flowsList ∧ (∀ f, m'.Busy f → m.Busy f ∨ f = flow) ∧
      m'.time flow = max (m.time flow) m.getCurrentTime ∧ ∀ f ∈ m.flowsList, f ≠ flow → m'.time f = m.time f := by
  have hp : m.previousFlow ≠ some flow := fun hn => hidle (Or.inr (Or.inr hn))
  have hcore := setTime_core h hidle (Nat.max_le.mpr ⟨h.time_le flow hfl, getCurrentTime_le h⟩)
  have hsend : ∀ f, m.sendingFlow = some f → (m.setTime flow (max (m.time flow) m.getCurrentTime)).time f ≤
      (m.setTime flow (max (m.time flow) m.getCurrentTime)).time flow := by
    intro f hn
    have hne : f ≠ flow := fun heq => hidle (heq ▸ Or.inl hn)
    rw [setTime_time, setTime_time, if_pos rfl, if_neg hne]
    have hcur : m.getCurrentTime = m.time f := by
      unfold getCurrentTime
      rw [hn]
    rw [hcur]
    exact Nat.le_max_right _ _
  obtain ⟨tree, m', hins, hrun, hcore', hworks, hmax, hmtu, hweight, hlist, hbusy, htime⟩ :=
    enqueue_spec hcore hfl hidle hlen hfree hsend
  refine ⟨m', ?_, hcore', hworks, hmax, hmtu, hweight, hlist, hbusy, ?_, ?_⟩
  · unfold inputHandlerSend
    have hs : m.sendingFlow ≠ some flow := fun hn => hidle (Or.inl hn)
    rw [ensure_true (decide_eq_true hs),
      ensure_true (by
        rw [Bool.not_eq_true', Bool.eq_false_iff]
        exact fun hn => hidle (Or.inr (Or.inl ((h.queued flow hfl).mp hn)))),
      ensure_true (by rw [hfree]; rfl), if_neg hp]
    simp only [bind, Except.bind, pure, Except.pure]
    rw [hins]
    exact hrun
  · rw [htime flow hfl, setTime_time, if_pos rfl]
  · intro f hf hne
    rw [htime f hf, setTime_time, if_neg hne]

/-! ## A packet is done -/

/-- The loop takes the given time from every flow, or all there is; the finished flow wraps around. -/
theorem subtractTime_spec {flow subtract : Nat} {flows : List Nat} (hnodup : flows.Nodup)
    (hq : ∀ g ∈ flows, (m.mem g).isQueued = true → subtract ≤ m.time g) (hle : subtract ≤ fairqueueMaxTime)
    (htime : ∀ g ∈ flows, m.time g ≤ fairqueueMaxTime) :
    ∃ mem, subtractTime flow subtract flows m = .ok { m with mem := mem } ∧
      (∀ g, (mem g).isQueued = (m.mem g).isQueued ∧ (mem g).data = (m.mem g).data ∧ (mem g).dataLen = (m.mem g).dataLen) ∧
      (∀ g ∉ flows, (mem g).time = m.time g) ∧
      (∀ g ∈ flows, g ≠ flow → (mem g).time = m.time g - subtract) ∧
      (flow ∈ flows → (mem flow).time = (m.time flow + 2 ^ 64 - subtract) % 2 ^ 64) := by
  induction flows generalizing m with
  | nil => exact ⟨m.mem, rfl, fun _ => ⟨rfl, rfl, rfl⟩, fun _ _ => rfl, nofun, nofun⟩
  | cons f flows ih =>
    obtain ⟨hf, hnodup'⟩ := List.nodup_cons.mp hnodup
    -- One flow of the loop, whatever its new time is: the others are still to come, and it does not come again.
    have hrest : ∀ t, ∃ mem, subtractTime flow subtract flows (m.setTime f t) = .ok { m with mem := mem } ∧
        (∀ g, (mem g).isQueued = (m.mem g).isQueued ∧ (mem g).data = (m.mem g).data ∧ (mem g).dataLen = (m.mem g).dataLen) ∧
        (∀ g ∉ flows, (mem g).time = if g = f then t else m.time g) ∧
        (∀ g ∈ flows, g ≠ flow → (mem g).time = m.time g - subtract) ∧
        (flow ∈ flows → (mem flow).time = (m.time flow + 2 ^ 64 - subtract) % 2 ^ 64) := by
      intro t
      have hne : ∀ g ∈ flows, g ≠ f := fun g hg hn => hf (hn ▸ hg)
      have hsame : ∀ g ∈ flows, (m.setTime f t).time g = m.time g := fun g hg => by rw [setTime_time, if_neg (hne g hg)]
      obtain ⟨mem, hrun, hflags, hout, hin, hself⟩ := @ih (m.setTime f t) hnodup'
        (by
          intro g hg hn
          rw [setTime_isQueued] at hn
          rw [hsame g hg]
          exact hq g (List.mem_cons_of_mem _ hg) hn)
        (by
          intro g hg
          rw [hsame g hg]
          exact htime g (List.mem_cons_of_mem _ hg))
      refine ⟨mem, hrun, ?_, ?_, ?_, ?_⟩
      · intro g
        have := hflags g
        rwa [setTime_isQueued, setTime_data, setTime_dataLen] at this
      · intro g hg
        rw [hout g hg, setTime_time]
      · intro g hg hn
        rw [hin g hg hn, hsame g hg]
      · intro hg
        rw [hself hg, hsame flow hg]
    unfold subtractTime
    by_cases hless : m.time f < subtract ∧ f ≠ flow
    · rw [if_pos hless, ensure_true (by
        rw [Bool.not_eq_true', Bool.eq_false_iff]
        intro hn
        have := hq f List.mem_cons_self hn
        omega)]
      obtain ⟨mem, hrun, hflags, hout, hin, hself⟩ := hrest 0
      refine ⟨mem, hrun, hflags, ?_, ?_, ?_⟩
      · intro g hg
        obtain ⟨hn, hg⟩ := not_or.mp (mt List.mem_cons.mpr hg)
        rw [hout g hg, if_neg hn]
      · intro g hg hn
        rcases List.mem_cons.mp hg with rfl | hg
        · rw [hout g hf, if_pos rfl]
          omega
        · exact hin g hg hn
      · intro hg
        exact hself ((List.mem_cons.mp hg).resolve_left (Ne.symm hless.2))
    · rw [if_neg hless]
      obtain ⟨mem, hrun, hflags, hout, hin, hself⟩ := hrest ((m.time f + 2 ^ 64 - subtract) % 2 ^ 64)
      have hftime := htime f List.mem_cons_self
      have hmax : fairqueueMaxTime = 2 ^ 64 - 1 := rfl
      refine ⟨mem, hrun, hflags, ?_, ?_, ?_⟩
      · intro g hg
        obtain ⟨hn, hg⟩ := not_or.mp (mt List.mem_cons.mpr hg)
        rw [hout g hg, if_neg hn]
      · intro g hg hn
        rcases List.mem_cons.mp hg with rfl | hg
        · rw [hout g hf, if_pos rfl]
          have : subtract ≤ m.time g := Nat.not_lt.mp fun hlt => hless ⟨hlt, hn⟩
          omega
        · exact hin g hg hn
      · intro hg
        rcases List.mem_cons.mp hg with rfl | hg
        · rw [hout flow hf, if_pos rfl]
        · exact hself hg

/-- The end of `increment_sent_flow`, after times have gone back by at least that of the flow and at most those of the queued flows. -/
theorem addSent_spec {flow amount back : Nat} (hnodup : m.flowsList.Nodup) (hfl : flow ∈ m.flowsList)
    (hq : ∀ g ∈ m.flowsList, (m.mem g).isQueued = true → back ≤ m.time g) (htime : ∀ g ∈ m.flowsList, m.time g ≤ fairqueueMaxTime)
    (hback : back ≤ fairqueueMaxTime) (hge : m.time flow ≤ back) (hamount : amount ≤ fairqueueMaxTime)
    (hmore : back ≤ m.time flow + amount) :
    ∃ mem, (do
        let m ← subtractTime flow back m.flowsList m
        return m.setTime flow ((m.time flow + amount) % 2 ^ 64)) = .ok { m with mem := mem } ∧
      (∀ g, (mem g).isQueued = (m.mem g).isQueued ∧ (mem g).data = (m.mem g).data ∧ (mem g).dataLen = (m.mem g).dataLen) ∧
      (mem flow).time + back = m.time flow + amount ∧
      ∀ g ∈ m.flowsList, g ≠ flow → (mem g).time = m.time g - back := by
  have hmax : fairqueueMaxTime = 2 ^ 64 - 1 := rfl
  have hftime := htime flow hfl
  obtain ⟨mem, hrun, hflags, -, hin, hself⟩ := @subtractTime_spec m flow back m.flowsList hnodup hq hback htime
  have hself := hself hfl
  have hnew : ({ m with mem := mem }.setTime flow (((mem flow).time + amount) % 2 ^ 64)).time flow =
      m.time flow + amount - back := by
    rw [setTime_time, if_pos rfl, hself]
    omega
  rw [hrun]
  refine ⟨({ m with mem := mem }.setTime flow (((mem flow).time + amount) % 2 ^ 64)).mem, rfl, ?_, ?_, ?_⟩
  · intro g
    rw [setTime_isQueued, setTime_data, setTime_dataLen]
    exact hflags g
  · change time _ flow + back = _
    rw [hnew]
    omega
  · intro g hg hn
    change time _ g = _
    rw [setTime_time, if_neg hn]
    exact hin g hg hn

/-- The time that `increment_sent_flow` takes from all flows: nothing, or where the time of the flow would overflow that of the first
queued flow, or without one that of the flow itself. -/
def subtracted (m : FairQueue) (flow amount : Nat) : Nat :=
  if m.maxTime - m.time flow < amount then (m.queuedTree.head?.elim (m.time flow) m.time) else 0

/-- `increment_sent_flow` of a flow that was first: its time grows by the amount, less what is subtracted. -/
theorem incrementSentFlow_spec {flow amount : Nat} (hnodup : m.flowsList.Nodup) (hfl : flow ∈ m.flowsList) (hs : m.sendingFlow = none)
    (hsub : ∀ g ∈ m.queuedTree, g ∈ m.flowsList) (hqueued : ∀ g ∈ m.flowsList, ((m.mem g).isQueued = true ↔ g ∈ m.queuedTree))
    (hnot : flow ∉ m.queuedTree) (hsorted : m.queuedTree.Pairwise m.Before)
    (hleast : ∀ g ∈ m.queuedTree, m.time flow ≤ m.time g) (htime : ∀ g ∈ m.flowsList, m.time g ≤ m.maxTime)
    (hmaxle : m.maxTime ≤ fairqueueMaxTime) (hamount : amount ≤ m.maxTime) :
    ∃ mem, m.incrementSentFlow flow amount = .ok { m with mem := mem } ∧
      (∀ g, (mem g).isQueued = (m.mem g).isQueued ∧ (mem g).data = (m.mem g).data ∧ (mem g).dataLen = (m.mem g).dataLen) ∧
      (mem flow).time + m.subtracted flow amount = m.time flow + amount ∧ (mem flow).time ≤ m.maxTime ∧
      (∀ g ∈ m.flowsList, g ≠ flow → (mem g).time = m.time g - m.subtracted flow amount) ∧
      ∀ g ∈ m.queuedTree, m.subtracted flow amount ≤ m.time g := by
  have hmax : fairqueueMaxTime = 2 ^ 64 - 1 := rfl
  have hftime := htime flow hfl
  have htime' : ∀ g ∈ m.flowsList, m.time g ≤ fairqueueMaxTime := fun g hg => (htime g hg).trans hmaxle
  have hflag : (m.mem flow).isQueued = false := Bool.eq_false_iff.mpr fun hn => hnot ((hqueued flow hfl).mp hn)
  unfold incrementSentFlow subtracted
  rw [ensure_true (decide_eq_true hamount), ensure_true (by rw [hflag]; rfl), ensure_true (by rw [hs]; rfl)]
  by_cases hover : m.maxTime - m.time flow < amount
  · simp only [if_pos hover]
    cases hhead : m.queuedTree.head? with
    | none =>
      have hq : ∀ g ∈ m.flowsList, (m.mem g).isQueued = true → m.time flow ≤ m.time g :=
        fun g hg hn => hleast g ((hqueued g hg).mp hn)
      obtain ⟨mem, hrun, hflags, hself, hothers⟩ :=
        addSent_spec hnodup hfl hq htime' (hftime.trans hmaxle) (Nat.le_refl _) (hamount.trans hmaxle) (Nat.le_add_right _ _)
      exact ⟨mem, hrun, hflags, hself, by omega, hothers, hleast⟩
    | some first =>
      have hmem : first ∈ m.queuedTree := List.mem_of_mem_head? hhead
      have hfirst := head_time_le hsorted hhead
      have hfirstle := htime first (hsub first hmem)
      have hge := hleast first hmem
      obtain ⟨mem, hrun, hflags, hself, hothers⟩ := addSent_spec hnodup hfl (fun g hg hn => hfirst g ((hqueued g hg).mp hn)) htime'
        (hfirstle.trans hmaxle) hge (hamount.trans hmaxle) (by omega)
      dsimp only
      rw [ensure_true ((hqueued first (hsub first hmem)).mpr hmem)]
      exact ⟨mem, hrun, hflags, hself, by omega, hothers, hfirst⟩
  · simp only [if_neg hover]
    have hnew : (m.setTime flow ((m.time flow + amount) % 2 ^ 64)).time flow = m.time flow + amount := by
      rw [setTime_time, if_pos rfl]
      omega
    refine ⟨(m.setTime flow ((m.time flow + amount) % 2 ^ 64)).mem, rfl, ?_, hnew, ?_, ?_, fun _ _ => Nat.zero_le _⟩
    · exact fun g => ⟨setTime_isQueued m flow _ g, setTime_data m flow _ g, setTime_dataLen m flow _ g⟩
    · exact hnew.le.trans (by omega)
    · intro g _ hn
      exact (setTime_time m flow _ g).trans (if_neg hn)

/-- The queue after `output_handler_done` of a flow, with the times it leaves. -/
def finished (m : FairQueue) (flow : Nat) (mem : Nat → FairQueueFlow) : FairQueue :=
  { m with sendingFlow := none, previousFlow := some flow, mem := mem, scheduleJob := true, calls := m.calls ++ [.done flow] }

/-- `output_handler_done`: the flow that was sending has just sent, and its time has grown by its packet, up to a common step back. -/
theorem outputHandlerDone_spec (h : m.Core) {flow : Nat} (hs : m.sendingFlow = some flow) (hfree : m.freeing = false) :
    ∃ mem, m.outputHandlerDone = .ok (m.finished flow mem) ∧ (m.finished flow mem).Core ∧ (m.finished flow mem).Works ∧
      (∀ f, (m.finished flow mem).Busy f → m.Busy f) ∧ (∀ g, (mem g).data = (m.mem g).data) ∧
      (mem flow).time + m.subtracted flow (m.packetWeight + m.sendingLen) = m.time flow + (m.packetWeight + m.sendingLen) ∧
      (∀ g ∈ m.flowsList, g ≠ flow → (mem g).time = m.time g - m.subtracted flow (m.packetWeight + m.sendingLen)) ∧
      ∀ g ∈ m.queuedTree, m.subtracted flow (m.packetWeight + m.sendingLen) ≤ m.time g := by
  obtain ⟨hnot, hp, hj, hlen, hleast⟩ := h.sending flow hs
  have hfl := h.listed flow (Or.inl hs)
  have hsub : ∀ g ∈ m.queuedTree, g ∈ m.flowsList := fun g hg => h.listed g (Or.inr (Or.inl hg))
  have hfits := h.fits
  obtain ⟨mem, hrun, hflags, hself, hselfle, hothers, hback⟩ :=
    @incrementSentFlow_spec { m with sendingFlow := none, previousFlow := some flow } flow (m.packetWeight + m.sendingLen)
      h.nodup hfl rfl hsub h.queued hnot h.sorted hleast h.time_le h.max_le (by dsimp only; omega)
  have hne : ∀ g ∈ m.queuedTree, g ≠ flow := fun g hg hn => hnot (hn ▸ hg)
  have hshift : ∀ g ∈ m.queuedTree, (m.finished flow mem).time g + m.subtracted flow (m.packetWeight + m.sendingLen) = m.time g := by
    intro g hg
    have hg' := hback g hg
    have ht := hothers g (hsub g hg) (hne g hg)
    exact (congrArg (· + _) ht).trans (Nat.sub_add_cancel hg')
  refine ⟨mem, ?_, ?_, nofun, ?_, fun g => (hflags g).2.1, hself, hothers, hback⟩
  · unfold outputHandlerDone
    rw [hs]
    dsimp only
    rw [ensure_true (by rw [hp]; rfl), ensure_true (by rw [hj]; rfl), ensure_true (by rw [hfree]; rfl),
      ensure_true (by
        rw [Bool.not_eq_true', Bool.eq_false_iff]
        exact fun hn => hnot ((h.queued flow hfl).mp hn))]
    simp only [bind, Except.bind, pure, Except.pure]
    rw [hrun]
    rfl
  · refine ⟨h.nodup, h.tree_nodup, ?_, ?_, ?_, nofun, ?_, ?_, ?_, h.fits, h.max_le⟩
    · rintro f (hn | hn | hn)
      · cases hn
      · exact hsub f hn
      · exact Option.some.inj hn ▸ hfl
    · intro f hf
      change (mem f).isQueued = true ↔ _
      rw [(hflags f).1]
      exact h.queued f hf
    · refine h.sorted.imp_of_mem ?_
      exact fun hf hg hb => hb.shift (hshift _ hf) (hshift _ hg)
    · intro f hn
      obtain rfl := Option.some.inj hn
      exact ⟨hnot, rfl, rfl⟩
    · intro f hf
      change (mem f).time ≤ m.maxTime
      by_cases hn : f = flow
      · rw [hn]
        exact hselfle
      · rw [hothers f hf hn]
        exact (Nat.sub_le _ _).trans (h.time_le f hf)
    · intro f hf
      change (mem f).dataLen ≤ m.mtu
      rw [(hflags f).2.2]
      exact h.len_le f hf
  · rintro f (hn | hn | hn)
    · cases hn
    · exact Or.inr (Or.inl hn)
    · exact Or.inl (by rw [← Option.some.inj hn]; exact hs)

end FairQueue

end PsiphonAndroid
