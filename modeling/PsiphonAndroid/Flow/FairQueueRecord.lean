import PsiphonAndroid.Flow.FairQueueInv

/-!
# The record of the fair queue

What the queue has done with the packets it accepted. Each of them is in one place: it was handed to the output, it was lost with its
flow, or it is queued. The calls of the output and of the flows come in turn: a packet is handed over when there is none at the output,
and its flow is told that it is done.
-/

namespace PsiphonAndroid

namespace FairQueue

variable {m m' : FairQueue}

/-- The packets that were handed to the output, in order. -/
def handed (m : FairQueue) : List Nat := m.calls.filterMap fun
  | .send data _ => some data
  | .done _ => none

/-- The packets that are queued. -/
def queuedPackets (m : FairQueue) : List Nat := m.queuedTree.map fun f => (m.mem f).data

/-- The calls come in turn; the packet is the one at the output that its flow has not been told of yet. -/
inductive Served (accepted : List Nat) : List FairQueueCall → Option Nat → Prop
  | nil : Served accepted [] none
  | send {calls : List FairQueueCall} {data dataLen : Nat} :
      Served accepted calls none → Served accepted (calls ++ [.send data dataLen]) (some data)
  | done {calls : List FairQueueCall} {data flow : Nat} :
      Served accepted calls (some data) → accepted[data]? = some flow → Served accepted (calls ++ [.done flow]) none

/-- What holds of the record. -/
structure Recorded (m : FairQueue) : Prop where
  flows : ∀ f ∈ m.queuedTree, m.accepted[(m.mem f).data]? = some f
  once : (m.handed ++ m.lost ++ m.queuedPackets).Perm (List.range m.accepted.length)
  served : ∃ o, Served m.accepted m.calls o ∧ (∀ f, m.sendingFlow = some f → ∃ data, o = some data ∧ m.accepted[data]? = some f) ∧
    (m.freeing = false → m.sendingFlow = none → o = none)

/-- A later packet does not change what was served. -/
theorem Served.accept {accepted : List Nat} {calls : List FairQueueCall} {o : Option Nat} (h : Served accepted calls o) (flow : Nat) :
    Served (accepted ++ [flow]) calls o := by
  induction h with
  | nil => exact .nil
  | send _ ih => exact .send ih
  | done _ hflow ih =>
    refine .done ih ?_
    rw [List.getElem?_append_left (List.getElem?_eq_some_iff.mp hflow).1]
    exact hflow

/-- The record depends on the queued packets, the flow that is sending and the record itself. -/
theorem Recorded.congr (h : m.Recorded) (htree : m'.queuedTree = m.queuedTree)
    (hdata : ∀ f ∈ m.queuedTree, (m'.mem f).data = (m.mem f).data) (hsend : m'.sendingFlow = m.sendingFlow)
    (hfree : m'.freeing = false → m.freeing = false) (hacc : m'.accepted = m.accepted) (hcalls : m'.calls = m.calls)
    (hlost : m'.lost = m.lost) : m'.Recorded := by
  have hpackets : m'.queuedPackets = m.queuedPackets := by
    unfold queuedPackets
    rw [htree]
    exact List.map_congr_left hdata
  refine ⟨?_, ?_, ?_⟩
  · rw [htree, hacc]
    intro f hf
    rw [hdata f hf]
    exact h.flows f hf
  · unfold handed
    rw [hpackets, hacc, hcalls, hlost]
    exact h.once
  · obtain ⟨o, hserved, hsending, hidle⟩ := h.served
    rw [hacc, hcalls, hsend]
    exact ⟨o, hserved, hsending, fun hf hs => hidle (hfree hf) hs⟩

/-! ## The operations -/

theorem ensure_eq_ok {b : Bool} {r : Unit} (h : ensure b = .ok r) : b = true := by
  unfold ensure at h
  split at h
  · assumption
  · cases h

/-- What `schedule` does, where it does not fault. -/
theorem schedule_inv (h : m.schedule = .ok m') :
    m.sendingFlow = none ∧ m.freeing = false ∧ ∃ qflow rest, m.queuedTree = qflow :: rest ∧ m' = m.scheduled qflow rest := by
  unfold schedule at h
  simp only [bind, Except.bind, pure, Except.pure] at h
  split at h
  · cases h
  · rename_i _ hsend
    split at h
    · cases h
    · split at h
      · cases h
      · rename_i _ hfree
        refine ⟨Option.isNone_iff_eq_none.mp (ensure_eq_ok hsend), by simpa using ensure_eq_ok hfree, ?_⟩
        split at h
        · cases h
        · rename_i qflow rest htree
          refine ⟨qflow, rest, htree, ?_⟩
          split at h
          · cases h
          · obtain rfl := Except.ok.inj h
            simp [scheduled, setQueued, htree]

/-- A flow that is inserted is the only change of the tree. -/
theorem treeInsert_perm {flow : Nat} {tree tree' : List Nat} (h : m.treeInsert flow tree = some tree') : tree'.Perm (flow :: tree) := by
  induction tree generalizing tree' with
  | nil =>
    obtain rfl := Option.some.inj h
    exact List.Perm.refl _
  | cons f tree ih =>
    unfold treeInsert at h
    split at h
    · obtain rfl := Option.some.inj h
      exact List.Perm.refl _
    · split at h
      · cases h
      · obtain ⟨tree1, hins, rfl⟩ := Option.map_eq_some_iff.mp h
        exact ((ih hins).cons f).trans (List.Perm.swap flow f tree)

/-- A flow is scheduled: its packet is handed to the output. -/
theorem Recorded.scheduled (h : m.Recorded) (hs : m.sendingFlow = none) (hfree : m.freeing = false) {qflow : Nat} {rest : List Nat}
    (htree : m.queuedTree = qflow :: rest) : (m.scheduled qflow rest).Recorded := by
  have hdata : ∀ f, ((m.scheduled qflow rest).mem f).data = (m.mem f).data := by
    intro f
    change ((m.setQueued qflow false _ _).mem f).data = _
    rw [setQueued_data]
    split
    · rename_i hf
      rw [hf]
    · rfl
  have hhanded : (m.scheduled qflow rest).handed = m.handed ++ [(m.mem qflow).data] := by
    unfold handed
    exact List.filterMap_append
  have hpackets : m.queuedPackets = (m.mem qflow).data :: (m.scheduled qflow rest).queuedPackets := by
    unfold queuedPackets
    rw [htree, List.map_cons]
    congr 1
    exact (List.map_congr_left fun f _ => hdata f).symm
  obtain ⟨o, hserved, -, hidle⟩ := h.served
  obtain rfl := hidle hfree hs
  refine ⟨?_, ?_, some (m.mem qflow).data, hserved.send, ?_, ?_⟩
  · intro f hf
    rw [hdata f]
    exact h.flows f (by rw [htree]; exact List.mem_cons_of_mem _ hf)
  · have honce := h.once
    rw [hpackets] at honce
    rw [hhanded]
    refine List.Perm.trans ?_ honce
    change (m.handed ++ [(m.mem qflow).data] ++ m.lost ++ _).Perm (m.handed ++ m.lost ++ _)
    rw [List.append_assoc, List.append_assoc, List.append_assoc]
    refine List.Perm.append_left _ ?_
    rw [List.singleton_append]
    exact List.perm_middle.symm
  · intro f hf
    obtain rfl := Option.some.inj hf
    exact ⟨_, rfl, h.flows qflow (by rw [htree]; exact List.mem_cons_self)⟩
  · exact nofun

/-- A packet is accepted. -/
theorem Recorded.enqueued (h : m.Recorded) {flow dataLen : Nat} {tree : List Nat} (hnot : flow ∉ m.queuedTree)
    (hperm : tree.Perm (flow :: m.queuedTree)) : (m.enqueued flow dataLen tree).Recorded := by
  have hdata : ∀ f, ((m.enqueued flow dataLen tree).mem f).data = if f = flow then m.accepted.length else (m.mem f).data :=
    fun f => setQueued_data _ flow _ _ _ f
  have hmem : ∀ f, f ∈ tree ↔ f = flow ∨ f ∈ m.queuedTree := fun f => hperm.mem_iff.trans List.mem_cons
  have hne : ∀ f ∈ m.queuedTree, f ≠ flow := fun f hf hn => hnot (hn ▸ hf)
  obtain ⟨o, hserved, hsending, hidle⟩ := h.served
  have hold : ∀ {d f : Nat}, m.accepted[d]? = some f → (m.accepted ++ [flow])[d]? = some f := by
    intro d f hd
    rw [List.getElem?_append_left (List.getElem?_eq_some_iff.mp hd).1]
    exact hd
  refine ⟨?_, ?_, o, hserved.accept flow, ?_, hidle⟩
  · intro f hf
    rw [hdata f]
    change (m.accepted ++ [flow])[_]? = some f
    rcases (hmem f).mp hf with rfl | hf
    · rw [if_pos rfl, List.getElem?_concat_length]
    · rw [if_neg (hne f hf)]
      exact hold (h.flows f hf)
  · have hpackets : (m.enqueued flow dataLen tree).queuedPackets.Perm (m.accepted.length :: m.queuedPackets) := by
      unfold queuedPackets
      refine (hperm.map _).trans ?_
      rw [List.map_cons, hdata flow, if_pos rfl]
      refine List.Perm.cons _ (List.Perm.of_eq ?_)
      refine List.map_congr_left fun f hf => ?_
      rw [hdata f, if_neg (hne f hf)]
    change (m.handed ++ m.lost ++ (m.enqueued flow dataLen tree).queuedPackets).Perm (List.range (m.accepted ++ [flow]).length)
    rw [List.length_append, List.length_singleton, List.range_succ]
    refine (List.Perm.append_left _ hpackets).trans ?_
    refine List.perm_middle.trans ?_
    exact (h.once.cons _).trans (List.perm_append_singleton _ _).symm
  · intro f hf
    obtain ⟨d, hd, hflow⟩ := hsending f hf
    exact ⟨d, hd, hold hflow⟩

/-- What `schedule_job_handler` does, where it does not fault. -/
theorem scheduleJobHandler_inv (h : { m with scheduleJob := false }.scheduleJobHandler = .ok m') :
    { m with scheduleJob := false, previousFlow := none }.schedule = .ok m' ∨
      m' = { m with scheduleJob := false, previousFlow := none } := by
  unfold FairQueue.scheduleJobHandler at h
  simp only [bind, Except.bind, pure, Except.pure] at h
  split at h
  · cases h
  · split at h
    · cases h
    · split at h
      · exact Or.inl h
      · exact Or.inr (Except.ok.inj h).symm

/-- What `input_handler_send` does, where it does not fault: once the time of the flow is set, the packet is queued, and a flow may be
scheduled. -/
theorem inputHandlerSend_inv {flow dataLen : Nat} (h : m.inputHandlerSend flow dataLen = .ok m') :
    ∃ x tree, (x = { m with previousFlow := none } ∨ x = m.setTime flow (max (m.time flow) m.getCurrentTime)) ∧
      tree.Perm (flow :: m.queuedTree) ∧ ((x.enqueued flow dataLen tree).schedule = .ok m' ∨ m' = x.enqueued flow dataLen tree) := by
  unfold FairQueue.inputHandlerSend at h
  simp only [bind, Except.bind, pure, Except.pure] at h
  split at h
  · cases h
  · split at h
    · cases h
    · split at h
      · cases h
      · by_cases hp : m.previousFlow = some flow
        · simp only [if_pos hp] at h
          split at h
          · cases h
          · rename_i tree hins
            refine ⟨{ m with previousFlow := none }, tree, Or.inl rfl, treeInsert_perm hins, ?_⟩
            split at h
            · exact Or.inl h
            · exact Or.inr (Except.ok.inj h).symm
        · simp only [if_neg hp] at h
          split at h
          · cases h
          · rename_i tree hins
            refine ⟨m.setTime flow (max (m.time flow) m.getCurrentTime), tree, Or.inr rfl, treeInsert_perm hins, ?_⟩
            split at h
            · exact Or.inl h
            · exact Or.inr (Except.ok.inj h).symm

/-- What `schedule` does to the record. -/
theorem Recorded.schedule (h : m.Recorded) (hrun : m.schedule = .ok m') : m'.Recorded := by
  obtain ⟨hs, hfree, qflow, rest, htree, rfl⟩ := schedule_inv hrun
  exact h.scheduled hs hfree htree

/-- What `schedule_job_handler` does to the record. -/
theorem Recorded.scheduleJobHandler (h : m.Recorded) (hrun : { m with scheduleJob := false }.scheduleJobHandler = .ok m') :
    m'.Recorded := by
  have hx : { m with scheduleJob := false, previousFlow := none }.Recorded := h.congr rfl (fun _ _ => rfl) rfl id rfl rfl rfl
  rcases scheduleJobHandler_inv hrun with hrun | rfl
  · exact hx.schedule hrun
  · exact hx

/-- What `input_handler_send` does to the record. -/
theorem Recorded.inputHandlerSend (h : m.Recorded) {flow dataLen : Nat} (hnot : flow ∉ m.queuedTree)
    (hrun : m.inputHandlerSend flow dataLen = .ok m') : m'.Recorded := by
  obtain ⟨x, tree, hx, hperm, hres⟩ := inputHandlerSend_inv hrun
  have henq : (x.enqueued flow dataLen tree).Recorded := by
    rcases hx with rfl | rfl
    · have hrec : { m with previousFlow := none }.Recorded := h.congr rfl (fun _ _ => rfl) rfl id rfl rfl rfl
      exact hrec.enqueued hnot hperm
    · have hrec : (m.setTime flow (max (m.time flow) m.getCurrentTime)).Recorded :=
        h.congr rfl (fun f _ => setTime_data m flow _ f) rfl id rfl rfl rfl
      exact hrec.enqueued hnot hperm
  rcases hres with hres | rfl
  · exact henq.schedule hres
  · exact henq

/-- A new flow has no packet. -/
theorem Recorded.flowInit (h : m.Recorded) {flow : Nat} (hnot : flow ∉ m.queuedTree) (hrun : m.flowInit flow = .ok m') : m'.Recorded := by
  unfold FairQueue.flowInit at hrun
  simp only [bind, Except.bind, pure, Except.pure] at hrun
  split at hrun
  · cases hrun
  · obtain rfl := Except.ok.inj hrun
    refine h.congr rfl ?_ rfl id rfl rfl rfl
    intro f hf
    have hne : f ≠ flow := fun hn => hnot (hn ▸ hf)
    exact congrArg FairQueueFlow.data (Function.update_of_ne hne _ _)

/-- A flow is freed: the packet that is queued in it is lost. -/
theorem Recorded.flowFree (h : m.Recorded) (hcore : m.Core) {flow : Nat} (hold : flow ∈ m.flowsList)
    (hrun : m.flowFree flow = .ok m') : m'.Recorded := by
  unfold FairQueue.flowFree at hrun
  simp only [bind, Except.bind, pure, Except.pure] at hrun
  split at hrun
  · cases hrun
  · rename_i _ hens
    have hens := ensure_eq_ok hens
    obtain rfl := Except.ok.inj hrun
    have hsend : ∀ f, (if m.sendingFlow = some flow then none else m.sendingFlow) = some f → m.sendingFlow = some f := by
      intro f hf
      split at hf
      · cases hf
      · exact hf
    have hserved : ∃ o, Served m.accepted m.calls o ∧
        (∀ f, (if m.sendingFlow = some flow then none else m.sendingFlow) = some f → ∃ data, o = some data ∧ m.accepted[data]? = some f) ∧
        (m.freeing = false → (if m.sendingFlow = some flow then none else m.sendingFlow) = none → o = none) := by
      obtain ⟨o, hserved, hsending, hidle⟩ := h.served
      refine ⟨o, hserved, fun f hf => hsending f (hsend f hf), ?_⟩
      intro hfree hs
      refine hidle hfree ?_
      split at hs
      · rename_i heq
        rw [hfree, heq] at hens
        exact absurd hens (by simp)
      · exact hs
    by_cases hq : (m.mem flow).isQueued = true
    · have hmem : flow ∈ m.queuedTree := (hcore.queued flow hold).mp hq
      refine ⟨?_, ?_, hserved⟩
      · intro f hf
        change f ∈ (if (m.mem flow).isQueued = true then m.queuedTree.erase flow else m.queuedTree) at hf
        rw [if_pos hq] at hf
        exact h.flows f (List.mem_of_mem_erase hf)
      · change (m.handed ++ (if (m.mem flow).isQueued = true then m.lost ++ [(m.mem flow).data] else m.lost) ++
          (if (m.mem flow).isQueued = true then m.queuedTree.erase flow else m.queuedTree).map fun f => (m.mem f).data).Perm
            (List.range m.accepted.length)
        rw [if_pos hq, if_pos hq]
        refine List.Perm.trans ?_ h.once
        rw [← List.append_assoc, List.append_assoc (m.handed ++ m.lost), List.singleton_append]
        refine List.Perm.append_left _ ?_
        exact ((List.perm_cons_erase hmem).map fun f => (m.mem f).data).symm
    · refine ⟨?_, ?_, hserved⟩
      · intro f hf
        change f ∈ (if (m.mem flow).isQueued = true then m.queuedTree.erase flow else m.queuedTree) at hf
        rw [if_neg hq] at hf
        exact h.flows f hf
      · change (m.handed ++ (if (m.mem flow).isQueued = true then m.lost ++ [(m.mem flow).data] else m.lost) ++
          (if (m.mem flow).isQueued = true then m.queuedTree.erase flow else m.queuedTree).map fun f => (m.mem f).data).Perm
            (List.range m.accepted.length)
        rw [if_neg hq, if_neg hq]
        exact h.once

/-- A packet is done: its flow is told. -/
theorem Recorded.finished (h : m.Recorded) {flow : Nat} (hs : m.sendingFlow = some flow) {mem : Nat → FairQueueFlow}
    (hdata : ∀ f, (mem f).data = (m.mem f).data) : (m.finished flow mem).Recorded := by
  obtain ⟨o, hserved, hsending, -⟩ := h.served
  obtain ⟨data, rfl, hflow⟩ := hsending flow hs
  have hhanded : (m.finished flow mem).handed = m.handed := by
    unfold handed
    exact List.filterMap_append.trans (List.append_nil _)
  have hpackets : (m.finished flow mem).queuedPackets = m.queuedPackets := List.map_congr_left fun f _ => hdata f
  refine ⟨?_, ?_, none, hserved.done hflow, nofun, fun _ _ => rfl⟩
  · intro f hf
    change m.accepted[(mem f).data]? = some f
    rw [hdata f]
    exact h.flows f hf
  · rw [hhanded, hpackets]
    exact h.once

end FairQueue

end PsiphonAndroid
