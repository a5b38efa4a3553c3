import PsiphonAndroid.Flow.FairQueueRecord
import PsiphonAndroid.Theorems.FairSharing

/-!
# Scheduling of the fair queue

What a queue does over a whole run, for every `FAIRQUEUE_MAX_TIME`: which packets it hands over and to whom it reports them, which flow
it chooses, and what becomes of the times where one would overflow.
-/

namespace PsiphonAndroid

open Lib

namespace FairSchedulingAux

open FairQueue FairSharingAux

variable {m m' : FairQueue}

/-- Every event keeps the record. -/
theorem step_recorded (h : m.Core) (hrec : m.Recorded) {e : FairQueueEvent} (hstep : m.step e = some (.ok m')) : m'.Recorded := by
  cases e with
  | flowInit flow =>
    obtain ⟨⟨hnew, -⟩, hrun⟩ := Option.ite_none_right_eq_some.mp hstep
    exact hrec.flowInit (fun hn => hnew (h.listed flow (Or.inr (Or.inl hn)))) (Option.some.inj hrun)
  | flowFree flow =>
    obtain ⟨⟨hold, -⟩, hrun⟩ := Option.ite_none_right_eq_some.mp hstep
    exact hrec.flowFree h hold (Option.some.inj hrun)
  | send flow dataLen =>
    obtain ⟨⟨hfl, -, hnq, -, -⟩, hrun⟩ := Option.ite_none_right_eq_some.mp hstep
    refine hrec.inputHandlerSend ?_ (Option.some.inj hrun)
    exact fun hn => absurd (((h.queued flow hfl).mpr hn).symm.trans hnq) nofun
  | done =>
    obtain ⟨⟨hsome, hfree⟩, hrun⟩ := Option.ite_none_right_eq_some.mp hstep
    obtain ⟨flow, hs⟩ := Option.isSome_iff_exists.mp hsome
    obtain ⟨mem, hdone, -, -, -, hdata, -⟩ := outputHandlerDone_spec h hs hfree
    obtain rfl := Except.ok.inj (hdone.symm.trans (Option.some.inj hrun))
    exact hrec.finished hs hdata
  | runScheduleJob =>
    obtain ⟨-, hrun⟩ := Option.ite_none_right_eq_some.mp hstep
    exact hrec.scheduleJobHandler (Option.some.inj hrun)
  | prepareFree =>
    obtain rfl := Except.ok.inj (Option.some.inj hstep)
    exact hrec.congr rfl (fun _ _ => rfl) rfl nofun rfl rfl rfl

/-- Every run keeps the invariant and the record, and does not fault. -/
theorem run_recorded {maxTime mtu packetWeight : Nat} (hmax : maxTime ≤ fairqueueMaxTime) {es : List FairQueueEvent}
    {s : Except FairQueueFault FairQueue} (h : (fairQueueSystemUpTo maxTime mtu packetWeight).Run es s) :
    ∃ m, s = .ok m ∧ m.Core ∧ m.Works ∧ m.Recorded ∧ m.maxTime = maxTime := by
  refine h.invariant (fun _ s => ∃ m, s = .ok m ∧ m.Core ∧ m.Works ∧ m.Recorded ∧ m.maxTime = maxTime) ?_ ?_
  · rintro s ⟨mem, m, hinit, rfl⟩
    obtain ⟨hcore, hworks, -⟩ := init_spec hmax hinit
    unfold FairQueue.init at hinit
    obtain ⟨-, hm⟩ := Option.ite_none_right_eq_some.mp hinit
    obtain rfl := Option.some.inj hm
    exact ⟨_, rfl, hcore, hworks, ⟨nofun, List.Perm.refl _, none, .nil, nofun, fun _ _ => rfl⟩, rfl⟩
  · rintro es s e s' ⟨m, rfl, hcore, hworks, hrec, hmaxTime⟩ hstep
    obtain ⟨m', back, rfl, hacc⟩ := step_accounts hcore hworks hstep
    exact ⟨m', rfl, hacc.core, hacc.works, step_recorded hcore hrec hstep, hacc.maxTime.trans hmaxTime⟩

/-- A new flow does not send. -/
theorem flowInit_sending {flow : Nat} (h : m.flowInit flow = .ok m') (hs : m.sendingFlow = none) : m'.sendingFlow = none := by
  unfold flowInit at h
  simp only [bind, Except.bind, pure, Except.pure] at h
  split at h
  · cases h
  · obtain rfl := Except.ok.inj h
    exact hs

/-- No flow sends because another is freed. -/
theorem flowFree_sending {flow : Nat} (h : m.flowFree flow = .ok m') (hs : m.sendingFlow = none) : m'.sendingFlow = none := by
  unfold flowFree at h
  simp only [bind, Except.bind, pure, Except.pure] at h
  split at h
  · cases h
  · obtain rfl := Except.ok.inj h
    exact ite_eq_left_iff.mpr fun _ => hs

/-- A flow that begins to send was queued, or its packet has just come. -/
theorem chosen_queued {e : FairQueueEvent} (hstep : m.step e = some (.ok m')) (hs : m.sendingFlow = none) {q : Nat}
    (hq : m'.sendingFlow = some q) : q ∈ m.queuedTree ∨ ∃ dataLen, e = .send q dataLen := by
  cases e with
  | flowInit flow =>
    obtain ⟨-, hrun⟩ := Option.ite_none_right_eq_some.mp hstep
    exact absurd ((flowInit_sending (Option.some.inj hrun) hs).symm.trans hq) nofun
  | flowFree flow =>
    obtain ⟨-, hrun⟩ := Option.ite_none_right_eq_some.mp hstep
    exact absurd ((flowFree_sending (Option.some.inj hrun) hs).symm.trans hq) nofun
  | send flow dataLen =>
    obtain ⟨-, hrun⟩ := Option.ite_none_right_eq_some.mp hstep
    obtain ⟨x, tree, hx, hperm, hres⟩ := inputHandlerSend_inv (Option.some.inj hrun)
    rcases hres with hres | rfl
    · obtain ⟨-, -, qflow, rest, htree, rfl⟩ := schedule_inv hres
      obtain rfl := Option.some.inj hq
      have hmem : qflow ∈ flow :: m.queuedTree := hperm.mem_iff.mp (by
        change qflow ∈ (x.enqueued flow dataLen tree).queuedTree
        rw [htree]
        exact List.mem_cons_self)
      rcases List.mem_cons.mp hmem with rfl | hmem
      · exact Or.inr ⟨dataLen, rfl⟩
      · exact Or.inl hmem
    · have hx : x.sendingFlow = none := by
        rcases hx with rfl | rfl
        · exact hs
        · exact hs
      exact absurd (hx.symm.trans hq) nofun
  | done =>
    obtain ⟨⟨hsome, -⟩, -⟩ := Option.ite_none_right_eq_some.mp hstep
    rw [hs] at hsome
    cases hsome
  | runScheduleJob =>
    obtain ⟨-, hrun⟩ := Option.ite_none_right_eq_some.mp hstep
    rcases scheduleJobHandler_inv (Option.some.inj hrun) with hrun | rfl
    · obtain ⟨-, -, qflow, rest, htree, rfl⟩ := schedule_inv hrun
      obtain rfl := Option.some.inj hq
      exact Or.inl (htree ▸ List.mem_cons_self)
    · exact absurd (hs.symm.trans hq) nofun
  | prepareFree =>
    obtain rfl := Except.ok.inj (Option.some.inj hstep)
    exact absurd (hs.symm.trans hq) nofun

/-- A packet is handed over at most once, and once where nothing is queued and it was not lost. -/
theorem Recorded.handed_count (h : m.Recorded) :
    (∀ d, m.handed.count d ≤ 1) ∧ ∀ d < m.accepted.length, d ∉ m.lost → m.queuedTree = [] → m.handed.count d = 1 := by
  have hnodup : (m.handed ++ m.lost ++ m.queuedPackets).Nodup := h.once.nodup_iff.mpr List.nodup_range
  have hhanded : m.handed.Nodup := (List.nodup_append.mp (List.nodup_append.mp hnodup).1).1
  refine ⟨List.nodup_iff_count_le_one.mp hhanded, ?_⟩
  intro d hd hlost htree
  refine List.count_eq_one_of_mem hhanded ?_
  have hpackets : m.queuedPackets = [] := by rw [queuedPackets, htree, List.map_nil]
  have hmem : d ∈ m.handed ++ m.lost ++ m.queuedPackets := h.once.mem_iff.mpr (List.mem_range.mpr hd)
  rw [hpackets, List.append_nil] at hmem
  exact (List.mem_append.mp hmem).resolve_right hlost

/-- What is done to the times when a packet is done. -/
theorem done_times (h : m.Core) {flow : Nat} (hs : m.sendingFlow = some flow) (hstep : m.step .done = some (.ok m')) :
    m'.time flow + m.subtracted flow (m.packetWeight + m.sendingLen) = m.time flow + (m.packetWeight + m.sendingLen) ∧
      m'.queuedTree = m.queuedTree ∧
      (∀ g ∈ m.queuedTree, m'.time g + m.subtracted flow (m.packetWeight + m.sendingLen) = m.time g) ∧
      ∀ g ∈ m.flowsList, g ≠ flow → m'.time g = m.time g - m.subtracted flow (m.packetWeight + m.sendingLen) := by
  obtain ⟨⟨-, hfree⟩, hrun⟩ := Option.ite_none_right_eq_some.mp hstep
  obtain ⟨mem, hdone, -, -, -, -, hself, hothers, hback⟩ := outputHandlerDone_spec h hs hfree
  obtain rfl := Except.ok.inj (hdone.symm.trans (Option.some.inj hrun))
  refine ⟨hself, rfl, ?_, hothers⟩
  intro g hg
  have hne : g ≠ flow := fun hn => (h.sending flow hs).1 (hn ▸ hg)
  have hg' := hothers g (h.listed g (Or.inr (Or.inl hg))) hne
  exact (congrArg (· + _) hg').trans (Nat.sub_add_cancel (hback g hg))

end FairSchedulingAux

open FairQueue FairSchedulingAux

/-- In every run of a queue, for every `FAIRQUEUE_MAX_TIME` up to `UINT64_MAX`:

1. no `ASSERT` fails, those of `PacketPassFairQueue_Free` included;
2. packets are at the output one at a time, and for each one that is done its own flow is told so, once;
3. a packet is handed to the output at most once, and exactly once where the queue is idle, unless it was queued in a flow that was freed;
4. a flow that begins to send was queued, or its packet has just come, and the time of the flow that is sending is least among the queued;
5. a queue with a queued flow is sending or its schedule job is set, unless it is being freed;
6. no time exceeds `FAIRQUEUE_MAX_TIME`, and the tree is in the order of `compare_flows`;
7. when a packet is done, the time of its flow is its time and the amount, less what was subtracted, every queued flow has lost just what
   was subtracted, and the tree is as it was; what is subtracted is nothing unless the time would exceed `FAIRQUEUE_MAX_TIME`. -/
theorem fair_queue_schedules {maxTime mtu packetWeight : Nat} (hmax : maxTime ≤ fairqueueMaxTime) {es : List FairQueueEvent}
    {s : Except FairQueueFault FairQueue} (h : (fairQueueSystemUpTo maxTime mtu packetWeight).Run es s) :
    ∃ m, s = .ok m ∧ (m.flowsList = [] → m.queuedTree = [] ∧ m.previousFlow = none ∧ m.sendingFlow = none) ∧
      (∃ o, Served m.accepted m.calls o ∧ (∀ f, m.sendingFlow = some f → ∃ data, o = some data ∧ m.accepted[data]? = some f) ∧
        (m.freeing = false → m.sendingFlow = none → o = none)) ∧
      ((∀ d, m.handed.count d ≤ 1) ∧ ∀ d < m.accepted.length, d ∉ m.lost → m.queuedTree = [] → m.handed.count d = 1) ∧
      ((∀ e m' q, m.step e = some (.ok m') → m.sendingFlow = none → m'.sendingFlow = some q →
          q ∈ m.queuedTree ∨ ∃ dataLen, e = .send q dataLen) ∧
        ∀ f, m.sendingFlow = some f → ∀ g ∈ m.queuedTree, m.time f ≤ m.time g) ∧
      (m.freeing = false → m.queuedTree ≠ [] → m.sendingFlow.isSome = true ∨ m.scheduleJob = true) ∧
      ((∀ f ∈ m.flowsList, m.time f ≤ maxTime) ∧ m.queuedTree.Pairwise fun f g => m.compareFlows f g < 0) ∧
      ∀ m' flow, m.sendingFlow = some flow → m.step .done = some (.ok m') →
        ∃ amount subtract, amount = m.packetWeight + m.sendingLen ∧ subtract = m.subtracted flow amount ∧
          (m.time flow + amount ≤ maxTime → subtract = 0) ∧ m'.time flow + subtract = m.time flow + amount ∧ m'.queuedTree = m.queuedTree ∧
          (∀ g ∈ m.queuedTree, m'.time g + subtract = m.time g) ∧
          ∀ g ∈ m.flowsList, g ≠ flow → m'.time g = m.time g - subtract := by
  obtain ⟨m, rfl, hcore, hworks, hrec, hmaxTime⟩ := run_recorded hmax h
  have hempty : m.flowsList = [] → ∀ f, ¬m.Busy f := by
    intro hnil f hb
    have := hcore.listed f hb
    rw [hnil] at this
    cases this
  refine ⟨m, rfl, ?_, hrec.served, Recorded.handed_count hrec, ⟨?_, ?_⟩, ?_, ⟨?_, ?_⟩, ?_⟩
  · intro hnil
    refine ⟨List.eq_nil_iff_forall_not_mem.mpr fun f hf => hempty hnil f (Or.inr (Or.inl hf)), ?_, ?_⟩
    · exact Option.eq_none_iff_forall_ne_some.mpr fun f hf => hempty hnil f (Or.inr (Or.inr hf))
    · exact Option.eq_none_iff_forall_ne_some.mpr fun f hf => hempty hnil f (Or.inl hf)
  · exact fun e m' q hstep hs hq => chosen_queued hstep hs hq
  · exact fun f hf => (hcore.sending f hf).2.2.2.2
  · intro hfree htree
    by_contra hn
    obtain ⟨hs, hj⟩ := not_or.mp hn
    exact htree (hworks hfree (Option.not_isSome_iff_eq_none.mp hs) (Bool.eq_false_iff.mpr hj))
  · exact hmaxTime ▸ hcore.time_le
  · exact hcore.sorted.imp fun hb => (compareFlows_neg_iff _ _).mpr hb
  · intro m' flow hs hstep
    obtain ⟨hself, htree, hqueued, hothers⟩ := done_times hcore hs hstep
    refine ⟨_, _, rfl, rfl, ?_, hself, htree, hqueued, hothers⟩
    intro hle
    exact if_neg (by omega)

/-- A queue with a `FAIRQUEUE_MAX_TIME` of 11, an MTU of 10 and a weight of 1. -/
def smallFairQueue : FairQueue := ⟨11, 10, 1, fun _ => ⟨0, false, 0, 0⟩, none, 0, none, [], [], false, false, [], [], []⟩

/-- Two flows send in turn; the second packet of the first flow is at the output and that of the second flow is queued, both at the limit
of the times. -/
def twoRounds : List FairQueueEvent :=
  [.flowInit 0, .flowInit 1, .send 0 10, .send 1 10, .done, .send 0 10, .runScheduleJob, .done, .send 1 10, .runScheduleJob]

theorem twoRounds_runs : ((fairQueueSystemUpTo 11 10 1).exec (.ok smallFairQueue) twoRounds).isSome = true := by decide +kernel

/-- The packet is done: eleven is taken from both flows, the first is back at the limit and the second at zero. -/
theorem fair_queue_schedules_back : ∃ m m', (fairQueueSystemUpTo 11 10 1).Run twoRounds (.ok m) ∧ m.sendingFlow = some 0 ∧
    m.step .done = some (.ok m') ∧ m.time 0 = 11 ∧ m.time 1 = 11 ∧ m'.time 0 = 11 ∧ m'.time 1 = 0 := by
  have hinit : (fairQueueSystemUpTo 11 10 1).Run [] (.ok smallFairQueue) := .init ⟨smallFairQueue.mem, smallFairQueue, rfl, rfl⟩
  have h : (fairQueueSystemUpTo 11 10 1).Run twoRounds (Option.get _ twoRounds_runs) := hinit.exec (Option.some_get _).symm
  obtain ⟨m, hm, -, -, -, -, -, -, hdone⟩ := fair_queue_schedules (by decide) h
  have hstate : ((Option.get _ twoRounds_runs).toOption.map fun m =>
      decide (m.sendingFlow = some 0 ∧ m.time 0 = 11 ∧ m.time 1 = 11 ∧ m.queuedTree = [1] ∧ m.packetWeight = 1 ∧ m.sendingLen = 10 ∧
        m.subtracted 0 11 = 11)) = some true := by decide +kernel
  have hnext : ((Option.get _ twoRounds_runs).toOption.bind fun m => (m.step .done).bind Except.toOption).isSome = true := by
    decide +kernel
  rw [hm] at h hstate hnext
  obtain ⟨hs, h0, h1, htree, hw, hlen, hsub⟩ : m.sendingFlow = some 0 ∧ m.time 0 = 11 ∧ m.time 1 = 11 ∧ m.queuedTree = [1] ∧
      m.packetWeight = 1 ∧ m.sendingLen = 10 ∧ m.subtracted 0 11 = 11 := of_decide_eq_true (Option.some.inj hstate)
  obtain ⟨m', hm'⟩ := Option.isSome_iff_exists.mp hnext
  obtain ⟨s', hstep, hm'⟩ := Option.bind_eq_some_iff.mp (show (m.step .done).bind Except.toOption = some m' from hm')
  cases s' with
  | error => cases hm'
  | ok m'' =>
    obtain ⟨amount, subtract, rfl, rfl, -, hself, -, hqueued, -⟩ := hdone m'' 0 hs hstep
    have hfirst := hqueued 1 (htree ▸ List.mem_singleton_self 1)
    rw [hw, hlen, hsub] at hself hfirst
    exact ⟨m, m'', h, hs, hstep, h0, h1, by omega, by omega⟩

end PsiphonAndroid
