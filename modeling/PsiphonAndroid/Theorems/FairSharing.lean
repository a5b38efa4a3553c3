import PsiphonAndroid.Flow.FairQueueInv

/-!
# Fair sharing

Two flows that keep the queue busy get the same service up to two packets, as long as their times are close when they begin. Times of
busy flows stay close by the rule of the queue; the one way they get apart is a packet that arrives at an idle queue, where there is no
current time to raise its flow to.
-/

namespace PsiphonAndroid

open Lib

namespace FairQueue

/-- The service a flow gets by an event: its packet and the weight of it, where the event completes one. -/
def service (m : FairQueue) (flow : Nat) : FairQueueEvent → Nat
  | .done => if m.sendingFlow = some flow then m.packetWeight + m.sendingLen else 0
  | _ => 0

/-- A packet that arrives at an idle queue is of a flow that no other flow is ahead of by more than a packet. -/
def FairArrival (m : FairQueue) : FairQueueEvent → Prop
  | .send flow _ => m.Idle → ∀ g ∈ m.flowsList, m.time g ≤ m.time flow + (m.mtu + m.packetWeight)
  | _ => True

/-- No flow is ahead of a busy flow by more than a packet. -/
def Level (m : FairQueue) : Prop := ∀ b, m.Busy b → ∀ g ∈ m.flowsList, m.time g ≤ m.time b + (m.mtu + m.packetWeight)

instance (m : FairQueue) (flow : Nat) : Decidable (m.Busy flow) :=
  inferInstanceAs (Decidable (m.sendingFlow = some flow ∨ flow ∈ m.queuedTree ∨ m.previousFlow = some flow))

instance (m : FairQueue) : Decidable m.Idle :=
  inferInstanceAs (Decidable (m.sendingFlow = none ∧ m.queuedTree = [] ∧ m.previousFlow = none))

instance (m : FairQueue) : (e : FairQueueEvent) → Decidable (m.FairArrival e)
  | .send flow _ => inferInstanceAs (Decidable (m.Idle → ∀ g ∈ m.flowsList, m.time g ≤ m.time flow + (m.mtu + m.packetWeight)))
  | .flowInit _ | .flowFree _ | .done | .runScheduleJob | .prepareFree => inferInstanceAs (Decidable True)

end FairQueue

/-- `FairQueue.FairArrival` on the states of a run. -/
def FairArrival : Except FairQueueFault FairQueue → FairQueueEvent → Prop
  | .ok m, e => m.FairArrival e
  | .error _, _ => True

instance : (s : Except FairQueueFault FairQueue) → (e : FairQueueEvent) → Decidable (FairArrival s e)
  | .ok m, e => inferInstanceAs (Decidable (m.FairArrival e))
  | .error _, _ => inferInstanceAs (Decidable True)

/-- The service a flow gets over an interval. -/
def served (flow : Nat) : Except FairQueueFault FairQueue → List FairQueueEvent → Nat
  | .error _, _ => 0
  | .ok _, [] => 0
  | .ok m, e :: es =>
    m.service flow e +
      match m.step e with
      | some s => served flow s es
      | none => 0

/-- The events happen one after another, and the flow is sending, queued or has just sent in every state from the first to the last. -/
def BusyThroughout (flow : Nat) : Except FairQueueFault FairQueue → List FairQueueEvent → Prop
  | .error _, _ => False
  | .ok m, [] => m.Busy flow
  | .ok m, e :: es =>
    m.Busy flow ∧
      match m.step e with
      | some s => BusyThroughout flow s es
      | none => False

/-- Whether a flow is busy throughout an interval is decided by running it. -/
def decideBusyThroughout (flow : Nat) :
    (s : Except FairQueueFault FairQueue) → (es : List FairQueueEvent) → Decidable (BusyThroughout flow s es)
  | .error _, [] | .error _, _ :: _ => inferInstanceAs (Decidable False)
  | .ok m, [] => inferInstanceAs (Decidable (m.Busy flow))
  | .ok m, e :: es =>
    haveI : Decidable (match m.step e with | some s => BusyThroughout flow s es | none => False) :=
      match m.step e with
      | some s => decideBusyThroughout flow s es
      | none => inferInstanceAs (Decidable False)
    inferInstanceAs (Decidable (m.Busy flow ∧ match m.step e with | some s => BusyThroughout flow s es | none => False))

instance (flow : Nat) (s : Except FairQueueFault FairQueue) (es : List FairQueueEvent) : Decidable (BusyThroughout flow s es) :=
  decideBusyThroughout flow s es

namespace FairSharingAux

open FairQueue

variable {m m' : FairQueue}

/-- What an event does to the queue: the times of flows that stay busy grow by their service, up to a common step back. -/
structure Accounts (m : FairQueue) (e : FairQueueEvent) (m' : FairQueue) (back : Nat) : Prop where
  core : m'.Core
  works : m'.Works
  maxTime : m'.maxTime = m.maxTime
  mtu : m'.mtu = m.mtu
  packetWeight : m'.packetWeight = m.packetWeight
  time : ∀ f, m.Busy f → m'.Busy f → m'.time f + back = m.time f + m.service f e
  level : m.Level → m.FairArrival e → m'.Level

/-- Where no flow gets busy and the times stay, the flows stay level. -/
theorem accounts_of_quiet (h : m.Core) (hcore : m'.Core) (hworks : m'.Works) (hq : Quiet m m') {e : FairQueueEvent}
    (hserv : ∀ f, m.service f e = 0) : Accounts m e m' 0 := by
  have htime : ∀ f, m'.Busy f → m'.time f = m.time f := by
    intro f hb
    rcases hq.time f (hcore.listed f hb) with ⟨-, ht⟩ | ⟨hn, -⟩
    · exact ht
    · exact absurd (h.listed f (hq.busy f hb)) hn
  refine ⟨hcore, hworks, hq.maxTime, hq.mtu, hq.packetWeight, ?_, ?_⟩
  · intro f _ hb
    rw [hserv f, htime f hb]
  · intro hlevel _ b hb g hg
    rw [htime b hb, hq.mtu, hq.packetWeight]
    rcases hq.time g hg with ⟨hg', ht⟩ | ⟨-, ht⟩
    · rw [ht]
      exact hlevel b (hq.busy b hb) g hg'
    · rw [ht]
      exact Nat.zero_le _

/-- A packet of a flow that was idle. -/
theorem accounts_of_send (h : m.Core) {flow dataLen : Nat} (hfl : flow ∈ m.flowsList) (hidle : ¬m.Busy flow) (hlen : dataLen ≤ m.mtu)
    (hfree : m.freeing = false) :
    ∃ m', m.inputHandlerSend flow dataLen = .ok m' ∧ Accounts m (.send flow dataLen) m' 0 := by
  obtain ⟨m', hrun, hcore, hworks, hmax, hmtu, hweight, hlist, hbusy, hself, hothers⟩ := inputHandlerSend_idle h hfl hidle hlen hfree
  have htime : ∀ f, m.Busy f → m'.time f = m.time f :=
    fun f hb => hothers f (h.listed f hb) fun hn => hidle (hn ▸ hb)
  refine ⟨m', hrun, hcore, hworks, hmax, hmtu, hweight, fun f hb _ => htime f hb, ?_⟩
  intro hlevel hfair b hb g hg
  rw [hlist] at hg
  rw [hmtu, hweight]
  have hgtime : m'.time g ≤ max (m.time g) m.getCurrentTime := by
    by_cases hn : g = flow
    · rw [hn, hself]
    · rw [hothers g hg hn]
      exact Nat.le_max_left _ _
  by_cases hall : m.Idle
  · -- The queue was idle, so the flow is alone, and the arrival is fair.
    have hzero : m.getCurrentTime = 0 := by
      unfold getCurrentTime
      rw [hall.1, hall.2.1, hall.2.2]
      rfl
    have hb' : b = flow := by
      rcases hbusy b hb with (hn | hn | hn) | hn
      · rw [hall.1] at hn
        cases hn
      · rw [hall.2.1] at hn
        cases hn
      · rw [hall.2.2] at hn
        cases hn
      · exact hn
    have := hfair hall g hg
    rw [hb', hself]
    omega
  · -- The current time is that of a busy flow, and no later than that of any.
    obtain ⟨⟨c, hc, hcur⟩, hleast⟩ := getCurrentTime_spec h hall
    have hgc := hlevel c hc g hg
    rcases hbusy b hb with hb' | rfl
    · have hgb := hlevel b hb' g hg
      have hcb := hleast b hb'
      rw [htime b hb']
      omega
    · rw [hself]
      omega

/-- A packet is done. -/
theorem accounts_of_done (h : m.Core) {flow : Nat} (hs : m.sendingFlow = some flow) (hfree : m.freeing = false) :
    ∃ m' back, m.outputHandlerDone = .ok m' ∧ Accounts m .done m' back := by
  obtain ⟨mem, hrun, hcore, hworks, hbusy, -, hself, hothers, hback⟩ := outputHandlerDone_spec h hs hfree
  obtain ⟨hnot, hp, -, hlen, hleast⟩ := h.sending flow hs
  have hqueued : ∀ f, m.Busy f → f ≠ flow → f ∈ m.queuedTree := by
    rintro f (hn | hn | hn) hne
    · rw [hs] at hn
      exact absurd (Option.some.inj hn).symm hne
    · exact hn
    · rw [hp] at hn
      cases hn
  have htime : ∀ f, m.Busy f → f ≠ flow → (mem f).time + m.subtracted flow (m.packetWeight + m.sendingLen) = m.time f := by
    intro f hb hne
    have := hback f (hqueued f hb hne)
    rw [hothers f (h.listed f hb) hne]
    omega
  refine ⟨m.finished flow mem, m.subtracted flow (m.packetWeight + m.sendingLen), hrun, hcore, hworks, rfl, rfl, rfl, ?_, ?_⟩
  · intro f hb _
    change (mem f).time + _ = _
    by_cases hne : f = flow
    · rw [hne, hself, service, if_pos hs]
    · have hn : m.sendingFlow ≠ some f := fun hn => hne (Option.some.inj (hn.symm.trans hs))
      rw [htime f hb hne, service, if_neg hn, Nat.add_zero]
  · intro hlevel _ b hb g hg
    change (mem g).time ≤ (mem b).time + (m.mtu + m.packetWeight)
    have hbm := hbusy b hb
    have hgb := hlevel b hbm g hg
    by_cases hbf : b = flow
    · subst hbf
      by_cases hgf : g = b
      · subst hgf
        omega
      · rw [hothers g hg hgf]
        omega
    · have hbt := htime b hbm hbf
      by_cases hgf : g = flow
      · subst hgf
        have := hleast b (hqueued b hbm hbf)
        omega
      · rw [hothers g hg hgf]
        omega

/-- Every event that can happen happens without a fault. -/
theorem step_accounts (h : m.Core) (hw : m.Works) {e : FairQueueEvent} {r : Except FairQueueFault FairQueue} (hstep : m.step e = some r) :
    ∃ m' back, r = .ok m' ∧ Accounts m e m' back := by
  cases e with
  | flowInit flow =>
    obtain ⟨⟨hnew, hfree⟩, ⟨⟩⟩ := Option.ite_none_right_eq_some.mp hstep
    obtain ⟨m', hrun, hcore, hworks, hq⟩ := flowInit_spec h hw hnew hfree
    exact ⟨m', 0, hrun, accounts_of_quiet h hcore hworks hq fun _ => rfl⟩
  | flowFree flow =>
    obtain ⟨⟨hold, hfree⟩, ⟨⟩⟩ := Option.ite_none_right_eq_some.mp hstep
    obtain ⟨m', hrun, hcore, hworks, hq⟩ := flowFree_spec h hw hold hfree
    exact ⟨m', 0, hrun, accounts_of_quiet h hcore hworks hq fun _ => rfl⟩
  | send flow dataLen =>
    obtain ⟨⟨hfl, hs, hnq, hlen, hfree⟩, ⟨⟩⟩ := Option.ite_none_right_eq_some.mp hstep
    by_cases hp : m.previousFlow = some flow
    · obtain ⟨m', hrun, hcore, hworks, hq⟩ := inputHandlerSend_previous h hp hlen hfree
      exact ⟨m', 0, hrun, accounts_of_quiet h hcore hworks hq fun _ => rfl⟩
    · have hidle : ¬m.Busy flow := by
        rintro (hn | hn | hn)
        · exact hs hn
        · exact absurd (((h.queued flow hfl).mpr hn).symm.trans hnq) nofun
        · exact hp hn
      obtain ⟨m', hrun, hacc⟩ := accounts_of_send h hfl hidle hlen hfree
      exact ⟨m', 0, hrun, hacc⟩
  | done =>
    obtain ⟨⟨hsome, hfree⟩, ⟨⟩⟩ := Option.ite_none_right_eq_some.mp hstep
    obtain ⟨flow, hs⟩ := Option.isSome_iff_exists.mp hsome
    exact accounts_of_done h hs hfree
  | runScheduleJob =>
    obtain ⟨⟨hj, hfree⟩, ⟨⟩⟩ := Option.ite_none_right_eq_some.mp hstep
    obtain ⟨m', hrun, hcore, hworks, hq⟩ := scheduleJobHandler_spec h hj hfree
    exact ⟨m', 0, hrun, accounts_of_quiet h hcore hworks hq fun _ => rfl⟩
  | prepareFree =>
    obtain rfl := Option.some.inj hstep
    have hcore : { m with freeing := true }.Core :=
      ⟨h.nodup, h.tree_nodup, h.listed, h.queued, h.sorted, h.sending, h.previous, h.time_le, h.len_le, h.fits, h.max_le⟩
    have hq : Quiet m { m with freeing := true } := ⟨rfl, rfl, rfl, fun _ hb => hb, fun f hf => Or.inl ⟨hf, rfl⟩⟩
    exact ⟨_, 0, rfl, accounts_of_quiet h hcore nofun hq fun _ => rfl⟩

/-- A new queue. -/
theorem init_spec {maxTime mtu packetWeight : Nat} {mem : Nat → FairQueueFlow} (hmax : maxTime ≤ fairqueueMaxTime)
    (h : FairQueue.init maxTime mtu packetWeight mem = some m) :
    m.Core ∧ m.Works ∧ m.mtu = mtu ∧ m.packetWeight = packetWeight ∧ m.Level := by
  unfold FairQueue.init at h
  obtain ⟨⟨hmtu, hweight⟩, hm⟩ := Option.ite_none_right_eq_some.mp h
  obtain rfl := Option.some.inj hm
  have hidle : ∀ f, ¬FairQueue.Busy ⟨maxTime, mtu, packetWeight, mem, none, 0, none, [], [], false, false, [], [], []⟩ f := by
    rintro f (hn | hn | hn) <;> cases hn
  have hfits : mtu + packetWeight ≤ maxTime := by omega
  refine ⟨⟨List.nodup_nil, List.nodup_nil, ?_, nofun, List.Pairwise.nil, nofun, nofun, nofun, nofun, hfits, hmax⟩, ?_, rfl, rfl, ?_⟩
  · exact fun f hb => absurd hb (hidle f)
  · exact fun _ _ _ => rfl
  · exact fun b hb => absurd hb (hidle b)

/-- A run of fair arrivals keeps the flows level, and never faults. -/
theorem run_level {mtu packetWeight : Nat} {es : List FairQueueEvent} {s : Except FairQueueFault FairQueue}
    (h : (fairQueueSystem mtu packetWeight).RunWhere FairArrival es s) :
    ∃ m, s = .ok m ∧ m.Core ∧ m.Works ∧ m.mtu = mtu ∧ m.packetWeight = packetWeight ∧ m.Level := by
  refine h.invariant (fun _ s => ∃ m, s = .ok m ∧ m.Core ∧ m.Works ∧ m.mtu = mtu ∧ m.packetWeight = packetWeight ∧ m.Level) ?_ ?_
  · rintro s ⟨mem, m, hinit, rfl⟩
    exact ⟨m, rfl, init_spec (Nat.le_refl _) hinit⟩
  · rintro es s e s' ⟨m, rfl, hcore, hworks, hmtu, hweight, hlevel⟩ hfair hstep
    obtain ⟨m', back, rfl, hacc⟩ := step_accounts hcore hworks hstep
    exact ⟨m', rfl, hacc.core, hacc.works, hacc.mtu.trans hmtu, hacc.packetWeight.trans hweight, hacc.level hlevel hfair⟩

/-- Where a flow is busy, every arrival is fair. -/
theorem fairArrival_of_busy {flow : Nat} (h : m.Busy flow) (e : FairQueueEvent) : m.FairArrival e := by
  cases e with
  | send f n =>
    rintro ⟨hs, htree, hp⟩
    rcases h with hn | hn | hn
    · exact absurd (hs.symm.trans hn) nofun
    · rw [htree] at hn
      cases hn
    · exact absurd (hp.symm.trans hn) nofun
  | _ => trivial

theorem BusyThroughout.busy {flow : Nat} {es : List FairQueueEvent} (h : BusyThroughout flow (.ok m) es) : m.Busy flow := by
  cases es with
  | nil => exact h
  | cons e es => exact h.1

/-- Two level flows that are busy differ in their times by at most a packet. -/
theorem Level.busy {i j : Nat} (hlevel : m.Level) (h : m.Core) (hi : m.Busy i) (hj : m.Busy j) :
    m.time i ≤ m.time j + (m.mtu + m.packetWeight) :=
  hlevel j hj i (h.listed i hi)

/-- Over an interval that two flows are busy in, their times move apart by the difference of their services, and stay level. -/
theorem served_balance {i j : Nat} {es : List FairQueueEvent} (h : m.Core) (hw : m.Works) (hlevel : m.Level)
    (hi : BusyThroughout i (.ok m) es) (hj : BusyThroughout j (.ok m) es) :
    ∃ m' : FairQueue, m'.Core ∧ m'.Level ∧ m'.mtu = m.mtu ∧ m'.packetWeight = m.packetWeight ∧ m'.Busy i ∧ m'.Busy j ∧
      m'.time i + m.time j + served j (.ok m) es = m'.time j + m.time i + served i (.ok m) es := by
  induction es generalizing m with
  | nil => exact ⟨m, h, hlevel, rfl, rfl, hi, hj, by rw [served, served]; omega⟩
  | cons e es ih =>
    obtain ⟨hbi, hi⟩ := hi
    obtain ⟨hbj, hj⟩ := hj
    rw [served, served]
    cases hstep : m.step e with
    | none =>
      rw [hstep] at hi
      exact hi.elim
    | some r =>
      rw [hstep] at hi hj
      obtain ⟨m1, back, rfl, hacc⟩ := step_accounts h hw hstep
      obtain ⟨m', hcore, hlevel', hmtu, hweight, hbi', hbj', hsum⟩ :=
        ih hacc.core hacc.works (hacc.level hlevel (fairArrival_of_busy hbi e)) hi hj
      refine ⟨m', hcore, hlevel', hmtu.trans hacc.mtu, hweight.trans hacc.packetWeight, hbi', hbj', ?_⟩
      have hti := hacc.time i hbi (BusyThroughout.busy hi)
      have htj := hacc.time j hbj (BusyThroughout.busy hj)
      dsimp only
      omega

end FairSharingAux

open FairSharingAux

/-- Fair sharing, in two parts, over every run in which a packet that arrives at an idle queue is of a flow that no other flow is ahead
of by more than the output MTU and the packet weight; flows come, go, fall idle and return in any order.
1. No `ASSERT` fails.
2. Over every interval throughout which two flows are sending, queued or have just sent, their services differ by at most twice the
   output MTU and the packet weight. -/
theorem flows_share_fairly {mtu packetWeight : Nat} {es : List FairQueueEvent} {s : Except FairQueueFault FairQueue}
    (h : (fairQueueSystem mtu packetWeight).RunWhere FairArrival es s) :
    (∃ m, s = .ok m) ∧
    ∀ (i j : Nat) (es' : List FairQueueEvent), BusyThroughout i s es' → BusyThroughout j s es' →
      served i s es' ≤ served j s es' + 2 * (mtu + packetWeight) ∧ served j s es' ≤ served i s es' + 2 * (mtu + packetWeight) := by
  obtain ⟨m, rfl, hcore, hworks, rfl, rfl, hlevel⟩ := run_level h
  refine ⟨⟨m, rfl⟩, ?_⟩
  intro i j es' hi hj
  obtain ⟨m', hcore', hlevel', hmtu, hweight, hbi', hbj', hsum⟩ := served_balance hcore hworks hlevel hi hj
  have hbi := BusyThroughout.busy hi
  have hbj := BusyThroughout.busy hj
  have hij := Level.busy hlevel hcore hbi hbj
  have hji := Level.busy hlevel hcore hbj hbi
  have hij' := Level.busy hlevel' hcore' hbi' hbj'
  have hji' := Level.busy hlevel' hcore' hbj' hbi'
  rw [hmtu, hweight] at hij' hji'
  constructor <;> omega

/-- A queue with an MTU of 1500 bytes and a packet weight of one, before any flow is made. -/
def newFairQueue : FairQueue := ⟨fairqueueMaxTime, 1500, 1, fun _ => ⟨0, false, 0, 0⟩, none, 0, none, [], [], false, false, [], [], []⟩

/-- Two flows are made and send a packet each. -/
def twoFlowsSend : List FairQueueEvent := [.flowInit 0, .flowInit 1, .send 0 1500, .send 1 100]

/-- The first flow's packet is done and it sends its next one, then the same of the second. -/
def oneRound : List FairQueueEvent := [.done, .send 0 1500, .runScheduleJob, .done, .send 1 100, .runScheduleJob]

theorem twoFlowsSend_runs :
    ((fairQueueSystem 1500 1).execWhere FairArrival (.ok newFairQueue) twoFlowsSend).isSome = true := by decide +kernel

/-- The two flows begin together: in the first round the first gets 1501 and the second 101. -/
theorem flows_share_round : ∃ s, (fairQueueSystem 1500 1).RunWhere FairArrival twoFlowsSend s ∧
    BusyThroughout 0 s oneRound ∧ BusyThroughout 1 s oneRound ∧ served 0 s oneRound = 1501 ∧ served 1 s oneRound = 101 ∧
    served 0 s oneRound ≤ served 1 s oneRound + 2 * (1500 + 1) := by
  have hinit : (fairQueueSystem 1500 1).RunWhere FairArrival [] (.ok newFairQueue) :=
    .init ⟨newFairQueue.mem, newFairQueue, rfl, rfl⟩
  have h : (fairQueueSystem 1500 1).RunWhere FairArrival twoFlowsSend (Option.get _ twoFlowsSend_runs) :=
    hinit.execWhere (Option.some_get _).symm
  have h0 : BusyThroughout 0 (Option.get _ twoFlowsSend_runs) oneRound := by decide +kernel
  have h1 : BusyThroughout 1 (Option.get _ twoFlowsSend_runs) oneRound := by decide +kernel
  exact ⟨_, h, h0, h1, by decide +kernel, by decide +kernel, ((flows_share_fairly h).2 0 1 oneRound h0 h1).1⟩

/-- The first flow sends four packets of 1500 bytes alone and falls idle, and then both have packets to send, the second flow first. -/
def sentAloneBefore : List FairQueueEvent :=
  [.flowInit 0, .flowInit 1, .send 0 1500, .done, .runScheduleJob, .send 0 1500, .done, .runScheduleJob,
    .send 0 1500, .done, .runScheduleJob, .send 0 1500, .done, .runScheduleJob, .send 1 1500, .send 0 1500]

/-- Three rounds in which the output is done with a packet of the second flow, which sends its next one. -/
def threeRounds : List FairQueueEvent :=
  [.done, .send 1 1500, .runScheduleJob, .done, .send 1 1500, .runScheduleJob, .done, .send 1 1500, .runScheduleJob]

theorem sentAloneBefore_runs : ((fairQueueSystem 1500 1).exec (.ok newFairQueue) sentAloneBefore).isSome = true := by decide +kernel

/-- A flow is starved for what it sent alone: while both flows have packets, the second gets three of them and the first none. -/
theorem flow_starved_for_its_past : ∃ s, (fairQueueSystem 1500 1).Run sentAloneBefore s ∧
    BusyThroughout 0 s threeRounds ∧ BusyThroughout 1 s threeRounds ∧ served 0 s threeRounds = 0 ∧ served 1 s threeRounds = 4503 ∧
    ¬served 1 s threeRounds ≤ served 0 s threeRounds + 2 * (1500 + 1) := by
  have hinit : (fairQueueSystem 1500 1).Run [] (.ok newFairQueue) := .init ⟨newFairQueue.mem, newFairQueue, rfl, rfl⟩
  have h : (fairQueueSystem 1500 1).Run sentAloneBefore (Option.get _ sentAloneBefore_runs) :=
    hinit.exec (Option.some_get _).symm
  exact ⟨_, h, by decide +kernel, by decide +kernel, by decide +kernel, by decide +kernel, by decide +kernel⟩

end PsiphonAndroid
