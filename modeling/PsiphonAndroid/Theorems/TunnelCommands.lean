import PsiphonAndroid.Vpn.TunnelManager

/-!
# The last command of the tunnel service

Once the stop signal was counted down, no thread is left that runs or waits. The last command wins in every run in which every command
is heard: an `onRevoke` that comes while the configuration is awaited finds no thread and returns before it counts the signal down,
and a start that comes after a stop is ignored, since `m_firstStart` is never reset.
-/

namespace PsiphonAndroid

open Lib

namespace TunnelManager

/-- Nothing is under way: no configuration is awaited, and the tunnel thread cannot take a step. -/
def Quiescent (m : TunnelManager) : Prop :=
  m.configPending = false ∧ m.step .runTunnel = none ∧ (∀ outcome, m.step (.vpnEstablish outcome) = none) ∧
    (∀ ok, m.step (.startTunneling ok) = none) ∧ m.step .vpnTeardown = none

/-- There is a tunnel thread that has not ended: it runs, or it is blocked on `await`. -/
def ThreadRunning (m : TunnelManager) : Prop := m.thread ≠ .absent ∧ m.thread ≠ .ended

/-- The conditions on a step: `onRevoke` does not come while the configuration of the first start is awaited, no start comes after a
stop that followed the first start, and `startTunneling` does not throw. -/
def CommandHeard (m : TunnelManager) : TunnelEvent → Prop
  | .onRevoke => m.configPending = false
  | .startIntent => m.stopped = false
  | .startTunneling ok => ok = true
  | _ => True

end TunnelManager

open TunnelManager

namespace TunnelCommandsAux

/-- The thread is in its `finally` block, or ended. -/
def Over : TunnelThread → Prop
  | .stopping | .stoppingRouting | .tearingDown | .stoppingTunnel | .ended => True
  | _ => False

/-- The stop signal and the thread agree, whatever commands came. -/
structure Commands (m : TunnelManager) : Prop where
  fresh : m.firstStart = true → m.configPending = false ∧ m.thread = .absent ∧ m.stopSignal = none ∧ m.stopped = false
  signal : m.firstStart = false → m.stopSignal.isSome = true ∨ m.thread = .ended
  bound : ∀ count, m.stopSignal = some count → count ≤ 1
  down : m.stopSignal = some 0 → m.stopped = true
  stopped : m.stopped = true → m.stopSignal = some 0 ∨ m.thread = .ended
  issued : m.lastCommand = some .start → m.firstStart = false
  pending : m.configPending = true → m.thread = .absent
  made : m.firstStart = false → m.configPending = true ∨ m.thread ≠ .absent
  joined : m.hasThread = false → m.thread = .absent ∨ m.thread = .ended
  finishing : Over m.thread → m.establishFailed = true ∨ m.startFailed = true ∨ m.stopped = true

variable {m m' : TunnelManager}

/-- What the invariants are about. -/
def control (m : TunnelManager) :
    Bool × Option Nat × Bool × Bool × TunnelThread × Option TunnelCommand × Bool × Bool × Bool :=
  (m.firstStart, m.stopSignal, m.configPending, m.hasThread, m.thread, m.lastCommand, m.stopped, m.establishFailed, m.startFailed)

/-- A step that leaves all of that keeps it. -/
theorem Commands.congr (h : Commands m) (hc : control m' = control m) : Commands m' := by
  unfold control at hc
  simp only [Prod.mk.injEq] at hc
  obtain ⟨h1, h2, h3, h4, h5, h6, h7, h8, h9⟩ := hc
  refine ⟨?_, ?_, ?_, ?_, ?_, ?_, ?_, ?_, ?_, ?_⟩
  · rw [h1, h2, h3, h5, h7]
    exact h.fresh
  · rw [h1, h2, h5]
    exact h.signal
  · rw [h2]
    exact h.bound
  · rw [h2, h7]
    exact h.down
  · rw [h2, h5, h7]
    exact h.stopped
  · rw [h1, h6]
    exact h.issued
  · rw [h3, h5]
    exact h.pending
  · rw [h1, h3, h5]
    exact h.made
  · rw [h4, h5]
    exact h.joined
  · rw [h5, h7, h8, h9]
    exact h.finishing

/-- A new service has had no command. -/
theorem commands_new : Commands new where
  fresh _ := ⟨rfl, rfl, rfl, rfl⟩
  signal := nofun
  bound := nofun
  down := nofun
  stopped := nofun
  issued := nofun
  pending := nofun
  made := nofun
  joined _ := Or.inl rfl
  finishing := nofun

/-- Emitting a state commands nothing. -/
theorem control_emitState (m : TunnelManager) (state : NetworkConnectionState) : control (m.emitState state) = control m := by
  unfold emitState
  split <;> rfl

/-- Keeping a client commands nothing. -/
theorem control_addClient (m : TunnelManager) (client : Nat) (ping : Bool) : control (m.addClient client ping) = control m := by
  unfold addClient
  dsimp only
  split <;> rfl

/-- Registering commands nothing. -/
theorem control_register (m : TunnelManager) (client : Nat) (stateSent statsSent ping : Bool) :
    control (m.register client stateSent statsSent ping) = control m := by
  have hsent : control (if stateSent then { m with sent := m.sent ++ [⟨client, m.networkConnectionState, m.routed⟩] } else m) =
      control m := by split <;> rfl
  unfold register
  dsimp only
  split
  · exact (control_addClient ..).trans hsent
  · exact hsent

/-- A new pair commands nothing. -/
theorem control_switchTo (m : TunnelManager) (pair : NetworkConnectionState × Bool) (canSendIntent : Bool) :
    control (m.switchTo pair canSendIntent) = control m := by
  unfold switchTo
  dsimp only
  split
  · split
    · exact control_emitState ..
    · rfl
  · exact control_emitState ..

/-- Sending a state commands nothing. -/
theorem control_sendState {client : Nat} {alive : Bool} (hs : m.sendState client alive = some m') : control m' = control m := by
  unfold sendState at hs
  split at hs
  · obtain ⟨_, ⟨⟩⟩ := Option.ite_none_right_eq_some.mp hs
    cases alive <;> rfl
  · cases hs

/-- The end of a task commands nothing. -/
theorem control_endTask (hs : m.endTask = some m') : control m' = control m := by
  unfold endTask at hs
  split at hs
  case h_4 => cases hs
  all_goals
    obtain rfl := Option.some.inj hs
    rfl

/-- What a step can do to the commands, the stop signal and the thread. -/
inductive ControlStep (m : TunnelManager) : TunnelEvent → TunnelManager → Prop
  | same {e : TunnelEvent} {m' : TunnelManager} (h : control m' = control m) : ControlStep m e m'
  | start : ControlStep m .startIntent m.start
  | countDown {e : TunnelEvent} (clients : List Nat) : ControlStep m e { m.countDown with clients := clients }
  | configCompleted (h : m.configPending = true) : ControlStep m .configCompleted m.startThread
  | onRevoke : ControlStep m .onRevoke m.stopAndWaitForTunnel
  | onRevokeJoined {e : TunnelEvent} (ht : m.thread = .ended) : ControlStep m e { m with
      stopSignal := none
      hasThread := false
      revoking := false }
  | runTunnel {e : TunnelEvent} {m' : TunnelManager} (h : m.runTunnel = some m') : ControlStep m e m'
  | vpnEstablish {e : TunnelEvent} (ht : m.thread = .establishing) (outcome : EstablishOutcome) : ControlStep m e (m.establish outcome)
  | startTunneling (ht : m.thread = .startTunneling) (ok : Bool) :
      ControlStep m (.startTunneling ok) (if ok then { m with thread := .awaiting } else { m with
        startFailed := true
        thread := .stopping })
  | vpnTeardown {e : TunnelEvent} (ht : m.thread = .tearingDown) : ControlStep m e { m with
      vpn := m.vpn.vpnTeardown
      thread := .stoppingTunnel }

/-- Every step is one of these. -/
theorem controlStep_of_act {e : TunnelEvent} (hs : m.act e = some m') : ControlStep m e m' := by
  cases e with
  | unregister | onConnecting | onConnected | onStartedWaitingForNetworkConnectivity | onStoppedWaitingForNetworkConnectivity
    | onHomepage | subscribeNetwork =>
    obtain rfl := Option.some.inj hs
    exact .same rfl
  | subscribeRouting =>
    obtain ⟨_, ⟨⟩⟩ := Option.ite_none_right_eq_some.mp hs
    exact .same rfl
  | startIntent =>
    obtain rfl := Option.some.inj hs
    exact .start
  | stopIntent | signalStopService =>
    obtain rfl := Option.some.inj hs
    exact .countDown m.clients
  | configCompleted =>
    obtain ⟨hc, ⟨⟩⟩ := Option.ite_none_right_eq_some.mp hs
    exact .configCompleted hc
  | register =>
    obtain rfl := Option.some.inj hs
    exact .same (control_register ..)
  | stopService =>
    obtain rfl := Option.some.inj hs
    split
    · exact .countDown []
    · exact .same rfl
  | restartTunnel =>
    obtain rfl := Option.some.inj hs
    split <;> exact .same rfl
  | restartCompleted | restartPublished =>
    unfold TunnelManager.act at hs
    dsimp only at hs
    split at hs
    · cases hs
    · obtain rfl := Option.some.inj hs
      exact .same rfl
  | onRevoke =>
    obtain ⟨_, ⟨⟩⟩ := Option.ite_none_left_eq_some.mp hs
    exact .onRevoke
  | onRevokeJoined =>
    obtain ⟨⟨_, ht⟩, ⟨⟩⟩ := Option.ite_none_right_eq_some.mp hs
    exact .onRevokeJoined ht
  | deliver =>
    unfold TunnelManager.act at hs
    dsimp only at hs
    split at hs
    · cases hs
    · obtain rfl := Option.some.inj hs
      split
      · exact .same rfl
      · exact .same (control_switchTo ..)
  | routeThroughTunnel =>
    obtain ⟨_, ⟨⟩⟩ := Option.ite_none_right_eq_some.mp hs
    exact .same rfl
  | sendState => exact .same (control_sendState hs)
  | mainThread => exact .same (control_endTask hs)
  | runTunnel => exact .runTunnel hs
  | vpnEstablish outcome =>
    obtain ⟨ht, ⟨⟩⟩ := Option.ite_none_right_eq_some.mp hs
    exact .vpnEstablish ht outcome
  | startTunneling ok =>
    obtain ⟨ht, ⟨⟩⟩ := Option.ite_none_right_eq_some.mp hs
    exact .startTunneling ht ok
  | vpnTeardown =>
    obtain ⟨ht, ⟨⟩⟩ := Option.ite_none_right_eq_some.mp hs
    exact .vpnTeardown ht

/-- A step is what its event does. -/
theorem act_of_step {e : TunnelEvent} (hs : m.step e = some m') : m.act e = some m' := (Option.ite_none_left_eq_some.mp hs).2

/-! ## The signal and the thread -/

/-- The signal is counted down. -/
theorem Commands.countDown (h : Commands m) : Commands m.countDown := by
  have hzero : m.stopSignal.isSome = true → m.countDown.stopSignal = some 0 := by
    intro hs
    obtain ⟨count, hcount⟩ := Option.isSome_iff_exists.mp hs
    have hle := h.bound count hcount
    change m.stopSignal.map _ = _
    rw [hcount]
    exact congrArg some (Nat.sub_eq_zero_of_le hle)
  cases hf : m.firstStart with
  | true =>
    obtain ⟨hconfig, hthread, hsignal, hstopped⟩ := h.fresh hf
    have hnone : m.countDown.stopSignal = none := by
      change m.stopSignal.map _ = none
      rw [hsignal]
      rfl
    have hnot : m.countDown.stopped = false := by
      change (m.stopped || !m.firstStart) = false
      rw [hstopped, hf]
      rfl
    refine ⟨fun _ => ⟨hconfig, hthread, hnone, hnot⟩, ?_, ?_, ?_, ?_, nofun, h.pending, h.made, h.joined, ?_⟩
    · exact fun hn => absurd (hf.symm.trans hn) Bool.noConfusion
    · intro count hc
      rw [hnone] at hc
      cases hc
    · intro hc
      rw [hnone] at hc
      cases hc
    · intro hs
      rw [hnot] at hs
      cases hs
    · intro ho
      change Over m.thread at ho
      rw [hthread] at ho
      exact absurd ho id
  | false =>
    have hstop : m.countDown.stopped = true := by
      change (m.stopped || !m.firstStart) = true
      rw [hf]
      exact Bool.or_true _
    refine ⟨?_, ?_, ?_, fun _ => hstop, ?_, nofun, h.pending, h.made, h.joined, fun _ => Or.inr (Or.inr hstop)⟩
    · exact fun hn => absurd (hf.symm.trans hn) Bool.noConfusion
    · intro _
      rcases h.signal hf with hs | ht
      · exact Or.inl (by rw [hzero hs]; rfl)
      · exact Or.inr ht
    · intro count hc
      change m.stopSignal.map _ = _ at hc
      obtain ⟨count', hcount', rfl⟩ := Option.map_eq_some_iff.mp hc
      exact Nat.le_trans (Nat.sub_le _ _) (h.bound count' hcount')
    · intro _
      rcases h.signal hf with hs | ht
      · exact Or.inl (hzero hs)
      · exact Or.inr ht

/-- The first start makes the signal; a later one is only recorded. -/
theorem Commands.start (h : Commands m) : Commands m.start := by
  unfold TunnelManager.start
  dsimp only
  split
  · rename_i hf
    obtain ⟨_, hthread, _, hstopped⟩ := h.fresh hf
    refine ⟨nofun, fun _ => Or.inl rfl, ?_, nofun, ?_, fun _ => rfl, fun _ => hthread, fun _ => Or.inl rfl, h.joined, h.finishing⟩
    · intro count hc
      obtain rfl := Option.some.inj hc
      exact Nat.le_refl 1
    · intro hs
      exact absurd (hstopped.symm.trans hs) Bool.noConfusion
  · rename_i hf
    exact ⟨h.fresh, h.signal, h.bound, h.down, h.stopped, fun _ => Bool.of_not_eq_true hf, h.pending, h.made, h.joined, h.finishing⟩

/-- The configuration comes only after the first start. -/
theorem Commands.first (h : Commands m) (hc : m.configPending = true) : m.firstStart = false := by
  cases hf : m.firstStart with
  | false => rfl
  | true => exact absurd ((h.fresh hf).1.symm.trans hc) Bool.noConfusion

/-- There is a thread only after the first start. -/
theorem Commands.started (h : Commands m) (ht : m.thread ≠ .absent) : m.firstStart = false := by
  cases hf : m.firstStart with
  | false => rfl
  | true => exact absurd (h.fresh hf).2.1 ht

/-- The thread is made. A stop that came before is in the signal. -/
theorem Commands.startThread (h : Commands m) (hc : m.configPending = true) : Commands m.startThread := by
  have hf := h.first hc
  have habsent := h.pending hc
  refine ⟨fun hn => absurd (hf.symm.trans hn) Bool.noConfusion, ?_, h.bound, h.down, ?_, h.issued, nofun, fun _ => Or.inr nofun,
    nofun, nofun⟩
  · intro hn
    refine (h.signal hn).imp_right fun ht => ?_
    exact absurd (habsent.symm.trans ht) nofun
  · intro hs
    refine (h.stopped hs).imp_right fun ht => ?_
    exact absurd (habsent.symm.trans ht) nofun

/-- The thread goes on. Into the `finally` block it gets by a failure or a stop. -/
theorem Commands.goto (h : Commands m) (hrunning : ThreadRunning m)
    (hfirst : m'.firstStart = m.firstStart) (hsignal : m'.stopSignal = m.stopSignal) (hconfig : m'.configPending = m.configPending)
    (hmade : m'.hasThread = m.hasThread) (hlast : m'.lastCommand = m.lastCommand) (hstopped : m'.stopped = m.stopped)
    (hnext : m'.thread ≠ .absent)
    (hover : Over m'.thread → m'.establishFailed = true ∨ m'.startFailed = true ∨ m'.stopped = true) : Commands m' := by
  obtain ⟨hthread, hended⟩ := hrunning
  have hf := h.started hthread
  refine ⟨?_, ?_, ?_, ?_, ?_, ?_, ?_, fun _ => Or.inr hnext, ?_, hover⟩
  · intro hn
    rw [hfirst, hf] at hn
    cases hn
  · intro _
    rw [hsignal]
    exact Or.inl ((h.signal hf).resolve_right hended)
  · rw [hsignal]
    exact h.bound
  · rw [hsignal, hstopped]
    exact h.down
  · rw [hsignal, hstopped]
    exact fun hs => Or.inl ((h.stopped hs).resolve_right hended)
  · rw [hfirst, hlast]
    exact h.issued
  · intro hc
    rw [hconfig] at hc
    exact absurd (h.pending hc) hthread
  · intro hn
    rw [hmade] at hn
    exact absurd (h.joined hn) (not_or.mpr ⟨hthread, hended⟩)

/-- `onRevoke` ends, with the thread. -/
theorem Commands.onRevokeJoined (h : Commands m) (ht : m.thread = .ended) :
    Commands { m with
      stopSignal := none
      hasThread := false
      revoking := false } := by
  refine ⟨?_, fun _ => Or.inr ht, nofun, nofun, fun _ => Or.inr ht, h.issued, h.pending, h.made, fun _ => Or.inr ht, h.finishing⟩
  intro hf
  exact absurd ((h.fresh hf).2.1.symm.trans ht) nofun

/-- `onRevoke` begins. -/
theorem Commands.stopAndWaitForTunnel (h : Commands m) : Commands m.stopAndWaitForTunnel := by
  unfold TunnelManager.stopAndWaitForTunnel
  split
  · exact h.countDown.congr rfl
  · exact ⟨h.fresh, h.signal, h.bound, h.down, h.stopped, nofun, h.pending, h.made, h.joined, h.finishing⟩

/-- A statement of the thread changes where it is and nothing else of the control. -/
theorem runTunnel_frame (hs : m.runTunnel = some m') : ThreadRunning m ∧ m'.firstStart = m.firstStart ∧
    m'.stopSignal = m.stopSignal ∧ m'.configPending = m.configPending ∧ m'.hasThread = m.hasThread ∧
    m'.lastCommand = m.lastCommand ∧ m'.stopped = m.stopped ∧ m'.establishFailed = m.establishFailed ∧
    m'.startFailed = m.startFailed ∧ m'.thread ≠ .absent := by
  unfold TunnelManager.runTunnel at hs
  split at hs
  case h_4 ht =>
    split at hs
    · cases hs
    · obtain rfl := Option.some.inj hs
      exact ⟨by simp [ThreadRunning, ht], rfl, rfl, rfl, rfl, rfl, rfl, rfl, rfl, nofun⟩
  case h_8 => cases hs
  all_goals
    rename_i ht
    obtain rfl := Option.some.inj hs
    exact ⟨by simp [ThreadRunning, ht], rfl, rfl, rfl, rfl, rfl, rfl, rfl, rfl, nofun⟩

/-- Into the `finally` block the thread gets from `await` by the signal. -/
theorem over_runTunnel (h : Commands m) (hs : m.runTunnel = some m') (ho : Over m'.thread) : Over m.thread ∨ m.stopped = true := by
  unfold TunnelManager.runTunnel at hs
  split at hs
  case h_4 ht =>
    split at hs
    · cases hs
    · rename_i hup
      have hsome := (h.signal (h.started (by simp [ht]))).resolve_right (by simp [ht])
      obtain ⟨count, hcount⟩ := Option.isSome_iff_exists.mp hsome
      cases count with
      | zero => exact Or.inr (h.down hcount)
      | succ count => exact absurd hcount (hup count)
  case h_5 ht => exact Or.inl (by simp [Over, ht])
  case h_6 ht => exact Or.inl (by simp [Over, ht])
  case h_7 ht => exact Or.inl (by simp [Over, ht])
  case h_8 => cases hs
  all_goals
    obtain rfl := Option.some.inj hs
    exact absurd ho id

/-- A statement of the thread. -/
theorem Commands.runTunnel (h : Commands m) (hs : m.runTunnel = some m') : Commands m' := by
  obtain ⟨hrunning, hfirst, hsignal, hconfig, hmade, hlast, hstopped, hestablish, hstart, hnext⟩ := runTunnel_frame hs
  refine h.goto hrunning hfirst hsignal hconfig hmade hlast hstopped hnext fun ho => ?_
  rw [hestablish, hstart, hstopped]
  rcases over_runTunnel h hs ho with ho | hstop
  · exact h.finishing ho
  · exact Or.inr (Or.inr hstop)

/-- The statement `vpnEstablish`. -/
theorem Commands.establish (h : Commands m) (ht : m.thread = .establishing) (outcome : EstablishOutcome) :
    Commands (m.establish outcome) := by
  unfold TunnelManager.establish
  cases outcome with
  | established _ => exact h.goto (by simp [ThreadRunning, ht]) rfl rfl rfl rfl rfl rfl nofun nofun
  | _ => exact h.goto (by simp [ThreadRunning, ht]) rfl rfl rfl rfl rfl rfl nofun fun _ => Or.inl rfl

/-- One step. -/
theorem Commands.step {e : TunnelEvent} (h : Commands m) (hs : m.step e = some m') : Commands m' := by
  cases controlStep_of_act (act_of_step hs) with
  | same hc => exact h.congr hc
  | start => exact h.start
  | countDown clients => exact h.countDown.congr rfl
  | configCompleted hc => exact h.startThread hc
  | onRevoke => exact h.stopAndWaitForTunnel
  | onRevokeJoined ht => exact h.onRevokeJoined ht
  | runTunnel hr => exact h.runTunnel hr
  | vpnEstablish ht outcome => exact h.establish ht outcome
  | startTunneling ht ok =>
    cases ok with
    | true => exact h.goto (by simp [ThreadRunning, ht]) rfl rfl rfl rfl rfl rfl nofun nofun
    | false => exact h.goto (by simp [ThreadRunning, ht]) rfl rfl rfl rfl rfl rfl nofun fun _ => Or.inr (Or.inl rfl)
  | vpnTeardown ht =>
    refine h.goto (by simp [ThreadRunning, ht]) rfl rfl rfl rfl rfl rfl nofun fun _ => ?_
    exact h.finishing (by simp [Over, ht])

/-- Every state of the service. -/
theorem commands_reach (h : tunnelManager.Reach m) : Commands m := by
  refine h.invariant Commands ?_ fun s e s' hi hs => hi.step hs
  rintro s rfl
  exact commands_new

/-- Where the thread can be when nothing is under way. -/
theorem quiescent_thread (hq : Quiescent m) :
    m.thread = .absent ∨ m.thread = .ended ∨ m.thread = .awaiting ∧ ∃ count, m.stopSignal = some (count + 1) := by
  obtain ⟨_, hrun, hestablish, hstart, hteardown⟩ := hq
  change m.runTunnel = none at hrun
  unfold TunnelManager.runTunnel at hrun
  cases ht : m.thread with
  | absent => exact Or.inl rfl
  | ended => exact Or.inr (Or.inl rfl)
  | awaiting =>
    simp only [ht] at hrun
    split at hrun
    · rename_i count hcount
      exact Or.inr (Or.inr ⟨rfl, count, hcount⟩)
    · cases hrun
  | establishing =>
    have hact : m.act (.vpnEstablish .noAddress) = none := hestablish .noAddress
    simp [TunnelManager.act, ht] at hact
  | startTunneling =>
    have hact : m.act (.startTunneling true) = none := hstart true
    simp [TunnelManager.act, ht] at hact
  | tearingDown =>
    have hact : m.act .vpnTeardown = none := hteardown
    simp [TunnelManager.act, ht] at hact
  | starting | startingRouting | clearingHomePages | stopping | stoppingRouting | stoppingTunnel =>
    simp only [ht] at hrun
    cases hrun

/-- When the signal was counted down, a quiescent service has no thread that runs or waits. -/
theorem Commands.not_running (h : Commands m) (hq : Quiescent m) (hs : m.stopped = true) : ¬ThreadRunning m := by
  rintro ⟨habsent, hended⟩
  obtain ⟨_, hcount⟩ := ((quiescent_thread hq).resolve_left habsent).resolve_left hended
  obtain ⟨count, hcount⟩ := hcount
  have hzero := (h.stopped hs).resolve_right hended
  rw [hcount] at hzero
  cases hzero

/-! ## The commands that are heard -/

/-- The last command is in the signal, or the thread has ended. -/
structure Heard (m : TunnelManager) : Prop where
  started : m.startFailed = false
  last : m.lastCommand = some .stop → m.firstStart = false → m.stopped = true ∨ m.thread = .ended
  issued : m.lastCommand = some .start → m.stopped = false

/-- A new service has had no command to hear. -/
theorem heard_new : Heard new where
  started := rfl
  last := nofun
  issued := nofun

/-- A step that does not come from the end of the thread and leaves the commands as they are keeps it. -/
theorem Heard.goto (h : Heard m) (hfirst : m'.firstStart = m.firstStart) (hlast : m'.lastCommand = m.lastCommand)
    (hstopped : m'.stopped = m.stopped) (hstart : m'.startFailed = m.startFailed)
    (hended : m.thread = .ended → m'.thread = .ended) : Heard m' := by
  refine ⟨hstart.trans h.started, ?_, ?_⟩
  · rw [hfirst, hlast, hstopped]
    exact fun hl hf => (h.last hl hf).imp_right hended
  · rw [hlast, hstopped]
    exact h.issued

/-- A stop that counts the signal down is heard. -/
theorem Heard.countDown (h : Heard m) : Heard m.countDown where
  started := h.started
  last _ hf := by
    have hf : m.firstStart = false := hf
    change (m.stopped || !m.firstStart) = true ∨ _
    rw [hf]
    exact Or.inl (Bool.or_true _)
  issued := nofun

/-- A start that is heard follows no stop. -/
theorem Heard.start (h : Heard m) (hc : CommandHeard m .startIntent) : Heard m.start := by
  unfold TunnelManager.start
  dsimp only
  split
  · exact ⟨h.started, nofun, fun _ => hc⟩
  · exact ⟨h.started, nofun, fun _ => hc⟩

/-- An `onRevoke` that is heard finds the thread, or the thread has ended, or no start came. -/
theorem Heard.stopAndWaitForTunnel (h : Heard m) (hi : Commands m) (hc : CommandHeard m .onRevoke) : Heard m.stopAndWaitForTunnel := by
  unfold TunnelManager.stopAndWaitForTunnel
  split
  · exact h.countDown.goto rfl rfl rfl rfl id
  · rename_i hnone
    refine ⟨h.started, fun _ hf => Or.inr ?_, nofun⟩
    have hconfig : m.configPending = false := hc
    have hthread : m.thread ≠ .absent := by
      refine (hi.made hf).resolve_left ?_
      rw [hconfig]
      exact Bool.noConfusion
    exact (hi.joined (Bool.of_not_eq_true hnone)).resolve_left hthread

/-- One step that meets the conditions. -/
theorem Heard.step {e : TunnelEvent} (h : Heard m) (hi : Commands m) (hc : CommandHeard m e) (hs : m.step e = some m') : Heard m' := by
  cases controlStep_of_act (act_of_step hs) with
  | same hcontrol =>
    unfold control at hcontrol
    simp only [Prod.mk.injEq] at hcontrol
    obtain ⟨hfirst, -, -, -, hthread, hlast, hstopped, -, hstart⟩ := hcontrol
    exact h.goto hfirst hlast hstopped hstart fun ht => hthread.trans ht
  | start => exact h.start hc
  | countDown clients => exact h.countDown.goto rfl rfl rfl rfl id
  | configCompleted hpending =>
    refine h.goto rfl rfl rfl rfl fun ht => ?_
    rw [hi.pending hpending] at ht
    cases ht
  | onRevoke => exact h.stopAndWaitForTunnel hi hc
  | onRevokeJoined ht => exact h.goto rfl rfl rfl rfl id
  | runTunnel hr =>
    obtain ⟨hrunning, hfirst, -, -, -, hlast, hstopped, -, hstart, -⟩ := runTunnel_frame hr
    exact h.goto hfirst hlast hstopped hstart fun ht => absurd ht hrunning.2
  | vpnEstablish ht outcome =>
    unfold TunnelManager.establish
    cases outcome with
    | established _ => exact h.goto rfl rfl rfl rfl fun he => by rw [ht] at he; cases he
    | _ => exact h.goto rfl rfl rfl rfl fun he => by rw [ht] at he; cases he
  | startTunneling ht ok =>
    obtain rfl : ok = true := hc
    exact h.goto rfl rfl rfl rfl fun he => by rw [ht] at he; cases he
  | vpnTeardown ht => exact h.goto rfl rfl rfl rfl fun he => by rw [ht] at he; cases he

/-- Every run in which every command is heard. -/
theorem heard_of_run {es : List TunnelEvent} (h : tunnelManager.RunWhere CommandHeard es m) : Commands m ∧ Heard m := by
  refine h.invariant (fun _ m => Commands m ∧ Heard m) ?_ ?_
  · rintro m rfl
    exact ⟨commands_new, heard_new⟩
  · rintro _ m e m' ⟨hi, hheard⟩ hc hs
    exact ⟨hi.step hs, hheard.step hi hc hs⟩

end TunnelCommandsAux

open TunnelCommandsAux

/-- Whatever commands came: once the stop signal was counted down after the first start, also before there was a thread, no tunnel
thread runs or waits in a quiescent state. -/
theorem stop_is_final {m : TunnelManager} (h : tunnelManager.Reach m) (hq : Quiescent m) (hs : m.stopped = true) : ¬ThreadRunning m :=
  (commands_reach h).not_running hq hs

/-- In every quiescent state of an instance of the service, after a run in which every command is heard:

1. if the last command was a stop, no tunnel thread runs or waits on the stop signal, also when the stop came before the signal or the
   thread was there;
2. if the last command was a start and establishing the VPN did not fail, there is a tunnel thread, and it waits for the stop
   signal. -/
theorem last_command_wins {es : List TunnelEvent} {m : TunnelManager} (h : tunnelManager.RunWhere CommandHeard es m) (hq : Quiescent m) :
    (m.lastCommand = some .stop → ¬ThreadRunning m) ∧
    (m.lastCommand = some .start → m.establishFailed = false → m.thread = .awaiting) := by
  obtain ⟨hi, hheard⟩ := heard_of_run h
  refine ⟨?_, ?_⟩
  · intro hl
    cases hf : m.firstStart with
    | true => exact fun hr => hr.1 (hi.fresh hf).2.1
    | false =>
      rcases hheard.last hl hf with hs | ht
      · exact hi.not_running hq hs
      · exact fun hr => hr.2 ht
  · intro hl hestablish
    rcases quiescent_thread hq with ht | ht | ht
    · rcases hi.made (hi.issued hl) with hc | hc
      · exact absurd (hq.1.symm.trans hc) Bool.noConfusion
      · exact absurd ht hc
    · rcases hi.finishing (by simp [Over, ht]) with hc | hc | hc
      · exact absurd (hestablish.symm.trans hc) Bool.noConfusion
      · exact absurd (hheard.started.symm.trans hc) Bool.noConfusion
      · exact absurd ((hheard.issued hl).symm.trans hc) Bool.noConfusion
    · exact ht.1

/-- A stop before the first start, the start, and a stop while the configuration is awaited, before there is a thread: the thread is
made, sees the signal down at `await` and ends. Without the second stop it waits for the signal. -/
theorem last_command_wins_early_stop :
    (∃ es m, tunnelManager.RunWhere CommandHeard es m ∧ Quiescent m ∧ TunnelEvent.stopIntent ∈ es ∧ m.lastCommand = some .stop ∧
      m.thread = .ended ∧ ¬ThreadRunning m) ∧
    ∃ es m, tunnelManager.RunWhere CommandHeard es m ∧ Quiescent m ∧ m.lastCommand = some .start ∧ m.thread = .awaiting := by
  have h0 : tunnelManager.RunWhere CommandHeard [] new := .init rfl
  have h1 := h0.step (e := TunnelEvent.stopIntent) trivial rfl
  have h2 := h1.step (e := TunnelEvent.startIntent) rfl rfl
  have h3 := h2.step (e := TunnelEvent.stopIntent) trivial rfl
  have h4 := h3.step (e := TunnelEvent.configCompleted) trivial rfl
  have h5 := h4.step (e := TunnelEvent.runTunnel) trivial rfl
  have h6 := h5.step (e := TunnelEvent.runTunnel) trivial rfl
  have h7 := h6.step (e := TunnelEvent.runTunnel) trivial rfl
  have h8 := h7.step (e := TunnelEvent.vpnEstablish (.established ⟨"10.0.0.1", "10.0.0.0", 8, "10.0.0.2"⟩)) trivial rfl
  have h9 := h8.step (e := TunnelEvent.startTunneling true) rfl rfl
  have h10 := h9.step (e := TunnelEvent.runTunnel) trivial rfl
  have h11 := h10.step (e := TunnelEvent.runTunnel) trivial rfl
  have h12 := h11.step (e := TunnelEvent.runTunnel) trivial rfl
  have h13 := h12.step (e := TunnelEvent.vpnTeardown) trivial rfl
  have h14 := h13.step (e := TunnelEvent.runTunnel) trivial rfl
  have k3 := h2.step (e := TunnelEvent.configCompleted) trivial rfl
  have k4 := k3.step (e := TunnelEvent.runTunnel) trivial rfl
  have k5 := k4.step (e := TunnelEvent.runTunnel) trivial rfl
  have k6 := k5.step (e := TunnelEvent.runTunnel) trivial rfl
  have k7 := k6.step (e := TunnelEvent.vpnEstablish (.established ⟨"10.0.0.1", "10.0.0.0", 8, "10.0.0.2"⟩)) trivial rfl
  have k8 := k7.step (e := TunnelEvent.startTunneling true) rfl rfl
  have hstopped := (last_command_wins h14 ⟨rfl, rfl, fun _ => rfl, fun _ => rfl, rfl⟩).1 rfl
  have hwaiting := (last_command_wins k8 ⟨rfl, rfl, fun _ => rfl, fun _ => rfl, rfl⟩).2 rfl rfl
  exact ⟨⟨_, _, h14, ⟨rfl, rfl, fun _ => rfl, fun _ => rfl, rfl⟩, by simp, rfl, rfl, hstopped⟩,
    _, _, k8, ⟨rfl, rfl, fun _ => rfl, fun _ => rfl, rfl⟩, rfl, hwaiting⟩

/-- An `onRevoke` while the configuration of the start is awaited finds no thread and leaves the signal: the last command is a stop, and
the thread waits for the signal. And a start that comes while the thread of the first one is stopping is ignored: the last command is a
start, establishing the VPN did not fail, and no thread is left. -/
theorem commands_are_lost :
    (∃ m, tunnelManager.Reach m ∧ Quiescent m ∧ m.lastCommand = some .stop ∧ m.thread = .awaiting ∧ ThreadRunning m) ∧
    ∃ m, tunnelManager.Reach m ∧ Quiescent m ∧ m.lastCommand = some .start ∧ m.establishFailed = false ∧ ¬ThreadRunning m := by
  have h0 : tunnelManager.Run [] new := .init rfl
  have h1 := h0.step (e := .startIntent) rfl
  have k2 := h1.step (e := .onRevoke) rfl
  have k3 := k2.step (e := .configCompleted) rfl
  have k4 := k3.step (e := .runTunnel) rfl
  have k5 := k4.step (e := .runTunnel) rfl
  have k6 := k5.step (e := .runTunnel) rfl
  have k7 := k6.step (e := .vpnEstablish (.established ⟨"10.0.0.1", "10.0.0.0", 8, "10.0.0.2"⟩)) rfl
  have k8 := k7.step (e := .startTunneling true) rfl
  have h2 := h1.step (e := .configCompleted) rfl
  have h3 := h2.step (e := .runTunnel) rfl
  have h4 := h3.step (e := .runTunnel) rfl
  have h5 := h4.step (e := .runTunnel) rfl
  have h6 := h5.step (e := .vpnEstablish (.established ⟨"10.0.0.1", "10.0.0.0", 8, "10.0.0.2"⟩)) rfl
  have h7 := h6.step (e := .startTunneling true) rfl
  have h8 := h7.step (e := .stopIntent) rfl
  have h9 := h8.step (e := .runTunnel) rfl
  have h10 := h9.step (e := .startIntent) rfl
  have h11 := h10.step (e := .runTunnel) rfl
  have h12 := h11.step (e := .runTunnel) rfl
  have h13 := h12.step (e := .vpnTeardown) rfl
  have h14 := h13.step (e := .runTunnel) rfl
  refine ⟨⟨_, ⟨_, k8⟩, ⟨rfl, rfl, fun _ => rfl, fun _ => rfl, rfl⟩, rfl, rfl, nofun, nofun⟩,
    _, ⟨_, h14⟩, ⟨rfl, rfl, fun _ => rfl, fun _ => rfl, rfl⟩, rfl, rfl, fun hr => hr.2 rfl⟩

end PsiphonAndroid
