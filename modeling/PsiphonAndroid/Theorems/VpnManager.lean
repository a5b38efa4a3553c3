import PsiphonAndroid.Vpn.VpnManager

/-!
# The VPN manager over whole runs

The flag, the descriptor and the thread agree in every run in which no interface is established over another and no call fails to
start tun2socks; a call that fails leaves the flag set. A termination request reaches its thread in every run in which no thread
clears `g_terminate` while a request is outstanding; nothing in the code keeps a new thread from doing so.
-/

namespace PsiphonAndroid

open Lib

namespace VpnManager

/-- An interface is established only where none is stored, and tun2socks can be started where `routeThroughTunnel` tries to. -/
def Proper (v : VpnManager) : VpnCall → Prop
  | .vpnEstablish (.established _) => v.tunFd = none
  | .routeThroughTunnel socksProxyPort dupOk =>
    v.isRoutingThroughTunnel = true ∨ (v.tunFd.isSome = true ∧ 0 < socksProxyPort ∧ dupOk = true)
  | _ => True

/-- The flag says whether there is a thread, the thread runs on the stored descriptor, and every other descriptor was closed. -/
structure Inv (v : VpnManager) : Prop where
  thread : v.isRoutingThroughTunnel = v.tun2SocksThread.isSome
  fd : ∀ t ∈ v.tun2SocksThread, v.tunFd = some t.fd
  closed : ∀ fd < v.nextFd, fd ∈ v.closedFds ∨ v.tunFd = some fd

variable {v : VpnManager}

theorem inv_new : Inv new where
  thread := rfl
  fd _ ht := nomatch ht
  closed _ hfd := absurd hfd (Nat.not_lt_zero _)

theorem Inv.no_thread (h : Inv v) (hr : v.isRoutingThroughTunnel = false) : v.tun2SocksThread = none := by
  have := h.thread
  rw [hr] at this
  exact Option.isSome_eq_false_iff.mp this.symm |> Option.isNone_iff_eq_none.mp

theorem Inv.vpnEstablish (h : Inv v) {outcome : EstablishOutcome} (hp : Proper v (.vpnEstablish outcome)) :
    Inv (v.vpnEstablish outcome) := by
  cases outcome with
  | noAddress => exact h
  | noHost address => exact ⟨h.thread, h.fd, h.closed⟩
  | notPrepared address => exact ⟨h.thread, h.fd, h.closed⟩
  | established address =>
    have hp : v.tunFd = none := hp
    have hthread : v.tun2SocksThread = none := by
      cases ht : v.tun2SocksThread with
      | none => rfl
      | some t =>
        have := h.fd t ht
        rw [hp] at this
        cases this
    refine ⟨?_, ?_, ?_⟩
    · change false = v.tun2SocksThread.isSome
      rw [hthread]
      rfl
    · intro t ht
      change v.tun2SocksThread = some t at ht
      rw [hthread] at ht
      cases ht
    · intro fd hfd
      rcases Nat.lt_succ_iff_lt_or_eq.mp hfd with hlt | rfl
      · rcases h.closed fd hlt with hc | hc
        · exact Or.inl hc
        · rw [hp] at hc
          cases hc
      · exact Or.inr rfl

/-- Where it may be called, `routeThroughTunnel` starts a thread on the stored descriptor, unless there is one. -/
theorem routeThroughTunnel_eq (h : Inv v) (hr : v.isRoutingThroughTunnel = false) {fd : Nat} (hfd : v.tunFd = some fd)
    {socksProxyPort : Int} (hport : 0 < socksProxyPort) : v.routeThroughTunnel socksProxyPort true = { v with
      isRoutingThroughTunnel := true
      tun2SocksThread := some ⟨v.nextThread, fd, (v.privateAddress.map PrivateAddress.router).getD "", socksProxyPort⟩
      nextThread := v.nextThread + 1 } := by
  unfold routeThroughTunnel startTun2Socks
  rw [hr, if_neg Bool.noConfusion]
  dsimp only
  rw [hfd]
  dsimp only
  rw [if_neg (by omega), if_pos rfl, h.no_thread hr]

theorem Inv.routeThroughTunnel (h : Inv v) {socksProxyPort : Int} {dupOk : Bool}
    (hp : Proper v (.routeThroughTunnel socksProxyPort dupOk)) : Inv (v.routeThroughTunnel socksProxyPort dupOk) := by
  cases hr : v.isRoutingThroughTunnel with
  | true =>
    unfold VpnManager.routeThroughTunnel
    rw [hr, if_pos rfl]
    exact h
  | false =>
    rcases hp with hn | ⟨hfd, hport, rfl⟩
    · rw [hr] at hn
      cases hn
    · obtain ⟨fd, hfd⟩ := Option.isSome_iff_exists.mp hfd
      rw [routeThroughTunnel_eq h hr hfd hport]
      refine ⟨rfl, ?_, h.closed⟩
      intro t ht
      obtain rfl := Option.some.inj ht
      exact hfd

theorem Inv.stopRouteThroughTunnel (h : Inv v) : Inv v.stopRouteThroughTunnel := by
  unfold VpnManager.stopRouteThroughTunnel
  split
  · exact ⟨rfl, fun _ ht => (nomatch ht), h.closed⟩
  · exact h

theorem stopRouteThroughTunnel_thread (h : Inv v) : v.stopRouteThroughTunnel.tun2SocksThread = none := by
  unfold VpnManager.stopRouteThroughTunnel
  split
  · rfl
  · rename_i hr
    exact h.no_thread (Bool.not_eq_true _ ▸ hr)

theorem Inv.vpnTeardown (h : Inv v) : Inv v.vpnTeardown := by
  have hs := h.stopRouteThroughTunnel
  have hthread := stopRouteThroughTunnel_thread h
  unfold VpnManager.vpnTeardown closeTunFd
  refine ⟨?_, ?_, ?_⟩
  · change false = v.stopRouteThroughTunnel.tun2SocksThread.isSome
    rw [hthread]
    rfl
  · intro t ht
    change v.stopRouteThroughTunnel.tun2SocksThread = some t at ht
    rw [hthread] at ht
    cases ht
  · intro fd hfd
    refine Or.inl (List.mem_append.mpr ?_)
    rcases hs.closed fd hfd with hc | hc
    · exact Or.inl hc
    · exact Or.inr (by rw [hc]; exact List.mem_singleton_self fd)

/-- Every run of proper calls. -/
theorem inv_of_run {cs : List VpnCall} (h : vpnSystem.RunWhere Proper cs v) : Inv v := by
  refine h.invariant (fun _ v => Inv v) ?_ ?_
  · rintro v rfl
    exact inv_new
  · intro _ v c v' hinv hp hstep
    obtain rfl := Option.some.inj hstep
    cases c with
    | vpnEstablish outcome => exact hinv.vpnEstablish hp
    | routeThroughTunnel socksProxyPort dupOk => exact hinv.routeThroughTunnel hp
    | stopRouteThroughTunnel => exact hinv.stopRouteThroughTunnel
    | vpnTeardown => exact hinv.vpnTeardown

end VpnManager

open VpnManager

/-- The manager in every run of proper calls.
1. It is routing if and only if there is a thread, started on a dup of the stored descriptor and not stopped.
2. After `vpnTeardown` there is no thread and no descriptor, and every descriptor that was ever given out is closed.
3. A call of `routeThroughTunnel` that may be made and cannot start tun2socks changes nothing.
4. A call with a valid port leaves tun2socks started on the stored descriptor. -/
theorem vpn_manager_agrees {cs : List VpnCall} {v : VpnManager} (h : vpnSystem.RunWhere Proper cs v) :
    (v.isRoutingThroughTunnel = true ↔ ∃ t, v.tun2SocksThread = some t ∧ v.tunFd = some t.fd) ∧
    (v.vpnTeardown.tun2SocksThread = none ∧ v.vpnTeardown.tunFd = none ∧ ∀ fd < v.nextFd, fd ∈ v.vpnTeardown.closedFds) ∧
    (∀ socksProxyPort dupOk, Proper v (.routeThroughTunnel socksProxyPort dupOk) →
      (v.tunFd = none ∨ socksProxyPort ≤ 0 ∨ dupOk = false) → v.routeThroughTunnel socksProxyPort dupOk = v) ∧
    (∀ socksProxyPort fd, 0 < socksProxyPort → v.tunFd = some fd →
      ∃ t, (v.routeThroughTunnel socksProxyPort true).tun2SocksThread = some t ∧ t.fd = fd) := by
  have hinv := inv_of_run h
  refine ⟨?_, ?_, ?_, ?_⟩
  · rw [hinv.thread, Option.isSome_iff_exists]
    exact ⟨fun ⟨t, ht⟩ => ⟨t, ht, hinv.fd t ht⟩, fun ⟨t, ht, _⟩ => ⟨t, ht⟩⟩
  · have hclosed := hinv.vpnTeardown.closed
    have hnext : v.vpnTeardown.nextFd = v.nextFd := by
      unfold VpnManager.vpnTeardown closeTunFd VpnManager.stopRouteThroughTunnel
      split <;> rfl
    refine ⟨stopRouteThroughTunnel_thread hinv, rfl, ?_⟩
    intro fd hfd
    rcases hclosed fd (hnext.symm ▸ hfd) with hc | hc
    · exact hc
    · cases hc
  · intro socksProxyPort dupOk hp hfail
    unfold VpnManager.routeThroughTunnel
    rcases hp with hr | ⟨hfd, hport, rfl⟩
    · rw [if_pos hr]
    · rcases hfail with hn | hn | hn
      · rw [hn] at hfd
        cases hfd
      · omega
      · cases hn
  · intro socksProxyPort fd hport hfd
    cases hr : v.isRoutingThroughTunnel with
    | true =>
      obtain ⟨t, ht⟩ := Option.isSome_iff_exists.mp (hinv.thread.symm.trans hr)
      refine ⟨t, ?_, Option.some.inj ((hinv.fd t ht).symm.trans hfd)⟩
      unfold VpnManager.routeThroughTunnel
      rw [if_pos hr, ht]
    | false =>
      rw [routeThroughTunnel_eq hinv hr hfd hport]
      exact ⟨_, rfl, rfl⟩

/-- An interface is established and routed, and torn down with everything closed. -/
theorem vpn_manager_agrees_routing : ∃ cs v, vpnSystem.RunWhere Proper cs v ∧ v.isRoutingThroughTunnel = true ∧ v.nextFd = 1 ∧
    0 ∈ v.vpnTeardown.closedFds := by
  have hnew : vpnSystem.RunWhere Proper [] new := .init rfl
  have hfirst : Proper new (.vpnEstablish (.established ⟨"10.0.0.1", "10.0.0.0", 8, "10.0.0.2"⟩)) := rfl
  have hfd := hnew.step hfirst rfl
  have hvalid : Proper (new.vpnEstablish (.established ⟨"10.0.0.1", "10.0.0.0", 8, "10.0.0.2"⟩)) (.routeThroughTunnel 1080 true) :=
    Or.inr ⟨rfl, by decide, rfl⟩
  have hroute := hfd.step hvalid rfl
  exact ⟨_, _, hroute, rfl, rfl, (vpn_manager_agrees hroute).2.1.2.2 0 Nat.zero_lt_one⟩

/-- A call without a port leaves the flag set with no thread, and a later call with a port does not start one. -/
theorem failed_route_blocks_routing : ∃ v, vpnSystem.Reach v ∧ v.isRoutingThroughTunnel = true ∧ v.tun2SocksThread = none ∧
    v.tunFd.isSome = true ∧ (v.routeThroughTunnel 1080 true).tun2SocksThread = none := by
  have hnew : vpnSystem.Run [] new := .init rfl
  have hfd := hnew.step (e := .vpnEstablish (.established ⟨"10.0.0.1", "10.0.0.0", 8, "10.0.0.2"⟩)) rfl
  have hroute := hfd.step (e := .routeThroughTunnel 0 true) rfl
  exact ⟨_, ⟨_, hroute⟩, rfl, rfl, rfl, rfl⟩

namespace VpnThreads

/-- No thread runs its compare-and-swap while a thread whose termination was requested has not ended. -/
def ClearsSafely (w : VpnThreads) : VpnStep → Prop
  | .enter _ => ∀ id, w.requested id = true → w.phase id = .done
  | _ => True

/-- A request that has not been met is still visible, and a caller that joins has made one. -/
structure Inv (w : VpnThreads) : Prop where
  visible : ∀ id, w.requested id = true → w.phase id ≠ .done → w.gTerminate = true
  joining : ∀ teardown, w.stop = .joining teardown → ∃ t, w.vpn.tun2SocksThread = some t ∧ w.requested t.id = true

variable {w w' : VpnThreads}

theorem Inv.finishStop (h : Inv w) (vpn : VpnManager) (teardown : Bool) : Inv (w.finishStop vpn teardown) where
  visible := h.visible
  joining _ hn := nomatch hn

/-- A thread that has not ended goes on: its phase is not `done` before. -/
theorem Inv.advance (h : Inv w) {id : Nat} (hid : w.phase id ≠ .done) (phase : ThreadPhase) :
    Inv { w with phase := Function.update w.phase id phase } where
  visible i hr hp := by
    by_cases hi : i = id
    · subst hi
      exact h.visible i hr hid
    · change Function.update w.phase id phase i ≠ _ at hp
      rw [Function.update_of_ne hi] at hp
      exact h.visible i hr hp
  joining := h.joining

theorem Inv.step (h : Inv w) {e : VpnStep} (he : ClearsSafely w e) (hs : w.step e = some w') : Inv w' := by
  cases e with
  | vpnEstablish outcome =>
    rw [VpnThreads.step, Option.ite_none_right_eq_some] at hs
    obtain ⟨hidle, hs⟩ := hs
    obtain rfl := Option.some.inj hs
    exact ⟨h.visible, fun _ hn => absurd (hidle.symm.trans hn) StopPhase.noConfusion⟩
  | routeThroughTunnel socksProxyPort dupOk =>
    rw [VpnThreads.step, Option.ite_none_right_eq_some] at hs
    obtain ⟨hidle, hs⟩ := hs
    obtain rfl := Option.some.inj hs
    exact ⟨h.visible, fun _ hn => absurd (hidle.symm.trans hn) StopPhase.noConfusion⟩
  | beginStop teardown =>
    rw [VpnThreads.step, Option.ite_none_right_eq_some] at hs
    obtain ⟨-, hs⟩ := hs
    split at hs
    · dsimp only at hs
      split at hs
      · obtain rfl := Option.some.inj hs
        exact ⟨h.visible, fun _ hn => nomatch hn⟩
      · obtain rfl := Option.some.inj hs
        exact h.finishStop ..
    · obtain rfl := Option.some.inj hs
      exact h.finishStop ..
  | terminate =>
    rw [VpnThreads.step] at hs
    split at hs
    · rename_i teardown t hstop ht
      obtain rfl := Option.some.inj hs
      exact ⟨fun _ _ _ => rfl, fun _ _ => ⟨t, ht, Function.update_self ..⟩⟩
    · cases hs
  | join =>
    rw [VpnThreads.step] at hs
    split at hs
    · rw [Option.ite_none_right_eq_some] at hs
      obtain rfl := Option.some.inj hs.2
      exact h.finishStop ..
    · cases hs
  | interrupted =>
    rw [VpnThreads.step] at hs
    split at hs
    · obtain rfl := Option.some.inj hs
      exact h.finishStop ..
    · cases hs
  | enter id =>
    rw [VpnThreads.step, Option.ite_none_right_eq_some] at hs
    obtain ⟨⟨-, hcreated⟩, hs⟩ := hs
    obtain rfl := Option.some.inj hs
    have hall : ∀ i, w.requested i = true → w.phase i = .done := he
    refine ⟨?_, h.joining⟩
    intro i hr hp
    by_cases hi : i = id
    · subst hi
      exact absurd ((hall i hr).symm.trans hcreated) ThreadPhase.noConfusion
    · change Function.update w.phase id _ i ≠ _ at hp
      rw [Function.update_of_ne hi] at hp
      exact absurd (hall i hr) hp
  | timer id =>
    rw [VpnThreads.step, Option.ite_none_right_eq_some] at hs
    obtain ⟨hrunning, hs⟩ := hs
    obtain rfl := Option.some.inj hs
    split
    · exact h.advance (by rw [hrunning]; exact ThreadPhase.noConfusion) _
    · exact h
  | fail id =>
    rw [VpnThreads.step, Option.ite_none_right_eq_some] at hs
    obtain ⟨hrunning, hs⟩ := hs
    obtain rfl := Option.some.inj hs
    exact h.advance (by rw [hrunning]; exact ThreadPhase.noConfusion) _
  | ret id =>
    rw [VpnThreads.step, Option.ite_none_right_eq_some] at hs
    obtain ⟨hquitting, hs⟩ := hs
    obtain rfl := Option.some.inj hs
    exact h.advance (by rw [hquitting]; exact ThreadPhase.noConfusion) _

/-- Every run in which the flag is cleared safely. -/
theorem inv_of_run {es : List VpnStep} (h : vpnThreads.RunWhere ClearsSafely es w) : Inv w := by
  refine h.invariant (fun _ w => Inv w) ?_ ?_
  · rintro w rfl
    exact ⟨fun _ hr => Bool.noConfusion hr, fun _ hn => nomatch hn⟩
  · intro _ w e w' hinv he hs
    exact hinv.step he hs

end VpnThreads

open VpnThreads

/-- No termination request is lost, in every run in which no thread clears `g_terminate` while a request is outstanding.
1. Whenever the timer of a thread runs after its termination was requested, it sees the flag.
2. No caller waits for a thread that runs with the flag cleared. -/
theorem termination_seen {es : List VpnStep} {w : VpnThreads} (h : vpnThreads.RunWhere ClearsSafely es w) :
    (∀ id, w.requested id = true → w.phase id = .running → w.gTerminate = true) ∧
    (∀ teardown t, w.stop = .joining teardown → w.vpn.tun2SocksThread = some t → w.phase t.id = .running → w.gTerminate = true) := by
  have hinv := inv_of_run h
  have hseen : ∀ id, w.requested id = true → w.phase id = .running → w.gTerminate = true := fun id hr hp =>
    hinv.visible id hr (by rw [hp]; exact ThreadPhase.noConfusion)
  refine ⟨hseen, ?_⟩
  intro teardown t hstop ht hp
  obtain ⟨t', ht', hr⟩ := hinv.joining teardown hstop
  obtain rfl := Option.some.inj (ht.symm.trans ht')
  exact hseen _ hr hp

namespace VpnManagerAux

/-- The manager and the threads at the start. -/
def threadsStart : VpnThreads := ⟨.new, false, fun _ => .created, .idle, fun _ => false⟩

end VpnManagerAux

open VpnManagerAux

/-- The thread enters before it is stopped: its timer sees the flag. -/
theorem termination_seen_after_entry : ∃ es w, vpnThreads.RunWhere ClearsSafely es w ∧ w.requested 0 = true ∧
    w.phase 0 = .running ∧ w.stop = .joining false ∧ w.gTerminate = true := by
  have hcall : ∀ w outcome, ClearsSafely w (.vpnEstablish outcome) := fun _ _ => trivial
  have hroute : ∀ w socksProxyPort dupOk, ClearsSafely w (.routeThroughTunnel socksProxyPort dupOk) := fun _ _ _ => trivial
  have hbegin : ∀ w teardown, ClearsSafely w (.beginStop teardown) := fun _ _ => trivial
  have hset : ∀ w, ClearsSafely w .terminate := fun _ => trivial
  have h0 : vpnThreads.RunWhere ClearsSafely [] threadsStart := .init rfl
  have h1 := h0.step (hcall _ (.established ⟨"10.0.0.1", "10.0.0.0", 8, "10.0.0.2"⟩)) rfl
  have h2 := h1.step (hroute _ 1080 true) rfl
  have hnone : ClearsSafely { threadsStart with
      vpn := (VpnManager.new.vpnEstablish (.established ⟨"10.0.0.1", "10.0.0.0", 8, "10.0.0.2"⟩)).routeThroughTunnel 1080 true } (.enter 0) :=
    fun _ hr => Bool.noConfusion hr
  have h3 := h2.step hnone rfl
  have h4 := h3.step (hbegin _ false) rfl
  have h5 := h4.step (hset _) rfl
  exact ⟨_, _, h5, rfl, rfl, rfl, (termination_seen h5).1 0 rfl rfl⟩

/-- The thread enters after it was asked to stop: the caller waits for a thread that runs with the flag cleared. -/
theorem entry_loses_termination : ∃ w, vpnThreads.Reach w ∧ w.requested 0 = true ∧ w.phase 0 = .running ∧ w.stop = .joining false ∧
    w.vpn.tun2SocksThread.isSome = true ∧ w.gTerminate = false := by
  have h0 : vpnThreads.Run [] threadsStart := .init rfl
  have h1 := h0.step (e := .vpnEstablish (.established ⟨"10.0.0.1", "10.0.0.0", 8, "10.0.0.2"⟩)) rfl
  have h2 := h1.step (e := .routeThroughTunnel 1080 true) rfl
  have h3 := h2.step (e := .beginStop false) rfl
  have h4 := h3.step (e := .terminate) rfl
  have h5 := h4.step (e := .enter 0) rfl
  exact ⟨_, ⟨_, h5⟩, rfl, rfl, rfl, rfl, rfl⟩

end PsiphonAndroid
