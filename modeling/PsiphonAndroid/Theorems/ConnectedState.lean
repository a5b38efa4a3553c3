import PsiphonAndroid.Theorems.TunnelCommands
import PsiphonAndroid.Theorems.VpnManager

/-!
# What the clients of the tunnel service are told

A client is told `CONNECTED` only while traffic is routed, in every run in which the news are in time: no `CONNECTED` is told after
`FALSE` was published or the routing was stopped for a restart, `routeThroughTunnel` starts what it is called for, `TRUE` is published
before that is stopped, and the interface is not torn down under a published `TRUE`. Nothing in the code sees to that: a callback that
comes late is enough, and so is a stop between `routeThroughTunnel` and the publication.
-/

namespace PsiphonAndroid

open Lib

namespace TunnelManager

/-- The last value published for the routing is `TRUE`, and no restart has stopped the routing without having published it. -/
def Published (m : TunnelManager) : Prop := m.pipeline.routing = some true ∧ m.restartsStopped = 0

/-- The conditions on a step. A client that registers, or one of those that are sent a new state, is told `CONNECTED` only while `TRUE`
is the last published; `routeThroughTunnel` finds tun2socks running or can start it; `TRUE` is published after it only while the
routing was not stopped; and the last value published before `vpnTeardown` is not `TRUE`. -/
def NewsInTime (m : TunnelManager) : TunnelEvent → Prop
  | .register _ stateSent _ _ => stateSent = true → m.networkConnectionState = .connected → m.Published
  | .sendState client alive => ∀ clients, m.mainThread = .sendingState .connected clients → client ∈ clients → alive = true →
      m.Published
  | .routeThroughTunnel socksProxyPort dupOk => VpnManager.Proper m.vpn (.routeThroughTunnel socksProxyPort dupOk)
  | .mainThread => m.mainThread = .publishingRouting → m.vpn.isRoutingThroughTunnel = true
  | .vpnTeardown => m.pipeline.routing ≠ some true
  | _ => True

end TunnelManager

open TunnelManager

/-! ## The relays -/

namespace ConnectionPipeline

variable (p : ConnectionPipeline)

/-- Emitting keeps the routing. -/
@[simp] theorem routing_emit : p.emit.routing = p.routing := by
  unfold emit
  split <;> rfl

/-- It keeps the subscription. -/
@[simp] theorem routingSubscribed_emit : p.emit.routingSubscribed = p.routingSubscribed := by
  unfold emit
  split <;> rfl

/-- A network state keeps the routing. -/
@[simp] theorem routing_acceptNetwork (state : NetworkConnectionState) : (p.acceptNetwork state).routing = p.routing := by
  unfold acceptNetwork
  split
  · exact routing_emit _
  · rfl

/-- It keeps the subscription. -/
@[simp] theorem routingSubscribed_acceptNetwork (state : NetworkConnectionState) :
    (p.acceptNetwork state).routingSubscribed = p.routingSubscribed := by
  unfold acceptNetwork
  split
  · exact routingSubscribed_emit _
  · rfl

/-- A routing state is kept where it is subscribed to. -/
theorem routing_acceptRouting (routing : Bool) :
    (p.acceptRouting routing).routing = if p.routingSubscribed then some routing else p.routing := by
  unfold acceptRouting
  split
  · exact routing_emit _
  · rfl

/-- It keeps the subscription. -/
@[simp] theorem routingSubscribed_acceptRouting (routing : Bool) :
    (p.acceptRouting routing).routingSubscribed = p.routingSubscribed := by
  unfold acceptRouting
  split
  · exact routingSubscribed_emit _
  · rfl

end ConnectionPipeline

/-! ## The VPN manager under the service -/

namespace VpnManager

variable {v : VpnManager}

/-- Starting tun2socks keeps the interface. -/
theorem tunFd_startTun2Socks (fd : Nat) (socksProxyPort : Int) : (v.startTun2Socks fd socksProxyPort).tunFd = v.tunFd := by
  unfold startTun2Socks
  split <;> rfl

/-- It keeps the flag. -/
theorem routing_startTun2Socks (fd : Nat) (socksProxyPort : Int) :
    (v.startTun2Socks fd socksProxyPort).isRoutingThroughTunnel = v.isRoutingThroughTunnel := by
  unfold startTun2Socks
  split <;> rfl

/-- Routing keeps the interface. -/
theorem tunFd_routeThroughTunnel (socksProxyPort : Int) (dupOk : Bool) :
    (v.routeThroughTunnel socksProxyPort dupOk).tunFd = v.tunFd := by
  unfold routeThroughTunnel
  dsimp only
  split
  · rfl
  · split
    · rfl
    · split
      · rfl
      · split
        · exact tunFd_startTun2Socks ..
        · rfl

/-- The flag is set by every call. -/
theorem routing_routeThroughTunnel (socksProxyPort : Int) (dupOk : Bool) :
    (v.routeThroughTunnel socksProxyPort dupOk).isRoutingThroughTunnel = true := by
  unfold routeThroughTunnel
  dsimp only
  split
  · assumption
  · split
    · rfl
    · split
      · rfl
      · split
        · exact routing_startTun2Socks ..
        · rfl

/-- The end of routing keeps the interface. -/
theorem tunFd_stopRouteThroughTunnel : v.stopRouteThroughTunnel.tunFd = v.tunFd := by
  unfold stopRouteThroughTunnel
  split <;> rfl

/-- Without a descriptor nothing is routed. -/
theorem Inv.not_routing (h : Inv v) (hfd : v.tunFd = none) : v.isRoutingThroughTunnel = false := by
  rw [h.thread]
  cases ht : v.tun2SocksThread with
  | none => rfl
  | some t =>
    have := h.fd t ht
    rw [hfd] at this
    cases this

end VpnManager

/-! ## The service -/

namespace ConnectedStateAux

/-- The thread has not come past `vpnEstablish`. -/
def Early : TunnelThread → Prop
  | .absent | .starting | .startingRouting | .clearingHomePages | .establishing => True
  | _ => False

/-- What was told was true, and a published `TRUE` is, unless a restart stopped the routing and has not published it. -/
structure Told (m : TunnelManager) : Prop where
  vpn : VpnManager.Inv m.vpn
  early : Early m.thread → m.vpn.tunFd = none
  lost : m.pipeline.routingSubscribed = false → m.pipeline.routing = none
  routing : m.pipeline.routing = some true → m.vpn.isRoutingThroughTunnel = true ∨ 0 < m.restartsStopped
  sent : ∀ message ∈ m.sent, message.state = .connected → message.routed = true

variable {m m' : TunnelManager}

/-- A new service has told nothing. -/
theorem told_new : Told new where
  vpn := VpnManager.inv_new
  early _ := rfl
  lost _ := rfl
  routing := nofun
  sent := nofun

/-- With the flag set, traffic is routed. -/
theorem routed_of_routing (h : VpnManager.Inv m.vpn) (hr : m.vpn.isRoutingThroughTunnel = true) : m.routed = true := by
  rw [h.thread] at hr
  obtain ⟨t, ht⟩ := Option.isSome_iff_exists.mp hr
  unfold routed
  rw [ht, h.fd t ht]
  exact decide_eq_true rfl

/-- While `TRUE` is the last published, traffic is routed. -/
theorem Told.routed (h : Told m) (hp : m.Published) : m.routed = true := by
  refine routed_of_routing h.vpn ((h.routing hp.1).resolve_right ?_)
  rw [hp.2]
  exact Nat.lt_irrefl 0

/-- The thread goes on, or the relays are given values other than `TRUE`. -/
theorem Told.goto (h : Told m) (hearly : Early m'.thread → Early m.thread) (hvpn : m'.vpn = m.vpn)
    (hsubscribed : m'.pipeline.routingSubscribed = m.pipeline.routingSubscribed)
    (hrouting : m'.pipeline.routing = some true → m.pipeline.routing = some true)
    (hrestarts : m'.pipeline.routing = some true → m'.restartsStopped = m.restartsStopped)
    (hlost : m.pipeline.routingSubscribed = false → m'.pipeline.routing = m.pipeline.routing) (hsent : m'.sent = m.sent) :
    Told m' := by
  refine ⟨?_, ?_, ?_, ?_, ?_⟩
  · rw [hvpn]
    exact h.vpn
  · rw [hvpn]
    exact fun he => h.early (hearly he)
  · intro hs
    rw [hsubscribed] at hs
    rw [hlost hs]
    exact h.lost hs
  · intro hr
    rw [hvpn, hrestarts hr]
    exact h.routing (hrouting hr)
  · rw [hsent]
    exact h.sent

/-- What the invariant is about. -/
def news (m : TunnelManager) : TunnelThread × VpnManager × Bool × Option Bool × Nat × List StateMessage :=
  (m.thread, m.vpn, m.pipeline.routingSubscribed, m.pipeline.routing, m.restartsStopped, m.sent)

/-- A step that leaves all of that keeps it. -/
theorem Told.congr (h : Told m) (hn : news m' = news m) : Told m' := by
  unfold news at hn
  simp only [Prod.mk.injEq] at hn
  obtain ⟨hthread, hvpn, hsubscribed, hrouting, hrestarts, hsent⟩ := hn
  exact h.goto (fun he => hthread ▸ he) hvpn hsubscribed (fun hr => hrouting ▸ hr) (fun _ => hrestarts) (fun _ => hrouting) hsent

/-- A state is published. -/
theorem Told.acceptNetwork (h : Told m) (state : NetworkConnectionState) (thread : TunnelThread)
    (hearly : Early thread → Early m.thread) : Told { m with
      pipeline := m.pipeline.acceptNetwork state
      thread := thread } :=
  h.goto hearly rfl (ConnectionPipeline.routingSubscribed_acceptNetwork ..)
    (fun hr => by rwa [ConnectionPipeline.routing_acceptNetwork] at hr) (fun _ => rfl)
    (fun _ => ConnectionPipeline.routing_acceptNetwork ..) rfl

/-- Once `FALSE` is published, `TRUE` is not the last. -/
theorem Told.not_routing (h : Told m) : (m.pipeline.acceptRouting false).routing ≠ some true := by
  rw [ConnectionPipeline.routing_acceptRouting]
  split
  · nofun
  · rename_i hs
    rw [h.lost (Bool.of_not_eq_true hs)]
    nofun

/-- A value published to a relay that is not subscribed to is lost. -/
theorem Told.lost_acceptRouting (h : Told m) {routing : Bool} (hs : (m.pipeline.acceptRouting routing).routingSubscribed = false) :
    (m.pipeline.acceptRouting routing).routing = none := by
  rw [ConnectionPipeline.routingSubscribed_acceptRouting] at hs
  rw [ConnectionPipeline.routing_acceptRouting, hs]
  exact h.lost hs

/-- `FALSE` is published, by the thread or for a restart. -/
theorem Told.acceptRouting (h : Told m) (thread : TunnelThread) (restartsStopped : Nat) (hearly : Early thread → Early m.thread) :
    Told { m with
      pipeline := m.pipeline.acceptRouting false
      thread := thread
      restartsStopped := restartsStopped } :=
  ⟨h.vpn, fun he => h.early (hearly he), h.lost_acceptRouting, fun hr => absurd hr h.not_routing, h.sent⟩

/-- Messages are sent that are `CONNECTED` only while traffic is routed. -/
theorem Told.append (h : Told m) {messages : List StateMessage}
    (hm : ∀ message ∈ messages, message.state = .connected → message.routed = true) : Told { m with sent := m.sent ++ messages } := by
  refine ⟨h.vpn, h.early, h.lost, h.routing, ?_⟩
  intro message hmem
  rcases List.mem_append.mp hmem with hold | hnew
  · exact h.sent message hold
  · exact hm message hnew

/-- `routeThroughTunnel`, where it can start what it is called for. -/
theorem Told.routeThroughTunnel (h : Told m) {socksProxyPort : Int} {dupOk : Bool} {mainThread : MainThread}
    (hp : VpnManager.Proper m.vpn (.routeThroughTunnel socksProxyPort dupOk)) : Told { m with
      vpn := m.vpn.routeThroughTunnel socksProxyPort dupOk
      mainThread := mainThread } where
  vpn := h.vpn.routeThroughTunnel hp
  early he := (VpnManager.tunFd_routeThroughTunnel ..).trans (h.early he)
  lost := h.lost
  routing _ := Or.inl (VpnManager.routing_routeThroughTunnel ..)
  sent := h.sent

/-- Emitting a state is no news. -/
theorem news_emitState (m : TunnelManager) (state : NetworkConnectionState) : news (m.emitState state) = news m := by
  unfold emitState
  split <;> rfl

/-- A new pair is no news. -/
theorem news_switchTo (m : TunnelManager) (pair : NetworkConnectionState × Bool) (canSendIntent : Bool) :
    news (m.switchTo pair canSendIntent) = news m := by
  unfold switchTo
  dsimp only
  split
  · split
    · exact news_emitState ..
    · rfl
  · exact news_emitState ..

/-- Keeping a client is no news. -/
theorem news_addClient (m : TunnelManager) (client : Nat) (ping : Bool) : news (m.addClient client ping) = news m := by
  unfold addClient
  dsimp only
  split <;> rfl

/-- The message `REGISTER`. -/
theorem Told.register (h : Told m) {client : Nat} {stateSent statsSent ping : Bool}
    (hn : NewsInTime m (.register client stateSent statsSent ping)) : Told (m.register client stateSent statsSent ping) := by
  have htold : Told (if stateSent then { m with sent := m.sent ++ [⟨client, m.networkConnectionState, m.routed⟩] } else m) := by
    split
    · rename_i hsent
      refine h.append fun message hmem hstate => ?_
      obtain rfl := List.mem_singleton.mp hmem
      exact h.routed (hn hsent hstate)
    · exact h
  unfold TunnelManager.register
  dsimp only
  split
  · exact htold.congr (news_addClient ..)
  · exact htold

/-- One client is sent a state. -/
theorem Told.sendState (h : Told m) {client : Nat} {alive : Bool} (hn : NewsInTime m (.sendState client alive))
    (hs : m.sendState client alive = some m') : Told m' := by
  unfold TunnelManager.sendState at hs
  split at hs
  · rename_i state clients hmain
    obtain ⟨hmem, ⟨⟩⟩ := Option.ite_none_right_eq_some.mp hs
    split
    · rename_i halive
      have hsent : Told { m with sent := m.sent ++ [⟨client, state, m.routed⟩] } := by
        refine h.append fun message hmessage hstate => ?_
        obtain rfl := List.mem_singleton.mp hmessage
        obtain rfl : state = .connected := hstate
        exact h.routed (hn clients hmain hmem halive)
      exact hsent.congr rfl
    · exact h.congr rfl
  · cases hs

/-- The last step of a task. `TRUE` is published while the routing was not stopped. -/
theorem Told.endTask (h : Told m) (hn : NewsInTime m .mainThread) (hs : m.endTask = some m') : Told m' := by
  unfold TunnelManager.endTask at hs
  split at hs
  case h_1 hmain =>
    obtain rfl := Option.some.inj hs
    exact ⟨h.vpn, h.early, h.lost_acceptRouting, fun _ => Or.inl (hn hmain), h.sent⟩
  case h_2 =>
    obtain rfl := Option.some.inj hs
    exact h.congr rfl
  case h_3 =>
    obtain rfl := Option.some.inj hs
    exact h.congr rfl
  case h_4 => cases hs

/-- A statement of the thread. -/
theorem Told.runTunnel (h : Told m) (hs : m.runTunnel = some m') : Told m' := by
  unfold TunnelManager.runTunnel at hs
  split at hs
  case h_1 ht =>
    obtain rfl := Option.some.inj hs
    exact h.acceptNetwork _ _ fun _ => by simp [Early, ht]
  case h_2 ht =>
    obtain rfl := Option.some.inj hs
    exact h.acceptRouting _ _ fun _ => by simp [Early, ht]
  case h_3 ht =>
    obtain rfl := Option.some.inj hs
    exact h.goto (fun _ => by simp [Early, ht]) rfl rfl id (fun _ => rfl) (fun _ => rfl) rfl
  case h_4 =>
    split at hs
    · cases hs
    · obtain rfl := Option.some.inj hs
      exact h.goto nofun rfl rfl id (fun _ => rfl) (fun _ => rfl) rfl
  case h_5 =>
    obtain rfl := Option.some.inj hs
    exact h.acceptNetwork _ _ nofun
  case h_6 =>
    obtain rfl := Option.some.inj hs
    exact h.acceptRouting _ _ nofun
  case h_7 =>
    obtain rfl := Option.some.inj hs
    exact h.goto nofun rfl rfl id (fun _ => rfl) (fun _ => rfl) rfl
  case h_8 => cases hs

/-- The statement `vpnEstablish`. It comes once, so there is no other interface. -/
theorem Told.establish (h : Told m) (ht : m.thread = .establishing) (outcome : EstablishOutcome) : Told (m.establish outcome) := by
  have hfd : m.vpn.tunFd = none := h.early (by simp [Early, ht])
  have hrouting : m.pipeline.routing = some true → 0 < m.restartsStopped := by
    intro hr
    refine (h.routing hr).resolve_left ?_
    rw [h.vpn.not_routing hfd]
    exact Bool.noConfusion
  have hproper : VpnManager.Proper m.vpn (.vpnEstablish outcome) := by
    cases outcome with
    | established address => exact hfd
    | _ => trivial
  have hvpn := h.vpn.vpnEstablish hproper
  unfold TunnelManager.establish
  cases outcome with
  | established address => exact ⟨hvpn, nofun, h.lost, fun hr => Or.inr (hrouting hr), h.sent⟩
  | _ => exact ⟨hvpn, nofun, h.lost, fun hr => Or.inr (hrouting hr), h.sent⟩

/-- A restart stops the routing. -/
theorem Told.restartCompleted (h : Told m) (restartsPending : Nat) : Told { m with
    vpn := m.vpn.stopRouteThroughTunnel
    restartsPending := restartsPending
    restartsStopped := m.restartsStopped + 1 } :=
  ⟨h.vpn.stopRouteThroughTunnel, fun he => VpnManager.tunFd_stopRouteThroughTunnel.trans (h.early he), h.lost,
    fun _ => Or.inr (Nat.succ_pos _), h.sent⟩

/-- What an event does. -/
theorem Told.act {e : TunnelEvent} (h : Told m) (hc : TunnelCommandsAux.Commands m) (hn : NewsInTime m e) (hs : m.act e = some m') :
    Told m' := by
  cases e with
  | subscribeNetwork =>
    obtain rfl := Option.some.inj hs
    exact h.congr rfl
  | subscribeRouting =>
    obtain ⟨_, ⟨⟩⟩ := Option.ite_none_right_eq_some.mp hs
    exact ⟨h.vpn, h.early, nofun, h.routing, h.sent⟩
  | startIntent =>
    obtain rfl := Option.some.inj hs
    unfold TunnelManager.start
    dsimp only
    split <;> exact h.congr rfl
  | stopIntent | unregister | signalStopService | onHomepage =>
    obtain rfl := Option.some.inj hs
    exact h.congr rfl
  | onConnecting | onConnected | onStartedWaitingForNetworkConnectivity | onStoppedWaitingForNetworkConnectivity =>
    obtain rfl := Option.some.inj hs
    exact (h.acceptNetwork _ _ id).congr rfl
  | configCompleted =>
    obtain ⟨hpending, ⟨⟩⟩ := Option.ite_none_right_eq_some.mp hs
    exact h.goto (fun _ => by simp [Early, hc.pending hpending]) rfl rfl id (fun _ => rfl) (fun _ => rfl) rfl
  | register =>
    obtain rfl := Option.some.inj hs
    exact h.register hn
  | stopService =>
    obtain rfl := Option.some.inj hs
    split
    · exact h.congr rfl
    · exact h
  | restartTunnel =>
    obtain rfl := Option.some.inj hs
    split
    · exact (h.acceptNetwork .connecting _ id).congr rfl
    · exact h
  | restartCompleted =>
    unfold TunnelManager.act at hs
    dsimp only at hs
    split at hs
    · cases hs
    · obtain rfl := Option.some.inj hs
      exact h.restartCompleted _
  | restartPublished =>
    unfold TunnelManager.act at hs
    dsimp only at hs
    split at hs
    · cases hs
    · obtain rfl := Option.some.inj hs
      exact h.acceptRouting _ _ id
  | onRevoke =>
    obtain ⟨_, ⟨⟩⟩ := Option.ite_none_left_eq_some.mp hs
    unfold TunnelManager.stopAndWaitForTunnel
    split <;> exact h.congr rfl
  | onRevokeJoined =>
    obtain ⟨_, ⟨⟩⟩ := Option.ite_none_right_eq_some.mp hs
    exact h.congr rfl
  | deliver =>
    unfold TunnelManager.act at hs
    dsimp only at hs
    split at hs
    · cases hs
    · obtain rfl := Option.some.inj hs
      split
      · exact h.congr rfl
      · exact h.congr (news_switchTo ..)
  | routeThroughTunnel =>
    obtain ⟨_, ⟨⟩⟩ := Option.ite_none_right_eq_some.mp hs
    exact h.routeThroughTunnel hn
  | sendState => exact h.sendState hn hs
  | mainThread => exact h.endTask hn hs
  | runTunnel => exact h.runTunnel hs
  | vpnEstablish outcome =>
    obtain ⟨ht, ⟨⟩⟩ := Option.ite_none_right_eq_some.mp hs
    exact h.establish ht outcome
  | startTunneling ok =>
    obtain ⟨ht, ⟨⟩⟩ := Option.ite_none_right_eq_some.mp hs
    cases ok with
    | true => exact h.goto nofun rfl rfl id (fun _ => rfl) (fun _ => rfl) rfl
    | false => exact h.goto nofun rfl rfl id (fun _ => rfl) (fun _ => rfl) rfl
  | vpnTeardown =>
    obtain ⟨_, ⟨⟩⟩ := Option.ite_none_right_eq_some.mp hs
    exact ⟨h.vpn.vpnTeardown, nofun, h.lost, fun hr => absurd hr hn, h.sent⟩

/-- Every run in which the news are in time. -/
theorem told_of_run {es : List TunnelEvent} (h : tunnelManager.RunWhere NewsInTime es m) : Told m := by
  have hboth := h.invariant (fun _ m => TunnelCommandsAux.Commands m ∧ Told m) ?_ ?_
  · exact hboth.2
  · rintro m rfl
    exact ⟨TunnelCommandsAux.commands_new, told_new⟩
  · rintro _ m e m' ⟨hc, htold⟩ hn hs
    exact ⟨hc.step hs, htold.act hc hn (TunnelCommandsAux.act_of_step hs)⟩

end ConnectedStateAux

open ConnectedStateAux

end PsiphonAndroid
