import PsiphonAndroid.Vpn.VpnManager

/-!
# The tunnel service

`TunnelManager`: the commands to the service, the thread that runs `runTunnel`, and the pipeline from the two relays to the clients.
The threads share the relays, the VPN manager, the home pages and the stop signal, and a step has one write to these. So a task of the
main thread (an intent, a message, a callback of tunnel-core, a delivery of the pipeline) that calls `routeThroughTunnel` and publishes,
or tells one client after another, is several steps, and the tunnel thread runs between them. The configurations and `onRevoke` may
come on other threads, at any time. `onDestroy` ends the instance and is not a step. The home pages,
the clients and the connection state are modelled with what is sent; logs, notifications, intents to the activity and transfer
statistics are not.
-/

namespace PsiphonAndroid

open Lib

/-- `NetworkConnectionState`. -/
inductive NetworkConnectionState where
  | connected
  | connecting
  | waitingForNetwork
  deriving DecidableEq

/-! ## The pipeline -/

/-- `connectionObservable` and the operators behind it: whether the two relays are subscribed to and their last values
(`combineLatest`), the pairs on their way to the main thread (`observeOn`), the last pair and the last state that passed
`distinctUntilChanged`, and whether `switchMap` is on `waitSendIntentAndRouteThroughTunnelCompletable`. What is published on a relay
before it is subscribed to is lost. -/
structure ConnectionPipeline where
  networkSubscribed : Bool
  routingSubscribed : Bool
  network : Option NetworkConnectionState
  routing : Option Bool
  queue : List (NetworkConnectionState × Bool)
  lastPair : Option (NetworkConnectionState × Bool)
  lastState : Option NetworkConnectionState
  waiting : Bool
  deriving DecidableEq

namespace ConnectionPipeline

/-- `combineLatest` emits once both relays have a value. -/
def emit (p : ConnectionPipeline) : ConnectionPipeline :=
  match p.network, p.routing with
  | some network, some routing => { p with queue := p.queue ++ [(network, routing)] }
  | _, _ => p

/-- `m_networkConnectionStatePublishRelay.accept`. -/
def acceptNetwork (p : ConnectionPipeline) (state : NetworkConnectionState) : ConnectionPipeline :=
  if p.networkSubscribed then emit { p with network := some state } else p

/-- `m_isRoutingThroughTunnelPublishRelay.accept`. -/
def acceptRouting (p : ConnectionPipeline) (routing : Bool) : ConnectionPipeline :=
  if p.routingSubscribed then emit { p with routing := some routing } else p

end ConnectionPipeline

/-! ## The service -/

/-- Where the tunnel thread is in `runTunnel`: not there, at the two publications at its start, at `homePages.clear`, at
`vpnEstablish`, at `startTunneling`, at `await`, at the publications, at `vpnTeardown` and at `stop` of the `finally` block, ended. -/
inductive TunnelThread where
  | absent
  | starting
  | startingRouting
  | clearingHomePages
  | establishing
  | startTunneling
  | awaiting
  | stopping
  | stoppingRouting
  | tearingDown
  | stoppingTunnel
  | ended
  deriving DecidableEq

/-- Where the main thread is in a task: in none, at `routeThroughTunnel`, at the publication of `TRUE` after it, at the
`homePages.clear` of `onConnecting`, or with these clients still to be sent a state. -/
inductive MainThread where
  | idle
  | routing
  | publishingRouting
  | clearingHomePages
  | sendingState (state : NetworkConnectionState) (clients : List Nat)
  deriving DecidableEq

/-- A command to the service. -/
inductive TunnelCommand where
  | start
  | stop
  deriving DecidableEq

/-- A `TUNNEL_CONNECTION_STATE` message to a client, and whether traffic was routed when it was sent. -/
structure StateMessage where
  client : Nat
  state : NetworkConnectionState
  routed : Bool
  deriving DecidableEq

/-- The fields of `TunnelManager` and where its threads are. `stopSignal` is the count of `m_tunnelThreadStopSignal`, `hasThread` says
that `m_tunnelThread` is not null, `revoking` that `onRevoke` joins the thread. Of the restarts, some await their configuration and
some have stopped the routing and not yet published it. The last five are history: the messages sent, the last command, whether the
stop signal was counted down since the first start, and whether `vpnEstablish` and `startTunneling` failed. -/
structure TunnelManager where
  mainThread : MainThread
  firstStart : Bool
  stopSignal : Option Nat
  configPending : Bool
  hasThread : Bool
  thread : TunnelThread
  revoking : Bool
  restartsPending : Nat
  restartsStopped : Nat
  clients : List Nat
  homePages : List String
  networkConnectionState : NetworkConnectionState
  vpn : VpnManager
  pipeline : ConnectionPipeline
  sent : List StateMessage
  lastCommand : Option TunnelCommand
  stopped : Bool
  establishFailed : Bool
  startFailed : Bool

/-- A step of the service. -/
inductive TunnelEvent where
  | subscribeNetwork
  | subscribeRouting
  | startIntent
  | stopIntent
  | configCompleted
  | register (client : Nat) (stateSent statsSent ping : Bool)
  | unregister (client : Nat)
  | stopService (client : Nat)
  | restartTunnel (client : Nat)
  | restartCompleted
  | restartPublished
  | signalStopService
  | onRevoke
  | onRevokeJoined
  | onConnecting
  | onConnected
  | onStartedWaitingForNetworkConnectivity
  | onStoppedWaitingForNetworkConnectivity
  | onHomepage (url : String)
  | deliver (canSendIntent : Bool)
  | routeThroughTunnel (socksProxyPort : Int) (dupOk : Bool)
  | sendState (client : Nat) (alive : Bool)
  | mainThread
  | runTunnel
  | vpnEstablish (outcome : EstablishOutcome)
  | startTunneling (ok : Bool)
  | vpnTeardown

/-- The step begins a task of the main thread. -/
def TunnelEvent.isTask : TunnelEvent → Bool
  | .startIntent | .stopIntent | .register .. | .unregister _ | .stopService _ | .restartTunnel _ | .signalStopService
  | .onConnecting | .onConnected | .onStartedWaitingForNetworkConnectivity | .onStoppedWaitingForNetworkConnectivity
  | .onHomepage _ | .deliver _ => true
  | _ => false

namespace TunnelManager

/-- The service after `onCreate`. -/
def new : TunnelManager :=
  { mainThread := .idle
    firstStart := true
    stopSignal := none
    configPending := false
    hasThread := false
    thread := .absent
    revoking := false
    restartsPending := 0
    restartsStopped := 0
    clients := []
    homePages := []
    networkConnectionState := .connecting
    vpn := .new
    pipeline := ⟨false, false, none, none, [], none, none, false⟩
    sent := []
    lastCommand := none
    stopped := false
    establishFailed := false
    startFailed := false }

variable (m : TunnelManager)

/-- The interface is established, and tun2socks was started on it and not stopped. -/
def routed : Bool :=
  match m.vpn.tun2SocksThread, m.vpn.tunFd with
  | some t, some fd => t.fd = fd
  | _, _ => false

/-- `countDown` of the stop signal. A stop intent that finds the signal null or down calls `stopSelf` instead, which changes nothing
here. -/
def countDown : TunnelManager :=
  { m with
    stopSignal := m.stopSignal.map fun count => count - 1
    lastCommand := some .stop
    stopped := m.stopped || !m.firstStart }

/-- `stopAndWaitForTunnel`, up to the join: without a thread it returns before the signal is counted down. -/
def stopAndWaitForTunnel : TunnelManager :=
  if m.hasThread then { m.countDown with revoking := true } else { m with lastCommand := some .stop }

/-- `onStartCommand` with a start: only the first one does anything. -/
def start : TunnelManager :=
  let m := { m with lastCommand := some .start }
  if m.firstStart then { m with
    firstStart := false
    stopSignal := some 1
    configPending := true }
  else m

/-- `doOnSuccess` of the configuration: the thread is made and started. -/
def startThread : TunnelManager :=
  { m with
    configPending := false
    hasThread := true
    thread := .starting }

/-- `doOnNext` of the pipeline: the state is kept, and the clients are to be sent it, unless it is the last one. -/
def emitState (state : NetworkConnectionState) : TunnelManager :=
  if m.pipeline.lastState = some state then m else { m with
    pipeline := { m.pipeline with lastState := some state }
    networkConnectionState := state
    mainThread := .sendingState state m.clients }

/-- The pipeline waits for an activity when there is a home page and no activity to send it to. -/
def mustWait (canSendIntent : Bool) : Bool := !m.homePages.isEmpty && !canSendIntent

/-- The function of `switchMap` on a new pair. -/
def switchTo (pair : NetworkConnectionState × Bool) (canSendIntent : Bool) : TunnelManager :=
  let m := { m with pipeline := { m.pipeline with
    lastPair := some pair
    waiting := false } }
  if pair = (.connected, false) then
    if m.mustWait canSendIntent then
      let m := m.emitState .connecting
      { m with pipeline := { m.pipeline with waiting := true } }
    else { m with mainThread := .routing }
  else m.emitState pair.1

/-- The end of `REGISTER`: the client is kept, and may end a wait for an activity. -/
def addClient (client : Nat) (ping : Bool) : TunnelManager :=
  let m := { m with clients := if client ∈ m.clients then m.clients else m.clients ++ [client] }
  if m.pipeline.waiting && ping then { m with
    pipeline := { m.pipeline with waiting := false }
    mainThread := .routing }
  else m

/-- The message `REGISTER`: the client is sent the state and then the statistics, and is kept unless it is found dead. -/
def register (client : Nat) (stateSent statsSent ping : Bool) : TunnelManager :=
  let m := if stateSent then { m with sent := m.sent ++ [⟨client, m.networkConnectionState, m.routed⟩] } else m
  if stateSent && statsSent then m.addClient client ping else m

/-- One turn of `sendClientMessage`, whose order is that of a hash map; a client found dead is removed. -/
def sendState (client : Nat) (alive : Bool) : Option TunnelManager :=
  match m.mainThread with
  | .sendingState state clients =>
    if client ∈ clients then
      let m := { m with mainThread := .sendingState state (clients.filter (· ≠ client)) }
      some (if alive then { m with sent := m.sent ++ [⟨client, state, m.routed⟩] }
        else { m with clients := m.clients.filter (· ≠ client) })
    else none
  | _ => none

/-- The last step of a task of the main thread. -/
def endTask : Option TunnelManager :=
  match m.mainThread with
  | .publishingRouting => some { m with
      pipeline := m.pipeline.acceptRouting true
      mainThread := .idle }
  | .clearingHomePages => some { m with
      homePages := []
      mainThread := .idle }
  | .sendingState _ [] => some { m with mainThread := .idle }
  | _ => none

/-- The statements of `runTunnel` other than the three with events of their own. `await` waits for the stop signal; on null it throws,
which ends in the `finally` block too. -/
def runTunnel : Option TunnelManager :=
  match m.thread with
  | .starting => some { m with
      pipeline := m.pipeline.acceptNetwork .connecting
      thread := .startingRouting }
  | .startingRouting => some { m with
      pipeline := m.pipeline.acceptRouting false
      thread := .clearingHomePages }
  | .clearingHomePages => some { m with
      homePages := []
      thread := .establishing }
  | .awaiting =>
    match m.stopSignal with
    | some (_ + 1) => none
    | _ => some { m with thread := .stopping }
  | .stopping => some { m with
      pipeline := m.pipeline.acceptNetwork .connecting
      thread := .stoppingRouting }
  | .stoppingRouting => some { m with
      pipeline := m.pipeline.acceptRouting false
      thread := .tearingDown }
  | .stoppingTunnel => some { m with thread := .ended }
  | _ => none

/-- The statement `vpnEstablish`. -/
def establish (outcome : EstablishOutcome) : TunnelManager :=
  let m := { m with vpn := m.vpn.vpnEstablish outcome }
  match outcome with
  | .established _ => { m with thread := .startTunneling }
  | _ => { m with
      establishFailed := true
      thread := .stopping }

/-- What an event does, where it can come. -/
def act : TunnelEvent → Option TunnelManager
  | .subscribeNetwork => some { m with pipeline := { m.pipeline with networkSubscribed := true } }
  | .subscribeRouting => if m.pipeline.networkSubscribed then some { m with pipeline := { m.pipeline with routingSubscribed := true } }
      else none
  | .startIntent => some m.start
  | .stopIntent => some m.countDown
  | .configCompleted => if m.configPending then some m.startThread else none
  | .register client stateSent statsSent ping => some (m.register client stateSent statsSent ping)
  | .unregister client => some { m with clients := m.clients.filter (· ≠ client) }
  | .stopService client => some (if client ∈ m.clients then { m.countDown with clients := [] } else m)
  | .restartTunnel client => some (if client ∈ m.clients then { m with
        pipeline := m.pipeline.acceptNetwork .connecting
        restartsPending := m.restartsPending + 1 }
      else m)
  | .restartCompleted =>
    match m.restartsPending with
    | 0 => none
    | n + 1 => some { m with
        vpn := m.vpn.stopRouteThroughTunnel
        restartsPending := n
        restartsStopped := m.restartsStopped + 1 }
  | .restartPublished =>
    match m.restartsStopped with
    | 0 => none
    | n + 1 => some { m with
        pipeline := m.pipeline.acceptRouting false
        restartsStopped := n }
  | .signalStopService => some m.countDown
  | .onRevoke => if m.revoking then none else some m.stopAndWaitForTunnel
  | .onRevokeJoined => if m.revoking ∧ m.thread = .ended then some { m with
        stopSignal := none
        hasThread := false
        revoking := false }
      else none
  | .onConnecting => some { m with
      pipeline := m.pipeline.acceptNetwork .connecting
      mainThread := .clearingHomePages }
  | .onConnected => some { m with pipeline := m.pipeline.acceptNetwork .connected }
  | .onStartedWaitingForNetworkConnectivity => some { m with pipeline := m.pipeline.acceptNetwork .waitingForNetwork }
  | .onStoppedWaitingForNetworkConnectivity => some { m with pipeline := m.pipeline.acceptNetwork .connecting }
  | .onHomepage url => some { m with homePages := if url ∈ m.homePages then m.homePages else m.homePages ++ [url] }
  | .deliver canSendIntent =>
    match m.pipeline.queue with
    | [] => none
    | pair :: rest =>
      let m := { m with pipeline := { m.pipeline with queue := rest } }
      some (if m.pipeline.lastPair = some pair then m else m.switchTo pair canSendIntent)
  | .routeThroughTunnel socksProxyPort dupOk => if m.mainThread = .routing then some { m with
        vpn := m.vpn.routeThroughTunnel socksProxyPort dupOk
        mainThread := .publishingRouting }
      else none
  | .sendState client alive => m.sendState client alive
  | .mainThread => m.endTask
  | .runTunnel => m.runTunnel
  | .vpnEstablish outcome => if m.thread = .establishing then some (m.establish outcome) else none
  | .startTunneling ok => if m.thread = .startTunneling then some (if ok then { m with thread := .awaiting } else { m with
        startFailed := true
        thread := .stopping })
      else none
  | .vpnTeardown => if m.thread = .tearingDown then some { m with
        vpn := m.vpn.vpnTeardown
        thread := .stoppingTunnel }
      else none

/-- One step. A task of the main thread begins when the one before it is done. -/
def step (e : TunnelEvent) : Option TunnelManager :=
  if e.isTask && decide (m.mainThread ≠ .idle) then none else m.act e

end TunnelManager

/-- The service, under every order of its steps. -/
def tunnelManager : System TunnelManager TunnelEvent where
  init m := m = .new
  step := TunnelManager.step

end PsiphonAndroid
