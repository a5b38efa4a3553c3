import PsiphonAndroid.Lib.Transition
import Mathlib.Logic.Function.Basic

/-!
# The VPN manager

`VpnManager`: the tun file descriptor, the thread that runs tun2socks on a dup of it, and the flag `isRoutingThroughTunnel`. Its public
methods are synchronized, so a caller sees them as functions of the state; `vpnSystem` is every sequence of calls. File descriptors
and threads are numbered in the order they were made. Beside its fields the manager carries the descriptors `establish()` gave out and
those that were closed.
-/

namespace PsiphonAndroid

open Lib

/-- `PrivateAddress`. -/
structure PrivateAddress where
  ipAddress : String
  subnet : String
  prefixLength : Nat
  router : String
  deriving DecidableEq

/-- A tun2socks thread: its number, the tun descriptor whose dup it runs on, and what it was started with. -/
structure Tun2SocksThread where
  id : Nat
  fd : Nat
  router : String
  socksProxyPort : Int
  deriving DecidableEq

/-- The fields of `VpnManager`. -/
structure VpnManager where
  tunFd : Option Nat
  isRoutingThroughTunnel : Bool
  tun2SocksThread : Option Tun2SocksThread
  privateAddress : Option PrivateAddress
  /-- How many descriptors `establish()` gave out: they are `0, …, nextFd - 1`. -/
  nextFd : Nat
  /-- How many threads were started. -/
  nextThread : Nat
  closedFds : List Nat
  deriving DecidableEq

/-- What `vpnEstablish` meets: no private address, no host service, `establish()` giving null, or a descriptor. -/
inductive EstablishOutcome where
  | noAddress
  | noHost (address : PrivateAddress)
  | notPrepared (address : PrivateAddress)
  | established (address : PrivateAddress)
  deriving DecidableEq

namespace VpnManager

/-- The constructor. -/
def new : VpnManager := ⟨none, false, none, none, 0, 0, []⟩

/-- `vpnEstablish`; where it throws, only the private address has changed. -/
def vpnEstablish (v : VpnManager) : EstablishOutcome → VpnManager
  | .noAddress => v
  | .noHost address => { v with privateAddress := some address }
  | .notPrepared address => { v with privateAddress := some address }
  | .established address =>
    { v with
      privateAddress := some address
      tunFd := some v.nextFd
      nextFd := v.nextFd + 1
      isRoutingThroughTunnel := false }

/-- `startTun2Socks` on a dup of `fd`. -/
def startTun2Socks (v : VpnManager) (fd : Nat) (socksProxyPort : Int) : VpnManager :=
  match v.tun2SocksThread with
  | some _ => v
  | none =>
    { v with
      tun2SocksThread := some ⟨v.nextThread, fd, (v.privateAddress.map PrivateAddress.router).getD "", socksProxyPort⟩
      nextThread := v.nextThread + 1 }

/-- `routeThroughTunnel`; `dupOk` says that `dup()` does not throw. -/
def routeThroughTunnel (v : VpnManager) (socksProxyPort : Int) (dupOk : Bool) : VpnManager :=
  if v.isRoutingThroughTunnel then v else
  let v := { v with isRoutingThroughTunnel := true }
  match v.tunFd with
  | none => v
  | some fd =>
    if socksProxyPort ≤ 0 then v else
    if dupOk then v.startTun2Socks fd socksProxyPort else v

/-- `stopTun2Socks`, to the return of `join`. -/
def stopTun2Socks (v : VpnManager) : VpnManager := { v with tun2SocksThread := none }

/-- `stopRouteThroughTunnel`. -/
def stopRouteThroughTunnel (v : VpnManager) : VpnManager :=
  if v.isRoutingThroughTunnel then stopTun2Socks { v with isRoutingThroughTunnel := false } else v

/-- The end of `vpnTeardown`, after `stopRouteThroughTunnel`. -/
def closeTunFd (v : VpnManager) : VpnManager :=
  { v with
    tunFd := none
    closedFds := v.closedFds ++ v.tunFd.toList
    isRoutingThroughTunnel := false }

/-- `vpnTeardown`. -/
def vpnTeardown (v : VpnManager) : VpnManager := v.stopRouteThroughTunnel.closeTunFd

end VpnManager

/-- A call of a public method. -/
inductive VpnCall where
  | vpnEstablish (outcome : EstablishOutcome)
  | routeThroughTunnel (socksProxyPort : Int) (dupOk : Bool)
  | stopRouteThroughTunnel
  | vpnTeardown
  deriving DecidableEq

/-- One call. -/
def VpnManager.call (v : VpnManager) : VpnCall → VpnManager
  | .vpnEstablish outcome => v.vpnEstablish outcome
  | .routeThroughTunnel socksProxyPort dupOk => v.routeThroughTunnel socksProxyPort dupOk
  | .stopRouteThroughTunnel => v.stopRouteThroughTunnel
  | .vpnTeardown => v.vpnTeardown

/-- The manager under every sequence of calls. -/
def vpnSystem : System VpnManager VpnCall where
  init v := v = .new
  step v c := some (v.call c)

/-! ## Threads

The same manager with the steps of its threads. A caller of `stopTun2Socks` sets `g_terminate` and then waits for the thread; the
thread clears `g_terminate` when it enters, and looks at it whenever its timer runs. -/

/-- Where a tun2socks thread is: started, in `run()`, out of the loop of `run()`, ended. -/
inductive ThreadPhase where
  | created
  | running
  | quitting
  | done
  deriving DecidableEq

/-- Where the caller that holds the lock is in `stopTun2Socks`; `teardown` says that `vpnTeardown` called it. -/
inductive StopPhase where
  | idle
  | terminating (teardown : Bool)
  | joining (teardown : Bool)
  deriving DecidableEq

/-- The manager, the threads, the caller that holds the lock, `g_terminate`, and for which threads `terminateTun2SocksNative` was
called. -/
structure VpnThreads where
  vpn : VpnManager
  gTerminate : Bool
  phase : Nat → ThreadPhase
  stop : StopPhase
  requested : Nat → Bool

/-- A step: a call that does not wait, the start of a stop, the two statements of `stopTun2Socks` (`join` returns or is interrupted),
and the steps of a thread (its entry up to the compare-and-swap, its timer, an end of its own, and its return). -/
inductive VpnStep where
  | vpnEstablish (outcome : EstablishOutcome)
  | routeThroughTunnel (socksProxyPort : Int) (dupOk : Bool)
  | beginStop (teardown : Bool)
  | terminate
  | join
  | interrupted
  | enter (id : Nat)
  | timer (id : Nat)
  | fail (id : Nat)
  | ret (id : Nat)
  deriving DecidableEq

namespace VpnThreads

/-- The caller is done with `stopTun2Socks`. -/
def finishStop (w : VpnThreads) (vpn : VpnManager) (teardown : Bool) : VpnThreads :=
  { w with
    vpn := if teardown then vpn.closeTunFd else vpn
    stop := .idle }

/-- One step, where it can come. -/
def step (w : VpnThreads) : VpnStep → Option VpnThreads
  | .vpnEstablish outcome => if w.stop = .idle then some { w with vpn := w.vpn.vpnEstablish outcome } else none
  | .routeThroughTunnel socksProxyPort dupOk =>
    if w.stop = .idle then some { w with vpn := w.vpn.routeThroughTunnel socksProxyPort dupOk } else none
  | .beginStop teardown =>
    if w.stop = .idle then
      if w.vpn.isRoutingThroughTunnel then
        let vpn := { w.vpn with isRoutingThroughTunnel := false }
        if vpn.tun2SocksThread.isSome then some { w with
          vpn := vpn
          stop := .terminating teardown }
        else some (w.finishStop vpn teardown)
      else some (w.finishStop w.vpn teardown)
    else none
  | .terminate =>
    match w.stop, w.vpn.tun2SocksThread with
    | .terminating teardown, some t => some { w with
        gTerminate := true
        requested := Function.update w.requested t.id true
        stop := .joining teardown }
    | _, _ => none
  | .join =>
    match w.stop, w.vpn.tun2SocksThread with
    | .joining teardown, some t => if w.phase t.id = .done then some (w.finishStop w.vpn.stopTun2Socks teardown) else none
    | _, _ => none
  | .interrupted =>
    match w.stop with
    | .joining teardown => some (w.finishStop w.vpn.stopTun2Socks teardown)
    | _ => none
  | .enter id =>
    if id < w.vpn.nextThread ∧ w.phase id = .created then some { w with
      gTerminate := false
      phase := Function.update w.phase id .running }
    else none
  | .timer id =>
    if w.phase id = .running then some { w with
      phase := if w.gTerminate then Function.update w.phase id .quitting else w.phase }
    else none
  | .fail id =>
    if w.phase id = .running then some { w with phase := Function.update w.phase id .quitting } else none
  | .ret id =>
    if w.phase id = .quitting then some { w with phase := Function.update w.phase id .done } else none

end VpnThreads

/-- The manager and its threads, under every interleaving. -/
def vpnThreads : System VpnThreads VpnStep where
  init w := w = ⟨.new, false, fun _ => .created, .idle, fun _ => false⟩
  step := VpnThreads.step

end PsiphonAndroid
