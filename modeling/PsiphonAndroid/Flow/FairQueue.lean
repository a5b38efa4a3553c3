import Mathlib.Data.List.Basic
import Mathlib.Data.List.Nodup
import Mathlib.Logic.Function.Basic
import PsiphonAndroid.Addr
import PsiphonAndroid.Lib.Transition

/-!
# The fair queue

`flow/PacketPassFairQueue.c`: flows share an output by virtual times. A flow's time grows by the weight of each packet it has sent, the
queued flow with the least time sends next, and a flow that comes back is raised to the current time, which is the least of those that
are sending, queued or have just sent. A flow is a block of memory named by its address; the tree of queued flows is the list of its
nodes in their order. An `ASSERT` that does not hold is a fault. Beside its fields a queue carries the flows of the packets it has
accepted, the calls it has made of its output and of its flows, and the packets that were queued in a flow when it was freed; a packet is
named by its number in the order of acceptance, which stands for the address of its bytes.
-/

namespace PsiphonAndroid

open Lib

/-- `FAIRQUEUE_MAX_TIME`. -/
abbrev fairqueueMaxTime : Nat := 2 ^ 64 - 1

/-- The failure of an `ASSERT`. -/
inductive FairQueueFault where
  | assertion
  deriving DecidableEq

/-- `PacketPassFairQueueFlow`, with its queued packet. -/
structure FairQueueFlow where
  time : Nat
  isQueued : Bool
  data : Nat
  dataLen : Nat

/-- `PacketPassInterface_Sender_Send` on the output, and `PacketPassInterface_Done` on the input of a flow. -/
inductive FairQueueCall where
  | send (data dataLen : Nat)
  | done (flow : Nat)
  deriving DecidableEq

/-- `PacketPassFairQueue`, with the value of `FAIRQUEUE_MAX_TIME`, which the header allows to be reduced, and the MTU of its output. -/
structure FairQueue where
  maxTime : Nat
  mtu : Nat
  packetWeight : Nat
  mem : Nat → FairQueueFlow
  sendingFlow : Option Nat
  sendingLen : Nat
  previousFlow : Option Nat
  queuedTree : List Nat
  flowsList : List Nat
  freeing : Bool
  scheduleJob : Bool
  accepted : List Nat
  calls : List FairQueueCall
  lost : List Nat

namespace FairQueue

/-- `ASSERT`. -/
def ensure (b : Bool) : Except FairQueueFault Unit := if b then .ok () else .error .assertion

/-- The time of a flow. -/
def time (m : FairQueue) (flow : Nat) : Nat := (m.mem flow).time

/-- `compare_flows`. -/
def compareFlows (m : FairQueue) (f1 f2 : Nat) : Int :=
  let cmp := bCompare (m.time f1) (m.time f2)
  if cmp ≠ 0 then cmp else bCompare f1 f2

/-- `PacketPassFairQueue__Tree_Insert`; nothing where the flow is there already. -/
def treeInsert (m : FairQueue) (flow : Nat) : List Nat → Option (List Nat)
  | [] => some [flow]
  | f :: tree =>
    if m.compareFlows flow f < 0 then some (flow :: f :: tree)
    else if m.compareFlows flow f = 0 then none
    else (treeInsert m flow tree).map (f :: ·)

/-- A write to the time of a flow. -/
def setTime (m : FairQueue) (flow time : Nat) : FairQueue :=
  { m with mem := Function.update m.mem flow { m.mem flow with time := time } }

/-- A write to the queued packet of a flow. -/
def setQueued (m : FairQueue) (flow : Nat) (isQueued : Bool) (data dataLen : Nat) : FairQueue :=
  { m with mem := Function.update m.mem flow { m.mem flow with isQueued := isQueued, data := data, dataLen := dataLen } }

/-- `get_current_time`. -/
def getCurrentTime (m : FairQueue) : Nat :=
  match m.sendingFlow with
  | some flow => m.time flow
  | none =>
    match m.queuedTree.head?, m.previousFlow with
    | some first, some previous => if m.time previous < m.time first then m.time previous else m.time first
    | some first, none => m.time first
    | none, some previous => m.time previous
    | none, none => 0

/-- The loop of `increment_sent_flow` that subtracts time from all flows; the just finished flow may underflow. -/
def subtractTime (flow subtract : Nat) : List Nat → FairQueue → Except FairQueueFault FairQueue
  | [], m => .ok m
  | someflow :: flows, m =>
    if m.time someflow < subtract ∧ someflow ≠ flow then do
      ensure (!(m.mem someflow).isQueued)
      subtractTime flow subtract flows (m.setTime someflow 0)
    else subtractTime flow subtract flows (m.setTime someflow ((m.time someflow + 2 ^ 64 - subtract) % 2 ^ 64))

/-- `increment_sent_flow`. -/
def incrementSentFlow (m : FairQueue) (flow amount : Nat) : Except FairQueueFault FairQueue := do
  ensure (amount ≤ m.maxTime)
  ensure (!(m.mem flow).isQueued)
  ensure m.sendingFlow.isNone
  let m ←
    if m.maxTime - m.time flow < amount then
      match m.queuedTree.head? with
      | none => subtractTime flow (m.time flow) m.flowsList m
      | some first => do
        ensure (m.mem first).isQueued
        subtractTime flow (m.time first) m.flowsList m
    else pure m
  return m.setTime flow ((m.time flow + amount) % 2 ^ 64)

/-- `schedule`. -/
def schedule (m : FairQueue) : Except FairQueueFault FairQueue := do
  ensure m.sendingFlow.isNone
  ensure m.previousFlow.isNone
  ensure (!m.freeing)
  match m.queuedTree with
  | [] => .error .assertion
  | qflow :: _ => do
    ensure (m.mem qflow).isQueued
    let m := { m with queuedTree := m.queuedTree.erase qflow }
    let m := m.setQueued qflow false (m.mem qflow).data (m.mem qflow).dataLen
    let m := { m with calls := m.calls ++ [FairQueueCall.send (m.mem qflow).data (m.mem qflow).dataLen] }
    return { m with sendingFlow := some qflow, sendingLen := (m.mem qflow).dataLen }

/-- `schedule_job_handler`. -/
def scheduleJobHandler (m : FairQueue) : Except FairQueueFault FairQueue := do
  ensure m.sendingFlow.isNone
  ensure (!m.freeing)
  let m := { m with previousFlow := none }
  if m.queuedTree ≠ [] then m.schedule else return m

/-- `input_handler_send`; the packet gets the next number. -/
def inputHandlerSend (m : FairQueue) (flow dataLen : Nat) : Except FairQueueFault FairQueue := do
  ensure (m.sendingFlow ≠ some flow)
  ensure (!(m.mem flow).isQueued)
  ensure (!m.freeing)
  let m :=
    if m.previousFlow = some flow then { m with previousFlow := none }
    else m.setTime flow (max (m.time flow) m.getCurrentTime)
  match m.treeInsert flow m.queuedTree with
  | none => .error .assertion
  | some tree => do
    let data := m.accepted.length
    let m := { m with queuedTree := tree, accepted := m.accepted ++ [flow] }
    let m := m.setQueued flow true data dataLen
    if m.sendingFlow.isNone ∧ m.scheduleJob = false then m.schedule else return m

/-- `output_handler_done`. -/
def outputHandlerDone (m : FairQueue) : Except FairQueueFault FairQueue :=
  match m.sendingFlow with
  | none => .error .assertion
  | some flow => do
    ensure m.previousFlow.isNone
    ensure (!m.scheduleJob)
    ensure (!m.freeing)
    ensure (!(m.mem flow).isQueued)
    let m := { m with sendingFlow := none, previousFlow := some flow }
    let m ← m.incrementSentFlow flow (m.packetWeight + m.sendingLen)
    return { m with scheduleJob := true, calls := m.calls ++ [FairQueueCall.done flow] }

/-- `PacketPassFairQueue_Init`, of any packet weight (the source asserts that it is positive); nothing where the MTU of the output is too
large. -/
def init (maxTime mtu packetWeight : Nat) (mem : Nat → FairQueueFlow) : Option FairQueue :=
  if mtu ≤ maxTime ∧ packetWeight ≤ maxTime - mtu then
    some ⟨maxTime, mtu, packetWeight, mem, none, 0, none, [], [], false, false, [], [], []⟩
  else none

/-- `PacketPassFairQueueFlow_Init`. -/
def flowInit (m : FairQueue) (flow : Nat) : Except FairQueueFault FairQueue := do
  ensure (!m.freeing)
  return { m with
    mem := Function.update m.mem flow { m.mem flow with time := 0, isQueued := false }
    flowsList := m.flowsList ++ [flow] }

/-- `PacketPassFairQueueFlow_Free`. -/
def flowFree (m : FairQueue) (flow : Nat) : Except FairQueueFault FairQueue := do
  ensure (m.freeing || m.sendingFlow ≠ some flow)
  return { m with
    sendingFlow := if m.sendingFlow = some flow then none else m.sendingFlow
    previousFlow := if m.previousFlow = some flow then none else m.previousFlow
    queuedTree := if (m.mem flow).isQueued then m.queuedTree.erase flow else m.queuedTree
    flowsList := m.flowsList.erase flow
    lost := if (m.mem flow).isQueued then m.lost ++ [(m.mem flow).data] else m.lost }

end FairQueue

/-! ## Runs -/

/-- What happens to the queue: a flow is made or freed, its user sends a packet, the output is done with a packet, the schedule job
runs, and the queue is prepared to be freed. -/
inductive FairQueueEvent where
  | flowInit (flow : Nat)
  | flowFree (flow : Nat)
  | send (flow dataLen : Nat)
  | done
  | runScheduleJob
  | prepareFree
  deriving DecidableEq

namespace FairQueue

/-- One event, where its caller may make it: a block is initialised that is no flow, a flow that is not busy is freed, a flow sends one
packet at a time, of at most the MTU, the output is done with a packet it was given, and after `PacketPassFairQueue_PrepareFree` there
is no more I/O. -/
def step (m : FairQueue) : FairQueueEvent → Option (Except FairQueueFault FairQueue)
  | .flowInit flow => if flow ∉ m.flowsList ∧ m.freeing = false then some (m.flowInit flow) else none
  | .flowFree flow =>
    if flow ∈ m.flowsList ∧ (m.freeing = true ∨ m.sendingFlow ≠ some flow) then some (m.flowFree flow) else none
  | .send flow dataLen =>
    if flow ∈ m.flowsList ∧ m.sendingFlow ≠ some flow ∧ (m.mem flow).isQueued = false ∧ dataLen ≤ m.mtu ∧ m.freeing = false then
      some (m.inputHandlerSend flow dataLen)
    else none
  | .done => if m.sendingFlow.isSome ∧ m.freeing = false then some m.outputHandlerDone else none
  | .runScheduleJob =>
    if m.scheduleJob = true ∧ m.freeing = false then some ({ m with scheduleJob := false }.scheduleJobHandler) else none
  | .prepareFree => some (.ok { m with freeing := true })

end FairQueue

/-- A queue from its initialisation on, under every sequence of events; a fault ends the run. -/
def fairQueueSystemUpTo (maxTime mtu packetWeight : Nat) : System (Except FairQueueFault FairQueue) FairQueueEvent where
  init s := ∃ mem m, FairQueue.init maxTime mtu packetWeight mem = some m ∧ s = .ok m
  step s e :=
    match s with
    | .error _ => none
    | .ok m => m.step e

/-- The same with the `FAIRQUEUE_MAX_TIME` of the header. -/
abbrev fairQueueSystem (mtu packetWeight : Nat) : System (Except FairQueueFault FairQueue) FairQueueEvent :=
  fairQueueSystemUpTo fairqueueMaxTime mtu packetWeight

end PsiphonAndroid
