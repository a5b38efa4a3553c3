import PsiphonAndroid.UdpGw.Proto
import PsiphonAndroid.Lib.Index
import Mathlib.Logic.Function.Basic

/-!
# The UDP gateway client

The connection tables of `udpgw_client/UdpGwClient.c`. A connection carries the datagrams of one pair of a local and a remote
address under a connection id; two trees index the connections by address pair and by id, and a list keeps them in the order of
last use, so that the first of the list can be taken over when the table is full.

A connection is a block of memory named by a number. An `ASSERT` that does not hold, a dereference of a null pointer and a loop
that does not end are faults. What a call does to the outside, and the moments a connection is bound to a pair, are its acts.
Behind a connection there is a `BufferWriter` in front of a `PacketBuffer`: `outHave` is its `out_have`, set when the buffer
offers a place for a packet (`output_handler_recv`) and cleared when a packet is written to it.
-/

namespace PsiphonAndroid

open Lib

/-- `struct UdpGwClient_conaddr`. -/
structure ConAddr where
  localAddr : BAddr
  remoteAddr : BAddr
  deriving DecidableEq

/-- `uint16_comparator`. -/
def uint16Comparator (v1 v2 : UInt16) : Int := bCompare v1.toNat v2.toNat

/-- `conaddr_comparator`. -/
def conaddrComparator (v1 v2 : ConAddr) : Int :=
  let r := v1.remoteAddr.compareOrder v2.remoteAddr
  if r ≠ 0 then r else v1.localAddr.compareOrder v2.localAddr

/-- `struct UdpGwClient_connection`. -/
structure UdpGwConnection where
  conaddr : ConAddr
  firstFlags : UInt8
  firstData : Bytes
  conid : UInt16
  outHave : Bool

instance : Inhabited UdpGwConnection := ⟨⟨⟨.none, .none⟩, 0, [], 0, false⟩⟩

/-- A packet as `connection_send` writes it: the flags it was called with, the connection's id and pair, and the datagram. -/
structure Frame where
  flags : UInt8
  conid : UInt16
  conaddr : ConAddr
  data : Bytes
  deriving DecidableEq

/-- The bytes written to the buffer. -/
def Frame.bytes (f : Frame) : Bytes := udpgwPacket f.flags f.conid f.conaddr.remoteAddr f.data

/-- The first byte of the frame has `UDPGW_CLIENT_FLAG_REBIND`. -/
def Frame.carriesRebind (f : Frame) : Bool := hasFlag (byteAt f.bytes 0) udpgwClientFlagRebind

/-- What went wrong. -/
inductive UdpGwFault where
  | assertion
  | nullPointer
  | endlessLoop
  deriving DecidableEq

/-- What a call does: a connection id is bound to a pair, a frame is put into its connection's buffer, and a datagram is handed
to the user (`handler_received`). -/
inductive UdpGwAct where
  | bind (conid : UInt16) (conaddr : ConAddr)
  | enqueue (frame : Frame)
  | received (localAddr remoteAddr : BAddr) (data : Bytes)
  deriving DecidableEq

/-- The jobs a new connection schedules: its buffer asks the `BufferWriter` for a packet, and the first packet is sent. -/
inductive UdpGwJob where
  | outputHandlerRecv (con : Nat)
  | connectionFirstJobHandler (con : Nat)
  deriving DecidableEq

/-- `UdpGwClient`: `mem` is the memory of the connections and `nextCon` the block the next `malloc` gives; `pending` is the
stack of jobs. -/
structure UdpGwClient where
  udpMtu : Nat
  maxConnections : Nat
  udpgwMtu : Nat
  mem : Nat → UdpGwConnection
  nextCon : Nat
  connectionsTreeByConaddr : Index ConAddr Nat
  connectionsTreeByConid : Index UInt16 Nat
  connectionsList : List Nat
  numConnections : Nat
  nextConid : Nat
  haveServer : Bool
  pending : List UdpGwJob

namespace UdpGwClient

/-- The outcome of a call: a fault, or the state after it and the acts. -/
abbrev Outcome : Type := Except UdpGwFault (UdpGwClient × List UdpGwAct)

/-- Running on after a call, with the acts of both. -/
def andThen (r : Outcome) (f : UdpGwClient → Outcome) : Outcome :=
  match r with
  | .error e => .error e
  | .ok (o, acts) =>
    match f o with
    | .error e => .error e
    | .ok (o', acts') => .ok (o', acts ++ acts')

/-- `UdpGwClient_Init`: the connections are limited to the number of ids. -/
def init (udpMtu maxConnections : Nat) : UdpGwClient where
  udpMtu := udpMtu
  maxConnections := if 65535 + 1 < maxConnections then 65535 + 1 else maxConnections
  udpgwMtu := udpgwComputeMtu udpMtu
  mem := fun _ => default
  nextCon := 0
  connectionsTreeByConaddr := .empty
  connectionsTreeByConid := .empty
  connectionsList := []
  numConnections := 0
  nextConid := 0
  haveServer := false
  pending := []

/-- `find_connection_by_conaddr`. -/
def findConnectionByConaddr (o : UdpGwClient) (conaddr : ConAddr) : Option Nat :=
  o.connectionsTreeByConaddr.lookup conaddrComparator conaddr

/-- `find_connection_by_conid`. -/
def findConnectionByConid (o : UdpGwClient) (conid : UInt16) : Option Nat :=
  o.connectionsTreeByConid.lookup uint16Comparator conid

/-- The loop of `find_unused_conid`; `next_conid` is an `int`, cut to sixteen bits where it is looked up and returned. -/
def findUnusedConidLoop : Nat → UdpGwClient → Except UdpGwFault (UdpGwClient × UInt16)
  | 0, _ => .error .endlessLoop
  | fuel + 1, o =>
    match o.findConnectionByConid (UInt16.ofNat o.nextConid) with
    | none => .ok (o, UInt16.ofNat o.nextConid)
    | some _ => findUnusedConidLoop fuel { o with nextConid := circleNext o.maxConnections o.nextConid }

/-- `find_unused_conid`: as many rounds of the loop as there are ids. -/
def findUnusedConid (o : UdpGwClient) : Except UdpGwFault (UdpGwClient × UInt16) :=
  if o.numConnections < o.maxConnections then findUnusedConidLoop o.maxConnections o else .error .assertion

/-- The write to `out_have` of a connection's `BufferWriter`. -/
def setOutHave (o : UdpGwClient) (con : Nat) (outHave : Bool) : UdpGwClient :=
  { o with mem := Function.update o.mem con { o.mem con with outHave := outHave } }

/-- `output_handler_recv` of `flow/BufferWriter.c`. -/
def outputHandlerRecv (o : UdpGwClient) (con : Nat) : Outcome :=
  if (o.mem con).outHave then .error .assertion else .ok (o.setOutHave con true, [])

/-- `connection_send`: `BufferWriter_StartPacket`, the packet, and `BufferWriter_EndPacket` with its check of the length. -/
def connectionSend (o : UdpGwClient) (con : Nat) (flags : UInt8) (data : Bytes) : Outcome :=
  if o.udpMtu < data.length then .error .assertion else
  if !(o.mem con).outHave then .ok (o, []) else
  let frame : Frame := ⟨flags, (o.mem con).conid, (o.mem con).conaddr, data⟩
  if o.udpgwMtu < frame.bytes.length then .error .assertion else
  .ok (o.setOutHave con false, [.enqueue frame])

/-- `connection_first_job_handler`. -/
def connectionFirstJobHandler (o : UdpGwClient) (con : Nat) : Outcome :=
  o.connectionSend con (udpgwClientFlagRebind ||| (o.mem con).firstFlags) (o.mem con).firstData

/-- One scheduled job. -/
def executeJob (o : UdpGwClient) : UdpGwJob → Outcome
  | .outputHandlerRecv con => o.outputHandlerRecv con
  | .connectionFirstJobHandler con => o.connectionFirstJobHandler con

/-- The given jobs, in order. -/
def executeAll (o : UdpGwClient) : List UdpGwJob → Outcome
  | [] => .ok (o, [])
  | job :: jobs => andThen (o.executeJob job) fun o => executeAll o jobs

/-- The scheduled jobs, the one set last first. -/
def executeJobs (o : UdpGwClient) : Outcome := executeAll { o with pending := [] } o.pending

/-- `connection_init`. `mallocOk` and `flowOk` say whether `malloc` and `PacketProtoFlow_Init` succeed; the jobs are set in the
order first job, buffer, and so run the other way round. -/
def connectionInit (o : UdpGwClient) (conaddr : ConAddr) (flags : UInt8) (data : Bytes) (mallocOk flowOk : Bool) : Outcome :=
  if ¬o.numConnections < o.maxConnections then .error .assertion else
  if (o.findConnectionByConaddr conaddr).isSome then .error .assertion else
  if o.udpMtu < data.length then .error .assertion else
  if !mallocOk then .ok (o, []) else
  match o.findUnusedConid with
  | .error e => .error e
  | .ok (o, conid) =>
    let con := o.nextCon
    let o := { o with
      nextCon := con + 1
      mem := Function.update o.mem con ⟨conaddr, flags, data, conid, false⟩ }
    if !flowOk then .ok (o, []) else
    match o.connectionsTreeByConaddr.insert conaddrComparator (o.mem con).conaddr con with
    | none => .error .assertion
    | some treeByConaddr =>
      match o.connectionsTreeByConid.insert uint16Comparator (o.mem con).conid con with
      | none => .error .assertion
      | some treeByConid =>
        let o := { o with
          connectionsTreeByConaddr := treeByConaddr
          connectionsTreeByConid := treeByConid
          connectionsList := o.connectionsList ++ [con]
          numConnections := o.numConnections + 1
          pending := .outputHandlerRecv con :: .connectionFirstJobHandler con :: o.pending }
        .ok (o, [.bind conid conaddr])

/-- `connection_free`. -/
def connectionFree (o : UdpGwClient) (con : Nat) : UdpGwClient :=
  { o with
    numConnections := o.numConnections - 1
    connectionsList := o.connectionsList.erase con
    connectionsTreeByConid := o.connectionsTreeByConid.remove con
    connectionsTreeByConaddr := o.connectionsTreeByConaddr.remove con }

/-- The loop of `UdpGwClient_Free`: while there is a first connection it is freed. -/
def freeConnections : Nat → UdpGwClient → UdpGwClient
  | 0, o => o
  | fuel + 1, o =>
    match o.connectionsList with
    | [] => o
    | con :: _ => freeConnections fuel (o.connectionFree con)

/-- `reuse_connection`: the least recently used connection is taken out of the tree, bound to the new pair and put back. -/
def reuseConnection (o : UdpGwClient) (conaddr : ConAddr) : Except UdpGwFault (UdpGwClient × Nat) :=
  if (o.findConnectionByConaddr conaddr).isSome then .error .assertion else
  if ¬0 < o.numConnections then .error .assertion else
  match o.connectionsList with
  | [] => .error .nullPointer
  | con :: _ =>
    let o := { o with
      connectionsTreeByConaddr := o.connectionsTreeByConaddr.remove con
      mem := Function.update o.mem con { o.mem con with conaddr := conaddr } }
    match o.connectionsTreeByConaddr.insert conaddrComparator (o.mem con).conaddr con with
    | none => .error .assertion
    | some treeByConaddr => .ok ({ o with connectionsTreeByConaddr := treeByConaddr }, con)

/-- `LinkedList1_Remove` and `LinkedList1_Append`: a connection in use goes to the end of the list. -/
def moveToFront (o : UdpGwClient) (con : Nat) : UdpGwClient := { o with connectionsList := moveToEnd o.connectionsList con }

/-- `UdpGwClient_SubmitPacket`. -/
def submitPacket (o : UdpGwClient) (localAddr remoteAddr : BAddr) (isDns : Bool) (data : Bytes) (mallocOk flowOk : Bool) :
    Outcome :=
  if ¬(localAddr.IsIp ∧ remoteAddr.IsIp ∧ data.length ≤ o.udpMtu) then .error .assertion else
  let conaddr : ConAddr := ⟨localAddr, remoteAddr⟩
  let flags := if isDns then udpgwClientFlagDns else 0
  match o.findConnectionByConaddr conaddr with
  | some con => (o.moveToFront con).connectionSend con flags data
  | none =>
    if o.numConnections = o.maxConnections then
      match o.reuseConnection conaddr with
      | .error e => .error e
      | .ok (o, con) =>
        andThen (.ok (o, [.bind (o.mem con).conid conaddr])) fun o =>
          (o.moveToFront con).connectionSend con (flags ||| udpgwClientFlagRebind) data
    else o.connectionInit conaddr flags data mallocOk flowOk

/-- `recv_interface_handler_send`. -/
def recvInterfaceHandlerSend (o : UdpGwClient) (data : Bytes) : Outcome :=
  if !o.haveServer then .error .assertion else
  if o.udpgwMtu < data.length then .error .assertion else
  match parseHeader data with
  | none => .ok (o, [])
  | some (flags, conid, data) =>
    match parseAddr flags data with
    | none => .ok (o, [])
    | some (remoteAddr, data) =>
      if o.udpMtu < data.length then .ok (o, []) else
      match o.findConnectionByConid conid with
      | none => .ok (o, [])
      | some con =>
        if (o.mem con).conaddr.remoteAddr.compareOrder remoteAddr ≠ 0 then .ok (o, []) else
        .ok (o.moveToFront con, [.received (o.mem con).conaddr.localAddr (o.mem con).conaddr.remoteAddr data])

/-- `UdpGwClient_ConnectServer`; `decoderOk` says whether `PacketProtoDecoder_Init` succeeds. -/
def connectServer (o : UdpGwClient) (decoderOk : Bool) : Outcome :=
  if o.haveServer then .error .assertion else
  if !decoderOk then .ok (o, []) else .ok ({ o with haveServer := true }, [])

/-- `UdpGwClient_DisconnectServer`. -/
def disconnectServer (o : UdpGwClient) : Outcome :=
  if !o.haveServer then .error .assertion else .ok ({ o with haveServer := false }, [])

end UdpGwClient

/-! ## Runs -/

/-- What happens to the client: the user submits a datagram, the server's decoder hands it a packet, a connection's buffer has
room again, a server connects and disconnects. -/
inductive UdpGwEvent where
  | submit (localAddr remoteAddr : BAddr) (isDns : Bool) (data : Bytes) (mallocOk flowOk : Bool)
  | receive (data : Bytes)
  | bufferReady (con : Nat)
  | connect (decoderOk : Bool)
  | disconnect
  deriving DecidableEq

namespace UdpGwClient

/-- One event and the jobs it schedules. An event happens where its caller may make it: `tun2socks.c` submits datagrams of at
most `udp_mtu` bytes between IP addresses, a decoder hands over at most `udpgw_mtu` bytes, and only while there is a server. -/
def step (o : UdpGwClient) : UdpGwEvent → Option Outcome
  | .submit localAddr remoteAddr isDns data mallocOk flowOk =>
    if localAddr.IsIp ∧ remoteAddr.IsIp ∧ data.length ≤ o.udpMtu then
      some (andThen (o.submitPacket localAddr remoteAddr isDns data mallocOk flowOk) executeJobs)
    else none
  | .receive data => if o.haveServer ∧ data.length ≤ o.udpgwMtu then some (o.recvInterfaceHandlerSend data) else none
  | .bufferReady con =>
    if con ∈ o.connectionsList ∧ (o.mem con).outHave = false then some (o.outputHandlerRecv con) else none
  | .connect decoderOk => if o.haveServer then none else some (o.connectServer decoderOk)
  | .disconnect => if o.haveServer then some o.disconnectServer else none

end UdpGwClient

end PsiphonAndroid
