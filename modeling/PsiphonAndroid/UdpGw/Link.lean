import PsiphonAndroid.Flow.StreamSender

/-!
# The link to the UDP gateway server

The sending side of `udpgw_client/UdpGwClient.c` below its queue: `flow/PacketPassConnector.c` keeps the packet it was given
while servers come and go, `UdpGwClient_ConnectServer` puts a fresh `PacketStreamSender` behind it and
`UdpGwClient_DisconnectServer` takes it away, at any moment. The history of the link is the packets the connector accepted and,
for every server connection, the bytes sent on it and the packets it reported done.
-/

namespace PsiphonAndroid

open Lib

/-- `PacketPassConnector`; `inPacket` is `none` where the source has `in_len == -1`, and `output` is the stream sender whose
input the `output` pointer names. -/
structure PacketPassConnector where
  inputMtu : Nat
  input : PacketPassInterface
  inPacket : Option Bytes
  output : Option PacketStreamSender
  deriving DecidableEq, Repr

namespace PacketPassConnector

/-- `PacketPassConnector_Init`. -/
def init (mtu : Nat) : PacketPassConnector := { inputMtu := mtu, input := .init, inPacket := none, output := none }

/-- `input_handler_send`. -/
def inputHandlerSend (o : PacketPassConnector) (data : Bytes) : PacketPassConnector :=
  { o with inPacket := some data, output := o.output.map (·.submit data) }

/-- `output_handler_done`. -/
def outputHandlerDone (o : PacketPassConnector) : PacketPassConnector :=
  { o with inPacket := none, input := o.input.done }

/-- `PacketPassConnector_ConnectOutput`. -/
def connectOutput (o : PacketPassConnector) (output : PacketStreamSender) : PacketPassConnector :=
  match o.inPacket with
  | some data => { o with output := some (output.submit data) }
  | none => { o with output := some output }

/-- `PacketPassConnector_DisconnectOutput`. -/
def disconnectOutput (o : PacketPassConnector) : PacketPassConnector := { o with output := none }

end PacketPassConnector

/-- What was done on one server connection: the bytes sent, and the packets the connector was told are done. -/
structure ServerConnection where
  sent : Bytes
  finished : List Bytes
  deriving DecidableEq, Repr

/-- The link and its history: the packets accepted, the connections of the past in order, and the present one. -/
structure UdpgwLink where
  sendConnector : PacketPassConnector
  accepted : List Bytes
  past : List ServerConnection
  current : Option ServerConnection
  deriving DecidableEq, Repr

namespace UdpgwLink

/-- All server connections, in order. -/
def connections (o : UdpgwLink) : List ServerConnection := o.past ++ o.current.toList

/-- `UdpGwClient_ConnectServer`, where `ok` tells whether `PacketProtoDecoder_Init` succeeds. -/
def connectServer (o : UdpgwLink) (ok : Bool) : UdpgwLink :=
  if ok then { o with sendConnector := o.sendConnector.connectOutput .init, current := some { sent := [], finished := [] } }
  else o

/-- `UdpGwClient_DisconnectServer`. -/
def disconnectServer (o : UdpgwLink) : UdpgwLink :=
  { o with sendConnector := o.sendConnector.disconnectOutput, past := o.connections, current := none }

/-- What can happen on the link. The user of the connector sends a packet; the jobs of the connector's input run; the stream
sender takes one of its steps; its report runs; a server is connected or disconnected. -/
inductive Event where
  | send (data : Bytes)
  | runInput
  | runInputDone
  | sender (e : PacketStreamSender.Event)
  | runSenderDone
  | connectServer (ok : Bool)
  | disconnectServer
  deriving DecidableEq, Repr

/-- One event. A user sends only when the interface is free and no more than its MTU; a server is connected only when there is
none, and disconnected only when there is one. -/
def step (o : UdpgwLink) : Event → Option UdpgwLink
  | .send data =>
    if o.sendConnector.input.state = .none ∧ data.length ≤ o.sendConnector.inputMtu then
      some { o with sendConnector := { o.sendConnector with input := o.sendConnector.input.senderSend data } }
    else none
  | .runInput =>
    if o.sendConnector.input.state = .operationPending then
      let data := o.sendConnector.input.jobOperationData
      some { o with
        sendConnector := { o.sendConnector with input := { o.sendConnector.input with state := .busy } }.inputHandlerSend data
        accepted := o.accepted ++ [data] }
    else none
  | .runInputDone =>
    if o.sendConnector.input.state = .donePending then
      some { o with sendConnector := { o.sendConnector with input := { o.sendConnector.input with state := .none } } }
    else none
  | .sender e =>
    match o.sendConnector.output, o.current with
    | some s, some c => (s.step e).map fun r =>
      { o with
        sendConnector := { o.sendConnector with output := some r.1 }
        current := some { c with sent := c.sent ++ r.2 } }
    | _, _ => none
  | .runSenderDone =>
    match o.sendConnector.output, o.current with
    | some s, some c => s.runDone.map fun s =>
      { o with
        sendConnector := { o.sendConnector with output := some s }.outputHandlerDone
        current := some { c with finished := c.finished ++ o.sendConnector.inPacket.toList } }
    | _, _ => none
  | .connectServer ok => if o.sendConnector.output = none then some (o.connectServer ok) else none
  | .disconnectServer => if o.sendConnector.output = none then none else some o.disconnectServer

end UdpgwLink

/-- The link of a client with the given packet MTU, from `UdpGwClient_Init` on. -/
def linkSystem (ppMtu : Nat) : System UdpgwLink UdpgwLink.Event where
  init o := o = { sendConnector := .init ppMtu, accepted := [], past := [], current := none }
  step := UdpgwLink.step

end PsiphonAndroid
