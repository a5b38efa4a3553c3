import PsiphonAndroid.UdpGw.Effects
import PsiphonAndroid.Lib.Transition

/-!
# The client and the server of the UDP gateway

`udpgw/udpgw.c` keeps one socket per connection id for each of its clients: a frame whose id has no socket opens one, a frame
with `UDPGW_CLIENT_FLAG_REBIND` or another address than the socket's closes it first, and a datagram a socket receives goes back
with the id and the address the socket was opened with. The server's list and tree of connections are one list here, in the order
of last use; the address a DNS frame is redirected to and the local port of the socket decide nothing that is modelled.

Each socket and each reply carries, beside what the source has, the pair of the frame that opened the socket. Frames wait in the
buffers of their connections, go one by one onto the connection to the server and arrive in that order; frames of one connection
keep their order, frames of different ones need not. Replies arrive in any order and after any delay.
-/

namespace PsiphonAndroid

open Lib

/-- `struct connection` of `udpgw.c`, with the pair of the frame it was made for. -/
structure GatewayConnection where
  conid : UInt16
  origAddr : BAddr
  owner : ConAddr
  deriving DecidableEq

/-- A packet of `connection_send_to_client` on its way, with the pair the socket belonged to. -/
structure Reply where
  conid : UInt16
  origAddr : BAddr
  data : Bytes
  owner : ConAddr
  deriving DecidableEq

/-- The bytes of a reply. -/
def Reply.bytes (r : Reply) : Bytes := udpgwPacket 0 r.conid r.origAddr r.data

/-- `struct client` of `udpgw.c` with the options it is run with. -/
structure GatewayServer where
  udpMtu : Nat
  maxConnectionsForClient : Nat
  connections : List GatewayConnection
  deriving DecidableEq

namespace GatewayServer

/-- `find_connection`. -/
def findConnection (s : GatewayServer) (conid : UInt16) : Option GatewayConnection := s.connections.find? (·.conid == conid)

/-- `connection_close`: what its flow holds is still sent. -/
def connectionClose (s : GatewayServer) (conid : UInt16) : GatewayServer :=
  { s with connections := s.connections.filter (·.conid != conid) }

/-- `LinkedList1_Remove` and `LinkedList1_Append`. -/
def moveToFront (s : GatewayServer) (con : GatewayConnection) : GatewayServer :=
  { s with connections := (s.connectionClose con.conid).connections ++ [con] }

/-- `connection_init`; `initOk` says whether its allocations and its socket succeed. -/
def connectionInit (s : GatewayServer) (conid : UInt16) (origAddr : BAddr) (owner : ConAddr) (initOk : Bool) : GatewayServer :=
  if initOk then { s with connections := s.connections ++ [⟨conid, origAddr, owner⟩] } else s

/-- The close of the least recently used connection where `num_connections` is at the limit. -/
def makeRoom (s : GatewayServer) : GatewayServer :=
  if s.connections.length = s.maxConnectionsForClient then
    match s.connections with
    | [] => s
    | con :: _ => s.connectionClose con.conid
  else s

/-- The connection of an id, where the frame may use it; `close old` else. -/
def closeOld (s : GatewayServer) (flags : UInt8) (conid : UInt16) (origAddr : BAddr) :
    GatewayServer × Option GatewayConnection :=
  match s.findConnection conid with
  | none => (s, none)
  | some con =>
    if hasFlag flags udpgwClientFlagRebind || !con.origAddr.compare origAddr then (s.connectionClose conid, none)
    else (s, some con)

/-- `client_recv_if_handler_send`, with the pair of the socket the datagram is sent through. -/
def clientRecvIfHandlerSend (s : GatewayServer) (packet : Bytes) (owner : ConAddr) (initOk : Bool) :
    GatewayServer × Option ConAddr :=
  match parseHeader packet with
  | none => (s, none)
  | some (flags, conid, rest) =>
    if hasFlag flags udpgwClientFlagKeepalive then (s, none) else
    match parseAddr flags rest with
    | none => (s, none)
    | some (origAddr, data) =>
      if s.udpMtu < data.length then (s, none) else
      match s.closeOld flags conid origAddr with
      | (s, some con) => (s.moveToFront con, some con.owner)
      | (s, none) => (s.makeRoom.connectionInit conid origAddr owner initOk, if initOk then some owner else none)

/-- `connection_udp_recv_if_handler_send` and `connection_send_to_client`; `bufferOk` says whether the connection's buffer has a
place. -/
def connectionSendToClient (s : GatewayServer) (con : GatewayConnection) (data : Bytes) (bufferOk : Bool) :
    GatewayServer × List Reply :=
  let fits := decide (data.length ≤ udpgwComputeMtu s.udpMtu - (sizeofUdpgwHeader + (udpgwAddr con.origAddr).length))
  (s.moveToFront con, if fits && bufferOk then [⟨con.conid, con.origAddr, data, con.owner⟩] else [])

end GatewayServer

/-- The client, the server and what is between them: the frames in the client's buffers, those handed to the connection to the
server, the last of these (which is sent again when the server goes before it was done), and the replies. Beside it the history:
the client's acts, for every datagram the server sent the pair of its frame and of the socket, and for every datagram handed to
the user the local address and the pair of the socket. -/
structure Gateway where
  client : UdpGwClient
  queue : List Frame
  wire : List Frame
  last : Option Frame
  server : GatewayServer
  replies : List Reply
  acts : List UdpGwAct
  used : List (ConAddr × ConAddr)
  delivered : List (BAddr × ConAddr)

/-- What happens: an event of the client; its `i`-th waiting frame is taken to be sent; the next frame arrives at the server; the
server closes a connection (an error of its socket, or its local port is needed); a socket of the server receives a datagram; the
`i`-th reply arrives at the client; the connection to the server ends. -/
inductive GatewayEvent where
  | client (e : UdpGwEvent)
  | transmit (i : Nat)
  | serverReceives (initOk : Bool)
  | serverCloses (conid : UInt16)
  | serverDatagram (conid : UInt16) (data : Bytes) (bufferOk : Bool)
  | replyArrives (i : Nat)
  | disconnect (resend : Bool)
  deriving DecidableEq

/-- The frames among the acts. -/
def enqueued (acts : List UdpGwAct) : List Frame :=
  acts.filterMap fun
    | .enqueue f => some f
    | _ => none

/-- The local addresses datagrams were handed to. -/
def receivers (acts : List UdpGwAct) : List BAddr :=
  acts.filterMap fun
    | .received localAddr _ _ => some localAddr
    | _ => none

namespace Gateway

/-- At the start: nothing is under way. -/
def init (udpMtu maxConnections serverMtu serverMax : Nat) : Gateway where
  client := UdpGwClient.init udpMtu maxConnections
  queue := []
  wire := []
  last := none
  server := ⟨serverMtu, serverMax, []⟩
  replies := []
  acts := []
  used := []
  delivered := []

/-- The system after a call of the client. -/
def afterClient (g : Gateway) (o : UdpGwClient) (acts : List UdpGwAct) : Gateway :=
  { g with
    client := o
    queue := g.queue ++ enqueued acts
    acts := g.acts ++ acts }

/-- The system after a reply reached the client. -/
def afterReply (g : Gateway) (i : Nat) (owner : ConAddr) (o : UdpGwClient) (acts : List UdpGwAct) : Gateway :=
  { g.afterClient o acts with
    replies := g.replies.eraseIdx i
    delivered := g.delivered ++ (receivers acts).map fun localAddr => (localAddr, owner) }

/-- The system after a frame arrived at the server. -/
def afterFrame (g : Gateway) (f : Frame) (rest : List Frame) (initOk : Bool) : Gateway :=
  let r := g.server.clientRecvIfHandlerSend f.bytes f.conaddr initOk
  { g with
    wire := rest
    server := r.1
    used := g.used ++ r.2.toList.map fun owner => (f.conaddr, owner) }

/-- The system after a socket received a datagram. -/
def afterDatagram (g : Gateway) (con : GatewayConnection) (data : Bytes) (bufferOk : Bool) : Gateway :=
  let r := g.server.connectionSendToClient con data bufferOk
  { g with
    server := r.1
    replies := g.replies ++ r.2 }

/-- The system after the connection to the server ended: the sockets and the replies are gone with it. -/
def afterDisconnect (g : Gateway) (o : UdpGwClient) (resend : Bool) : Gateway :=
  { g with
    client := o
    wire := if resend then g.last.toList else []
    server := { g.server with connections := [] }
    replies := [] }

/-- A call of the client, and the system after it. -/
def lift (r : Option UdpGwClient.Outcome) (f : UdpGwClient → List UdpGwAct → Gateway) : Option (Except UdpGwFault Gateway) :=
  r.map fun r =>
    match r with
    | .error e => .error e
    | .ok (o, acts) => .ok (f o acts)

/-- One event. The client's own events are all but the arrival of a packet and the end of the connection, which are events of the
whole; a frame can be taken when no frame of its connection waits before it; a server takes frames its decoder has room for. -/
def step (g : Gateway) : GatewayEvent → Option (Except UdpGwFault Gateway)
  | .client (.receive _) => none
  | .client .disconnect => none
  | .client e => lift (g.client.step e) g.afterClient
  | .transmit i =>
    match g.queue[i]? with
    | none => none
    | some f =>
      if (g.queue.take i).all (·.conid != f.conid) then some (.ok { g with
        queue := g.queue.eraseIdx i
        wire := g.wire ++ [f]
        last := some f })
      else none
  | .serverReceives initOk =>
    match g.wire with
    | [] => none
    | f :: rest => if f.bytes.length ≤ udpgwComputeMtu g.server.udpMtu then some (.ok (g.afterFrame f rest initOk)) else none
  | .serverCloses conid => some (.ok { g with server := g.server.connectionClose conid })
  | .serverDatagram conid data bufferOk =>
    match g.server.findConnection conid with
    | none => none
    | some con => if data.length ≤ g.server.udpMtu then some (.ok (g.afterDatagram con data bufferOk)) else none
  | .replyArrives i =>
    match g.replies[i]? with
    | none => none
    | some r => lift (g.client.step (.receive r.bytes)) (g.afterReply i r.owner)
  | .disconnect resend => lift (g.client.step .disconnect) fun o _ => g.afterDisconnect o resend

end Gateway

/-- The gateway under every sequence of events; a fault of the client ends the run. -/
def gatewaySystem (udpMtu maxConnections serverMtu serverMax : Nat) : System (Except UdpGwFault Gateway) GatewayEvent where
  init s := s = .ok (Gateway.init udpMtu maxConnections serverMtu serverMax)
  step s e :=
    match s with
    | .error _ => none
    | .ok g => g.step e

end PsiphonAndroid
