import PsiphonAndroid.Addr
import PsiphonAndroid.Flow.StreamSender

/-!
# The SOCKS5 client

`socksclient/BSocksClient.c` with the layouts of `misc/socks_proto.h`. One buffer, reallocated for every message, serves for
sending and for receiving; a message of the server is received in as many pieces as the connection gives. What the allocator
does is left open: `Heap` tells which allocation succeeds and what new memory holds.
-/

namespace PsiphonAndroid

open Lib

/-- `SOCKS_VERSION`. -/
abbrev socksVersion : UInt8 := 5

/-- `SOCKS_METHOD_NO_AUTHENTICATION_REQUIRED`. -/
abbrev socksMethodNoAuthenticationRequired : UInt8 := 0

/-- `SOCKS_METHOD_USERNAME_PASSWORD`. -/
abbrev socksMethodUsernamePassword : UInt8 := 2

/-- `SOCKS_CMD_CONNECT`. -/
abbrev socksCmdConnect : UInt8 := 1

/-- `SOCKS_ATYP_IPV4`. -/
abbrev socksAtypIpv4 : UInt8 := 1

/-- `SOCKS_ATYP_IPV6`. -/
abbrev socksAtypIpv6 : UInt8 := 4

/-- `SOCKS_REP_SUCCEEDED`. -/
abbrev socksRepSucceeded : UInt8 := 0

/-- `sizeof(struct socks_server_hello)`. -/
abbrev sizeofSocksServerHello : Nat := 2

/-- `sizeof(struct socks_request_header)` and `sizeof(struct socks_reply_header)`. -/
abbrev sizeofSocksReplyHeader : Nat := 4

/-- `sizeof(struct socks_addr_ipv4)`. -/
abbrev sizeofSocksAddrIpv4 : Nat := 6

/-- `sizeof(struct socks_addr_ipv6)`. -/
abbrev sizeofSocksAddrIpv6 : Nat := 18

/-- `struct BSocksClient_auth_info`: no authentication, or a user name and a password. -/
inductive AuthInfo where
  | none
  | password (username password : Bytes)
  deriving DecidableEq, Repr

/-- The `auth_type` of an entry. -/
def AuthInfo.authType : AuthInfo → UInt8
  | .none => socksMethodNoAuthenticationRequired
  | .password _ _ => socksMethodUsernamePassword

/-- `STATE_*`. -/
inductive SocksState where
  | connecting
  | sendingHello
  | sentHello
  | sendingPassword
  | sentPassword
  | sendingRequest
  | sentRequest
  | receivedReplyHeader
  | up
  deriving DecidableEq, Repr

/-- `BSOCKSCLIENT_EVENT_*`, the calls of the user's handler. -/
inductive SocksEvent where
  | error
  | up
  | errorClosed
  deriving DecidableEq, Repr

/-- The allocator over a run: whether the `k`-th allocation succeeds, and what the memory it adds holds. -/
structure Heap where
  ok : Nat → Bool
  fresh : Nat → Nat → UInt8

/-- The fields of `BSocksClient`; `recvPending` tells whether the receive interface has an operation, `reported` holds the calls
of the handler and `ended` tells that one of them was an error, after which the client is freed. `sent` and `consumed` are the
bytes given to and taken from the connection. -/
structure BSocksClient where
  heap : Heap
  allocs : Nat
  authInfo : List AuthInfo
  destAddr : BAddr
  state : SocksState
  buffer : Bytes
  sendSender : PacketStreamSender
  recvDest : Nat
  recvLen : Nat
  recvTotal : Nat
  recvPending : Bool
  reported : List SocksEvent
  ended : Bool
  sent : Bytes
  consumed : Bytes

namespace BSocksClient

/-- `BSocksClient_Init`. -/
def init (heap : Heap) (authInfo : List AuthInfo) (destAddr : BAddr) : BSocksClient where
  heap := heap
  allocs := 0
  authInfo := authInfo
  destAddr := destAddr
  state := .connecting
  buffer := []
  sendSender := .init
  recvDest := 0
  recvLen := 0
  recvTotal := 0
  recvPending := false
  reported := []
  ended := false
  sent := []
  consumed := []

/-- `report_error`. -/
def reportError (o : BSocksClient) (event : SocksEvent) : BSocksClient :=
  { o with reported := o.reported ++ [event], ended := true }

/-- `reserve_buffer`: `BRealloc` keeps the bytes that fit, and what it adds holds anything. -/
def reserveBuffer (o : BSocksClient) (size : Nat) : Option BSocksClient :=
  if o.heap.ok o.allocs then
    some { o with
      buffer := o.buffer.take size ++ (List.range (size - o.buffer.length)).map (o.heap.fresh o.allocs)
      allocs := o.allocs + 1 }
  else none

/-- `do_receive`. -/
def doReceive (o : BSocksClient) : BSocksClient := { o with recvPending := true }

/-- `start_receive`, with `dest` an offset into the buffer. -/
def startReceive (o : BSocksClient) (dest total : Nat) : BSocksClient :=
  doReceive { o with recvDest := dest, recvLen := 0, recvTotal := total }

/-- `PacketPassInterface_Sender_Send` of the first `size` bytes of the buffer. -/
def sendBuffer (o : BSocksClient) (size : Nat) : BSocksClient :=
  { o with sendSender := o.sendSender.submit (slice o.buffer 0 size) }

/-- The loop that writes the hello methods, from offset `off` on. -/
def writeMethods (buffer : Bytes) (off : Nat) : List AuthInfo → Bytes
  | [] => buffer
  | ai :: rest => writeMethods (memcpy buffer off [ai.authType]) (off + 1) rest

/-- `connector_handler`; `initOk` tells whether `BConnection_Init` succeeds. -/
def connectorHandler (o : BSocksClient) (isError initOk : Bool) : BSocksClient :=
  if isError then o.reportError .error
  else if ¬initOk then o.reportError .error
  else
    let o := { o with sendSender := .init }
    let numAuthInfo := o.authInfo.length
    if numAuthInfo = 0 ∨ 255 < numAuthInfo then o.reportError .error
    else
      match o.reserveBuffer (2 + numAuthInfo) with
      | none => o.reportError .error
      | some o =>
        let o := { o with buffer := memcpy o.buffer 0 [socksVersion, UInt8.ofNat numAuthInfo] }
        let o := { o with buffer := writeMethods o.buffer 2 o.authInfo }
        { o.sendBuffer (2 + numAuthInfo) with state := .sendingHello }

/-- The password packet written into a buffer, pointer step by pointer step. -/
def writePassword (buffer username password : Bytes) : Bytes :=
  let buffer := memcpy buffer 0 [1]
  let buffer := memcpy buffer 1 [UInt8.ofNat username.length]
  let buffer := memcpy buffer 2 username
  let buffer := memcpy buffer (2 + username.length) [UInt8.ofNat password.length]
  memcpy buffer (2 + username.length + 1) password

/-- The part of the request after its header, and its address type. -/
def requestAddr : BAddr → UInt8 × Bytes
  | .ipv4 ip port => (socksAtypIpv4, be32 ip ++ be16 port)
  | .ipv6 ip port => (socksAtypIpv6, ip.bytes ++ be16 port)
  | .none => (0, [])

/-- `auth_finished`. -/
def authFinished (o : BSocksClient) : BSocksClient :=
  let addr := requestAddr o.destAddr
  let size := sizeofSocksReplyHeader + addr.2.length
  match o.reserveBuffer size with
  | none => o.reportError .error
  | some o =>
    let o := { o with buffer := memcpy o.buffer sizeofSocksReplyHeader addr.2 }
    let o := { o with buffer := memcpy o.buffer 0 [socksVersion, socksCmdConnect, 0, addr.1] }
    { o.sendBuffer size with state := .sendingRequest }

/-- The `STATE_SENT_HELLO` case of `recv_handler_done`. -/
def receivedHello (o : BSocksClient) : BSocksClient :=
  if byteAt o.buffer 0 ≠ socksVersion then o.reportError .error
  else
    match o.authInfo.find? (fun ai => ai.authType = byteAt o.buffer 1) with
    | none => o.reportError .error
    | some .none => o.authFinished
    | some (.password username password) =>
      if username.length = 0 ∨ 255 < username.length ∨ password.length = 0 ∨ 255 < password.length then o.reportError .error
      else
        let size := 1 + 1 + username.length + 1 + password.length
        match o.reserveBuffer size with
        | none => o.reportError .error
        | some o =>
          let o := { o with buffer := writePassword o.buffer username password }
          { o.sendBuffer size with state := .sendingPassword }

/-- The length of the address in a reply, by its type. -/
def replyAddrLen (atyp : UInt8) : Option Nat :=
  if atyp = socksAtypIpv4 then some sizeofSocksAddrIpv4
  else if atyp = socksAtypIpv6 then some sizeofSocksAddrIpv6
  else none

/-- The `STATE_SENT_REQUEST` case of `recv_handler_done`. -/
def receivedReplyHeader (o : BSocksClient) : BSocksClient :=
  if byteAt o.buffer 0 ≠ socksVersion then o.reportError .error
  else if byteAt o.buffer 1 ≠ socksRepSucceeded then o.reportError .error
  else
    match replyAddrLen (byteAt o.buffer 3) with
    | none => o.reportError .error
    | some addrLen => { o.startReceive sizeofSocksReplyHeader addrLen with state := .receivedReplyHeader }

/-- The `STATE_SENT_PASSWORD` case of `recv_handler_done`. -/
def receivedPasswordReply (o : BSocksClient) : BSocksClient :=
  if byteAt o.buffer 0 ≠ 1 then o.reportError .error
  else if byteAt o.buffer 1 ≠ 0 then o.reportError .error
  else o.authFinished

/-- The `STATE_RECEIVED_REPLY_HEADER` case of `recv_handler_done`. -/
def receivedReply (o : BSocksClient) : BSocksClient :=
  { o with buffer := [], state := .up, reported := o.reported ++ [.up] }

/-- `recv_handler_done`. -/
def recvHandlerDone (o : BSocksClient) (dataLen : Nat) : BSocksClient :=
  let o := { o with recvLen := o.recvLen + dataLen }
  if o.recvLen < o.recvTotal then o.doReceive
  else
    match o.state with
    | .sentHello => o.receivedHello
    | .sentRequest => o.receivedReplyHeader
    | .sentPassword => o.receivedPasswordReply
    | .receivedReplyHeader => o.receivedReply
    | _ => o

/-- `send_handler_done`. -/
def sendHandlerDone (o : BSocksClient) : BSocksClient :=
  match o.state with
  | .sendingHello =>
    match o.reserveBuffer sizeofSocksServerHello with
    | none => o.reportError .error
    | some o => { o.startReceive 0 sizeofSocksServerHello with state := .sentHello }
  | .sendingRequest =>
    match o.reserveBuffer (sizeofSocksReplyHeader + max sizeofSocksAddrIpv4 sizeofSocksAddrIpv6) with
    | none => o.reportError .error
    | some o => { o.startReceive 0 sizeofSocksReplyHeader with state := .sentRequest }
  | .sendingPassword =>
    match o.reserveBuffer 2 with
    | none => o.reportError .error
    | some o => { o.startReceive 0 2 with state := .sentPassword }
  | _ => o

/-- `connection_handler`; `recvClosed` tells `BCONNECTION_EVENT_RECVCLOSED` from an error. -/
def connectionHandler (o : BSocksClient) (recvClosed : Bool) : BSocksClient :=
  if o.state = .up ∧ recvClosed then o.reportError .errorClosed else o.reportError .error

/-- The control I/O exists: the connection is there, and the client is not up. -/
def controlIo (o : BSocksClient) : Bool := o.state ≠ .connecting ∧ o.state ≠ .up

/-- What can happen to the client: the connector reports, the control sender takes a step or reports, the connection completes
a receive, the connection fails. -/
inductive Event where
  | connected (isError initOk : Bool)
  | sender (e : PacketStreamSender.Event)
  | runSendDone
  | received (data : Bytes)
  | connection (recvClosed : Bool)

/-- One event. -/
def step (o : BSocksClient) (e : Event) : Option BSocksClient :=
  if o.ended then none
  else
    match e with
    | .connected isError initOk => if o.state = .connecting then some (o.connectorHandler isError initOk) else none
    | .sender e =>
      if o.controlIo then (o.sendSender.step e).map fun r => { o with sendSender := r.1, sent := o.sent ++ r.2 } else none
    | .runSendDone =>
      if o.controlIo then o.sendSender.runDone.map fun s => sendHandlerDone { o with sendSender := s } else none
    | .received data =>
      if o.recvPending ∧ 0 < data.length ∧ data.length ≤ o.recvTotal - o.recvLen then
        some (recvHandlerDone
          { o with
            buffer := memcpy o.buffer (o.recvDest + o.recvLen) data
            recvPending := false
            consumed := o.consumed ++ data } data.length)
      else none
    | .connection recvClosed => if o.state = .connecting then none else some (o.connectionHandler recvClosed)

end BSocksClient

/-- A client for the given methods and destination, from `BSocksClient_Init` on. -/
def socksSystem (heap : Heap) (authInfo : List AuthInfo) (destAddr : BAddr) : System BSocksClient BSocksClient.Event where
  init o := o = .init heap authInfo destAddr
  step := BSocksClient.step

end PsiphonAndroid
