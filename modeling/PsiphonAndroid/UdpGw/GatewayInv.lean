import PsiphonAndroid.UdpGw.Gateway

/-!
# What is under way between client and server

The frames, sockets and replies of the gateway each belong to a connection id and a pair. `Sound` is what holds of them in every
run: they can be read back, and their ids are ids of connections. `step_cases` says what an event can do; an event that is not one
of the client's brings nothing new under way.
-/

namespace PsiphonAndroid

open Lib

/-- A frame the other side can read: an IP address, the flags `connection_send` adds to and the server acts on not yet set, and
a datagram of at most `m` bytes. -/
structure FrameOk (m : Nat) (f : Frame) : Prop where
  ip : f.conaddr.remoteAddr.IsIp
  ipv6 : hasFlag f.flags udpgwClientFlagIpv6 = false
  keepalive : hasFlag f.flags udpgwClientFlagKeepalive = false
  size : f.data.length ≤ m

namespace Gateway

/-- The connection an event takes over, and the pair it is bound to. -/
def takenOver (g : Gateway) : GatewayEvent → Option (Nat × ConAddr)
  | .client e => g.client.takenOver e
  | _ => none

/-- The frames that may still arrive at the server. -/
def inFlight (g : Gateway) : List Frame := g.queue ++ g.wire ++ g.last.toList

/-- Every frame, socket and reply, as its id and its pair. -/
def underWay (g : Gateway) : List (UInt16 × ConAddr) :=
  g.inFlight.map (fun f => (f.conid, f.conaddr)) ++ g.server.connections.map (fun c => (c.conid, c.owner)) ++
    g.replies.map (fun r => (r.conid, r.owner))

theorem mem_underWay {g : Gateway} {x : UInt16 × ConAddr} :
    x ∈ g.underWay ↔ (∃ f ∈ g.inFlight, (f.conid, f.conaddr) = x) ∨ (∃ c ∈ g.server.connections, (c.conid, c.owner) = x) ∨
      ∃ r ∈ g.replies, (r.conid, r.owner) = x := by
  unfold underWay
  rw [List.mem_append, List.mem_append, List.mem_map, List.mem_map, List.mem_map, or_assoc]

theorem mem_inFlight {g : Gateway} {f : Frame} : f ∈ g.inFlight ↔ f ∈ g.queue ∨ f ∈ g.wire ∨ g.last = some f := by
  unfold inFlight
  rw [List.mem_append, List.mem_append, or_assoc, Option.mem_toList]

/-- What holds in every run. -/
structure Sound (g : Gateway) : Prop where
  tables : UdpGwClient.Tables g.client
  pending : g.client.pending = []
  frames : ∀ f ∈ g.inFlight, FrameOk g.client.udpMtu f
  sockets : ∀ c ∈ g.server.connections, c.origAddr = c.owner.remoteAddr ∧ c.origAddr.IsIp
  replies : ∀ r ∈ g.replies, r.origAddr = r.owner.remoteAddr ∧ r.origAddr.IsIp
  known : ∀ x ∈ g.underWay, ∃ n ∈ g.client.connectionsList, (g.client.mem n).conid = x.1

/-- What an event can do. -/
inductive Effect (g : Gateway) (e : GatewayEvent) (g' : Gateway) : Prop
  | client (ce : UdpGwEvent) (o : UdpGwClient) (acts : List UdpGwAct) (he : e = .client ce)
      (heff : UdpGwClient.Effect g.client ce o acts) (hg : g' = g.afterClient o acts)
  | transmit (a b : List Frame) (f : Frame) (hq : g.queue = a ++ f :: b) (hfirst : ∀ x ∈ a, x.conid ≠ f.conid)
      (hg : g' = { g with
        queue := a ++ b
        wire := g.wire ++ [f]
        last := some f })
  | frame (f : Frame) (rest : List Frame) (initOk : Bool) (hw : g.wire = f :: rest) (hg : g' = g.afterFrame f rest initOk)
  | close (conid : UInt16) (hg : g' = { g with server := g.server.connectionClose conid })
  | datagram (con : GatewayConnection) (data : Bytes) (bufferOk : Bool) (hc : con ∈ g.server.connections)
      (hf : g.server.findConnection con.conid = some con) (hg : g' = g.afterDatagram con data bufferOk)
  | reply (i : Nat) (r : Reply) (o : UdpGwClient) (acts : List UdpGwAct) (hr : g.replies[i]? = some r)
      (heff : UdpGwClient.Effect g.client (.receive r.bytes) o acts) (hg : g' = g.afterReply i r.owner o acts)
  | disconnect (o : UdpGwClient) (resend : Bool) (hs : UdpGwClient.SameTables g.client o)
      (hg : g' = g.afterDisconnect o resend)

/-- A client call that happened had one of the effects. -/
theorem lift_cases {g : Gateway} (h : Sound g) {e : UdpGwEvent} {f : UdpGwClient → List UdpGwAct → Gateway}
    {s : Except UdpGwFault Gateway} (hs : lift (g.client.step e) f = some s) :
    ∃ o acts, s = .ok (f o acts) ∧ UdpGwClient.Tables o ∧ o.pending = [] ∧ o.udpMtu = g.client.udpMtu ∧
      UdpGwClient.Effect g.client e o acts := by
  unfold lift at hs
  rw [Option.map_eq_some_iff] at hs
  obtain ⟨r, hr, rfl⟩ := hs
  obtain ⟨o, acts, rfl, ht, hp, hm, -, heff⟩ := UdpGwClient.step_effect h.tables h.pending hr
  exact ⟨o, acts, rfl, ht, hp, hm, heff⟩

/-- An event does not fault, keeps the client's tables and has one of the effects. -/
theorem step_cases {g : Gateway} (h : Sound g) {e : GatewayEvent} {s : Except UdpGwFault Gateway} (hs : g.step e = some s) :
    ∃ g', s = .ok g' ∧ UdpGwClient.Tables g'.client ∧ g'.client.pending = [] ∧ g'.client.udpMtu = g.client.udpMtu ∧
      Effect g e g' := by
  cases e with
  | client ce =>
    have hlift : lift (g.client.step ce) g.afterClient = some s := by
      cases ce with
      | receive data => cases hs
      | disconnect => cases hs
      | submit l r isDns data mallocOk flowOk => exact hs
      | bufferReady n => exact hs
      | connect decoderOk => exact hs
    obtain ⟨o, acts, rfl, ht, hp, hm, heff⟩ := lift_cases h hlift
    exact ⟨_, rfl, ht, hp, hm, .client ce o acts rfl heff rfl⟩
  | transmit i =>
    rw [step] at hs
    cases hq : g.queue[i]? with
    | none =>
      rw [hq] at hs
      cases hs
    | some f =>
      rw [hq] at hs
      dsimp only at hs
      rw [Option.ite_none_right_eq_some] at hs
      obtain ⟨hfirst, hs⟩ := hs
      obtain rfl := Option.some.inj hs
      obtain ⟨hi, hf⟩ := List.getElem?_eq_some_iff.mp hq
      refine ⟨_, rfl, h.tables, h.pending, rfl, .transmit (g.queue.take i) (g.queue.drop (i + 1)) f ?_ ?_ ?_⟩
      · rw [← hf, List.getElem_cons_drop, List.take_append_drop]
      · intro x hx
        exact bne_iff_ne.mp (List.all_eq_true.mp hfirst x hx)
      · rw [List.eraseIdx_eq_take_drop_succ]
  | serverReceives initOk =>
    rw [step] at hs
    cases hw : g.wire with
    | nil =>
      rw [hw] at hs
      cases hs
    | cons f rest =>
      rw [hw] at hs
      dsimp only at hs
      rw [Option.ite_none_right_eq_some] at hs
      obtain rfl := Option.some.inj hs.2
      exact ⟨_, rfl, h.tables, h.pending, rfl, .frame f rest initOk hw rfl⟩
  | serverCloses conid =>
    obtain rfl := Option.some.inj hs
    exact ⟨_, rfl, h.tables, h.pending, rfl, .close conid rfl⟩
  | serverDatagram conid data bufferOk =>
    rw [step] at hs
    cases hf : g.server.findConnection conid with
    | none =>
      rw [hf] at hs
      cases hs
    | some con =>
      rw [hf] at hs
      dsimp only at hs
      rw [Option.ite_none_right_eq_some] at hs
      obtain rfl := Option.some.inj hs.2
      have hc : con.conid = conid := by simpa using List.find?_some hf
      exact ⟨_, rfl, h.tables, h.pending, rfl,
        .datagram con data bufferOk (List.mem_of_find?_eq_some hf) (by rw [hc]; exact hf) rfl⟩
  | replyArrives i =>
    rw [step] at hs
    cases hr : g.replies[i]? with
    | none =>
      rw [hr] at hs
      cases hs
    | some r =>
      rw [hr] at hs
      obtain ⟨o, acts, rfl, ht, hp, hm, heff⟩ := lift_cases h hs
      exact ⟨_, rfl, ht, hp, hm, .reply i r o acts hr heff rfl⟩
  | disconnect resend =>
    obtain ⟨o, acts, rfl, ht, hp, hm, heff⟩ := lift_cases h hs
    refine ⟨_, rfl, ht, hp, hm, ?_⟩
    cases heff with
    | quiet hsame hnone hacts => exact .disconnect o resend hsame rfl
    | sent n l r isDns data mallocOk flowOk he => cases he
    | rebound n l r isDns data mallocOk flowOk he => cases he
    | created n conid l r isDns data mallocOk flowOk he => cases he
    | accepted n packet flags rest data he => cases he

/-! ## Frames that the client puts into its buffers -/

/-- A new frame can be read by the server and has the id and the pair of a connection. -/
theorem effect_enqueued {o o' : UdpGwClient} {e : UdpGwEvent} {acts : List UdpGwAct} (h' : UdpGwClient.Tables o')
    (heff : UdpGwClient.Effect o e o' acts) {f : Frame} (hf : f ∈ enqueued acts) :
    FrameOk o.udpMtu f ∧ ∃ n ∈ o'.connectionsList, o'.binding n = (f.conid, f.conaddr) := by
  have hone : ∀ {n : Nat} {flags conid data} {conaddr : ConAddr}, n ∈ o'.connectionsList → o'.binding n = (conid, conaddr) →
      hasFlag flags udpgwClientFlagIpv6 = false → hasFlag flags udpgwClientFlagKeepalive = false → data.length ≤ o.udpMtu →
      FrameOk o.udpMtu ⟨flags, conid, conaddr, data⟩ ∧ ∃ n ∈ o'.connectionsList, o'.binding n = (conid, conaddr) := by
    intro n flags conid data conaddr hn hb h6 hk hd
    have hip := h'.remote_ip n hn
    rw [show (o'.mem n).conaddr = conaddr from congrArg Prod.snd hb] at hip
    exact ⟨⟨hip, h6, hk, hd⟩, n, hn, hb⟩
  cases heff with
  | quiet hs hnone hacts =>
    subst hacts
    cases hf
  | sent n l r isDns data mallocOk flowOk he hd hn hp hs hacts =>
    subst hacts
    split at hf
    · obtain rfl : f = ⟨submitFlags isDns, (o.mem n).conid, ⟨l, r⟩, data⟩ := List.mem_singleton.mp hf
      have hin : n ∈ (o.moveToFront n).connectionsList := (mem_moveToEnd hn).mpr hn
      refine hone (n := n) (by rw [hs.list]; exact hin) ?_ (submitFlags_ipv6 isDns) (submitFlags_keepalive isDns) hd
      rw [hs.binding n hin, ← hp]
      rfl
    · cases hf
  | rebound n l r isDns data mallocOk flowOk he hd hnone hfull hhead hl hb hb' hacts =>
    subst hacts
    have hn : n ∈ o.connectionsList := List.mem_of_mem_head? hhead
    split at hf
    · obtain rfl : f = ⟨submitFlags isDns ||| udpgwClientFlagRebind, (o.mem n).conid, ⟨l, r⟩, data⟩ := List.mem_singleton.mp hf
      refine hone (n := n) (by rw [hl]; exact (mem_moveToEnd hn).mpr hn) hb ?_ ?_ hd
      · rw [hasFlag_or, submitFlags_ipv6]
        rfl
      · rw [hasFlag_or, submitFlags_keepalive]
        rfl
    · cases hf
  | created n conid l r isDns data mallocOk flowOk he hd hn hid hl hb hb' hacts =>
    subst hacts
    obtain rfl : f = ⟨udpgwClientFlagRebind ||| submitFlags isDns, conid, ⟨l, r⟩, data⟩ := List.mem_singleton.mp hf
    refine hone (n := n) (by rw [hl]; exact List.mem_append_right _ (List.mem_singleton_self n)) hb ?_ ?_ hd
    · rw [hasFlag_or, submitFlags_ipv6]
      rfl
    · rw [hasFlag_or, submitFlags_keepalive]
      rfl
  | accepted n packet flags rest data he hhead haddr hn hs hacts =>
    subst hacts
    cases hf

end Gateway

/-! ## The server -/

namespace GatewayServer

variable {s : GatewayServer}

theorem of_findConnection {conid : UInt16} {con : GatewayConnection} (h : s.findConnection conid = some con) :
    con ∈ s.connections ∧ con.conid = conid := ⟨List.mem_of_find?_eq_some h, by simpa using List.find?_some h⟩

theorem findConnection_close (s : GatewayServer) (conid : UInt16) : (s.connectionClose conid).findConnection conid = none := by
  unfold findConnection connectionClose
  rw [List.find?_eq_none]
  intro c hc
  have := (List.mem_filter.mp hc).2
  simpa using this

/-- What a frame does at the server: it is too long; it goes through the socket of its id, which has its address, unless the frame
has the flag; or no socket of its id is left and one may be opened for it. -/
theorem recv_cases {m : Nat} {f : Frame} (hf : FrameOk m f) (initOk : Bool) :
    (s.udpMtu < f.data.length ∧ s.clientRecvIfHandlerSend f.bytes f.conaddr initOk = (s, none)) ∨
    (∃ con, s.findConnection f.conid = some con ∧ f.carriesRebind = false ∧ con.origAddr = f.conaddr.remoteAddr ∧
      s.clientRecvIfHandlerSend f.bytes f.conaddr initOk = (s.moveToFront con, some con.owner)) ∨
    (∃ s1, (s1 = s ∨ s1 = s.connectionClose f.conid) ∧ s1.findConnection f.conid = none ∧
      s.clientRecvIfHandlerSend f.bytes f.conaddr initOk =
        (s1.makeRoom.connectionInit f.conid f.conaddr.remoteAddr f.conaddr initOk, if initOk then some f.conaddr else none)) := by
  have hk : hasFlag (udpgwFlags f.flags f.conaddr.remoteAddr) udpgwClientFlagKeepalive = false := by
    rw [hasFlag_udpgwFlags _ _ rfl]
    exact hf.keepalive
  have hr : hasFlag (udpgwFlags f.flags f.conaddr.remoteAddr) udpgwClientFlagRebind = f.carriesRebind := rfl
  unfold clientRecvIfHandlerSend Frame.bytes
  rw [parseHeader_packet]
  dsimp only
  rw [if_neg (by rw [hk]; exact Bool.false_ne_true), parseAddr_packet hf.ip (.inr hf.ipv6)]
  dsimp only
  by_cases hlen : s.udpMtu < f.data.length
  · exact Or.inl ⟨hlen, by rw [if_pos hlen]⟩
  · right
    rw [if_neg hlen]
    unfold closeOld
    cases hfind : s.findConnection f.conid with
    | none => exact Or.inr ⟨s, Or.inl rfl, hfind, rfl⟩
    | some con =>
      dsimp only
      rw [hr]
      by_cases hold : (f.carriesRebind || !con.origAddr.compare f.conaddr.remoteAddr) = true
      · rw [if_pos hold]
        exact Or.inr ⟨s.connectionClose f.conid, Or.inr rfl, findConnection_close s f.conid, rfl⟩
      · rw [if_neg hold]
        rw [Bool.or_eq_true, not_or, Bool.not_eq_true, Bool.not_eq_true, Bool.not_eq_false'] at hold
        exact Or.inl ⟨con, rfl, hold.1, (of_decide_eq_true hold.2).2, rfl⟩

/-- Making room closes nothing or one connection. -/
theorem makeRoom_cases (s : GatewayServer) : s.makeRoom = s ∨ ∃ conid, s.makeRoom = s.connectionClose conid := by
  unfold makeRoom
  split
  · split
    · exact Or.inl rfl
    · exact Or.inr ⟨_, rfl⟩
  · exact Or.inl rfl

theorem makeRoom_sub {c : GatewayConnection} (hc : c ∈ s.makeRoom.connections) : c ∈ s.connections := by
  rcases makeRoom_cases s with h | ⟨conid, h⟩
  · rw [h] at hc
    exact hc
  · rw [h] at hc
    exact (List.mem_filter.mp hc).1

theorem mem_moveToFront {con c : GatewayConnection} (hcon : con ∈ s.connections) (hc : c ∈ (s.moveToFront con).connections) :
    c ∈ s.connections := by
  unfold moveToFront connectionClose at hc
  rw [List.mem_append, List.mem_singleton] at hc
  rcases hc with hc | rfl
  · exact (List.mem_filter.mp hc).1
  · exact hcon

/-- After a frame every socket is one of before, or the one the frame opened. -/
theorem recv_sub {m : Nat} {f : Frame} (hf : FrameOk m f) {initOk : Bool} {c : GatewayConnection}
    (hc : c ∈ (s.clientRecvIfHandlerSend f.bytes f.conaddr initOk).1.connections) :
    c ∈ s.connections ∨ c = ⟨f.conid, f.conaddr.remoteAddr, f.conaddr⟩ := by
  rcases recv_cases (s := s) hf initOk with ⟨-, hr⟩ | ⟨con, hfind, -, -, hr⟩ | ⟨s1, hs1, -, hr⟩
  · rw [hr] at hc
    exact Or.inl hc
  · rw [hr] at hc
    exact Or.inl (mem_moveToFront (of_findConnection hfind).1 hc)
  · have hsub : ∀ {c}, c ∈ s1.connections → c ∈ s.connections := by
      intro c hin
      rcases hs1 with rfl | rfl
      · exact hin
      · exact (List.mem_filter.mp hin).1
    rw [hr] at hc
    dsimp only at hc
    unfold connectionInit at hc
    split at hc
    · rw [List.mem_append, List.mem_singleton] at hc
      rcases hc with hc | rfl
      · exact Or.inl (hsub (makeRoom_sub hc))
      · exact Or.inr rfl
    · exact Or.inl (hsub (makeRoom_sub hc))

theorem makeRoom_udpMtu (s : GatewayServer) : s.makeRoom.udpMtu = s.udpMtu := by
  rcases makeRoom_cases s with h | ⟨conid, h⟩ <;> rw [h]
  rfl

/-- A frame does not change the options of the server. -/
theorem recv_udpMtu {m : Nat} {f : Frame} (hf : FrameOk m f) (initOk : Bool) :
    (s.clientRecvIfHandlerSend f.bytes f.conaddr initOk).1.udpMtu = s.udpMtu := by
  rcases recv_cases (s := s) hf initOk with ⟨-, hr⟩ | ⟨con, -, -, -, hr⟩ | ⟨s1, hs1, -, hr⟩
  · rw [hr]
  · rw [hr]
    rfl
  · have h1 : s1.udpMtu = s.udpMtu := by rcases hs1 with rfl | rfl <;> rfl
    rw [hr, ← h1, ← makeRoom_udpMtu s1]
    unfold connectionInit
    split <;> rfl

end GatewayServer

namespace Gateway

variable {g g' : Gateway}

/-! ## What holds in every run -/

/-- Where what is under way after an event comes from: a new frame has the binding of a connection, a new socket is a frame's, a
new reply is a socket's. -/
structure Grows (g g' : Gateway) : Prop where
  frames : ∀ f ∈ g'.inFlight, f ∈ g.inFlight ∨
    (FrameOk g.client.udpMtu f ∧ ∃ n ∈ g'.client.connectionsList, g'.client.binding n = (f.conid, f.conaddr))
  sockets : ∀ c ∈ g'.server.connections, c ∈ g.server.connections ∨
    ∃ f ∈ g.inFlight, c = ⟨f.conid, f.conaddr.remoteAddr, f.conaddr⟩
  replies : ∀ r ∈ g'.replies, r ∈ g.replies ∨
    ∃ c ∈ g.server.connections, c.conid = r.conid ∧ c.origAddr = r.origAddr ∧ c.owner = r.owner
  ids : ∀ n ∈ g.client.connectionsList, n ∈ g'.client.connectionsList ∧ (g'.client.mem n).conid = (g.client.mem n).conid

theorem Grows.underWay (h : Grows g g') {x : UInt16 × ConAddr} (hx : x ∈ g'.underWay) :
    x ∈ g.underWay ∨ ∃ n ∈ g'.client.connectionsList, g'.client.binding n = x := by
  rw [mem_underWay] at hx
  rcases hx with ⟨f, hf, rfl⟩ | ⟨c, hc, rfl⟩ | ⟨r, hr, rfl⟩
  · rcases h.frames f hf with hf | ⟨-, hn⟩
    · exact Or.inl (mem_underWay.mpr (Or.inl ⟨f, hf, rfl⟩))
    · exact Or.inr hn
  · rcases h.sockets c hc with hc | ⟨f, hf, rfl⟩
    · exact Or.inl (mem_underWay.mpr (Or.inr (Or.inl ⟨c, hc, rfl⟩)))
    · exact Or.inl (mem_underWay.mpr (Or.inl ⟨f, hf, rfl⟩))
  · rcases h.replies r hr with hr | ⟨c, hc, hid, -, ho⟩
    · exact Or.inl (mem_underWay.mpr (Or.inr (Or.inr ⟨r, hr, rfl⟩)))
    · exact Or.inl (mem_underWay.mpr (Or.inr (Or.inl ⟨c, hc, by rw [hid, ho]⟩)))

/-- A call of the client puts its new frames into the buffers. -/
theorem grows_afterClient {e : UdpGwEvent} {o : UdpGwClient} {acts : List UdpGwAct} (ht : UdpGwClient.Tables o)
    (heff : UdpGwClient.Effect g.client e o acts) : Grows g (g.afterClient o acts) where
  frames := by
    intro f hf
    rw [mem_inFlight] at hf
    rcases hf with hf | hf | hf
    · rcases List.mem_append.mp hf with hf | hf
      · exact Or.inl (mem_inFlight.mpr (Or.inl hf))
      · exact Or.inr (effect_enqueued ht heff hf)
    · exact Or.inl (mem_inFlight.mpr (Or.inr (Or.inl hf)))
    · exact Or.inl (mem_inFlight.mpr (Or.inr (Or.inr hf)))
  sockets := fun c hc => Or.inl hc
  replies := fun r hr => Or.inl hr
  ids := fun n hn => heff.keeps hn

/-- An event brings under way only what comes from the client's connections and from what was under way before. -/
theorem effect_grows (h : Sound g) (ht : UdpGwClient.Tables g'.client) {e : GatewayEvent} (heff : Effect g e g') : Grows g g' := by
  have hids : ∀ n ∈ g.client.connectionsList, n ∈ g.client.connectionsList ∧ (g.client.mem n).conid = (g.client.mem n).conid :=
    fun n hn => ⟨hn, rfl⟩
  cases heff with
  | client ce o acts he heff hg =>
    subst hg
    exact grows_afterClient ht heff
  | transmit a b f hq hfirst hg =>
    subst hg
    refine ⟨?_, fun c hc => Or.inl hc, fun r hr => Or.inl hr, hids⟩
    intro x hx
    refine Or.inl (mem_inFlight.mpr ?_)
    rw [mem_inFlight] at hx
    rw [hq]
    rcases hx with hx | hx | hx
    · rcases List.mem_append.mp hx with hx | hx
      · exact Or.inl (List.mem_append_left _ hx)
      · exact Or.inl (List.mem_append_right _ (List.mem_cons_of_mem _ hx))
    · rcases List.mem_append.mp hx with hx | hx
      · exact Or.inr (Or.inl hx)
      · rw [List.mem_singleton] at hx
        exact Or.inl (List.mem_append_right _ (hx ▸ List.mem_cons_self))
    · obtain rfl := Option.some.inj hx
      exact Or.inl (List.mem_append_right _ List.mem_cons_self)
  | frame f rest initOk hw hg =>
    subst hg
    have hin : f ∈ g.inFlight := mem_inFlight.mpr (Or.inr (Or.inl (by rw [hw]; exact List.mem_cons_self)))
    refine ⟨?_, ?_, fun r hr => Or.inl hr, hids⟩
    · intro x hx
      refine Or.inl (mem_inFlight.mpr ?_)
      rw [mem_inFlight] at hx
      rcases hx with hx | hx | hx
      · exact Or.inl hx
      · exact Or.inr (Or.inl (by rw [hw]; exact List.mem_cons_of_mem _ hx))
      · exact Or.inr (Or.inr hx)
    · intro c hc
      rcases GatewayServer.recv_sub (h.frames f hin) hc with hc | hc
      · exact Or.inl hc
      · exact Or.inr ⟨f, hin, hc⟩
  | close conid hg =>
    subst hg
    exact ⟨fun f hf => Or.inl hf, fun c hc => Or.inl (List.mem_filter.mp hc).1, fun r hr => Or.inl hr, hids⟩
  | datagram con data bufferOk hc hf hg =>
    subst hg
    refine ⟨fun f hf => Or.inl hf, fun c hin => Or.inl (GatewayServer.mem_moveToFront hc hin), ?_, hids⟩
    intro r hr
    rcases List.mem_append.mp hr with hr | hr
    · exact Or.inl hr
    · unfold GatewayServer.connectionSendToClient at hr
      dsimp only at hr
      split at hr
      · obtain rfl := List.mem_singleton.mp hr
        exact Or.inr ⟨con, hc, rfl, rfl, rfl⟩
      · cases hr
  | reply i r o acts hr heff hg =>
    subst hg
    have hgrow := grows_afterClient (g := g) ht heff
    exact ⟨hgrow.frames, hgrow.sockets, fun x hx => Or.inl (List.mem_of_mem_eraseIdx hx), hgrow.ids⟩
  | disconnect o resend hs hg =>
    subst hg
    refine ⟨?_, fun c hc => absurd hc List.not_mem_nil, fun r hr => absurd hr List.not_mem_nil, fun n hn => ⟨?_, hs.conid hn⟩⟩
    · intro x hx
      refine Or.inl (mem_inFlight.mpr ?_)
      rw [mem_inFlight] at hx
      rcases hx with hx | hx | hx
      · exact Or.inl hx
      · unfold afterDisconnect at hx
        dsimp only at hx
        split at hx
        · exact Or.inr (Or.inr (Option.mem_toList.mp hx))
        · cases hx
      · exact Or.inr (Or.inr hx)
    · unfold afterDisconnect
      rw [hs.list]
      exact hn

theorem sound_init {maxConnections : Nat} (udpMtu serverMtu serverMax : Nat) (h : 0 < maxConnections) :
    Sound (init udpMtu maxConnections serverMtu serverMax) where
  tables := UdpGwClient.tables_init udpMtu h
  pending := rfl
  frames := by intro f hf; exact absurd hf List.not_mem_nil
  sockets := by intro c hc; exact absurd hc List.not_mem_nil
  replies := by intro r hr; exact absurd hr List.not_mem_nil
  known := by intro x hx; exact absurd hx List.not_mem_nil

theorem sound_step (h : Sound g) (ht : UdpGwClient.Tables g'.client) (hp : g'.client.pending = [])
    (hm : g'.client.udpMtu = g.client.udpMtu) (hgrow : Grows g g') : Sound g' where
  tables := ht
  pending := hp
  frames := by
    intro f hf
    rw [hm]
    rcases hgrow.frames f hf with hf | ⟨hok, -⟩
    · exact h.frames f hf
    · exact hok
  sockets := by
    intro c hc
    rcases hgrow.sockets c hc with hc | ⟨f, hf, rfl⟩
    · exact h.sockets c hc
    · exact ⟨rfl, (h.frames f hf).ip⟩
  replies := by
    intro r hr
    rcases hgrow.replies r hr with hr | ⟨c, hc, -, ha, ho⟩
    · exact h.replies r hr
    · rw [← ha, ← ho]
      exact h.sockets c hc
  known := by
    intro x hx
    rcases hgrow.underWay hx with hx | ⟨n, hn, hb⟩
    · obtain ⟨n, hn, hid⟩ := h.known x hx
      exact ⟨n, (hgrow.ids n hn).1, (hgrow.ids n hn).2.trans hid⟩
    · exact ⟨n, hn, congrArg Prod.fst hb⟩

end Gateway

end PsiphonAndroid
