import PsiphonAndroid.UdpGw.GatewayInv
import PsiphonAndroid.Lib.Linked

/-!
# Rebindings and their announcement

A frame sent for a new pair has `UDPGW_CLIENT_FLAG_REBIND` when the connection was created or taken over for it. The flag is put
on the packet of that one submit. When the connection taken over has no place in its buffer, `connection_send` drops the packet,
and the flag with it: the next frame of the connection is sent without, and where the remote address is the old one the server
sends it through the old pair's socket. Where every connection taken over has a place in its buffer, each rebinding is announced.
-/

namespace PsiphonAndroid

open Lib

/-- The first frame enqueued with an id after the id was bound has the flag. -/
def Announced (acts : List UdpGwAct) : Prop :=
  ∀ before conid conaddr between frame after, acts = before ++ .bind conid conaddr :: (between ++ .enqueue frame :: after) →
    frame.conid = conid → (∀ f, .enqueue f ∈ between → f.conid ≠ conid) → frame.carriesRebind = true

/-- When the event takes a connection over, the connection's buffer has a place. -/
def BufferReady (s : Except UdpGwFault Gateway) (e : GatewayEvent) : Prop :=
  ∀ g ∈ s.toOption, ∀ t ∈ g.takenOver e, (g.client.mem t.1).outHave = true

instance (s : Except UdpGwFault Gateway) (e : GatewayEvent) : Decidable (BufferReady s e) :=
  inferInstanceAs (Decidable (∀ g ∈ s.toOption, _))

namespace RebindingAux

open Gateway

/-! ## The acts of an event -/

/-- Every connection after an event was there before, with the binding it has. -/
def SameBindings (o o' : UdpGwClient) : Prop := ∀ m ∈ o'.connectionsList, m ∈ o.connectionsList ∧ o'.binding m = o.binding m

theorem sameBindings_of_same {o o' : UdpGwClient} (hs : UdpGwClient.SameTables o o') : SameBindings o o' := by
  intro m hm
  rw [hs.list] at hm
  exact ⟨hm, hs.binding m hm⟩

theorem sameBindings_of_moved {o o' : UdpGwClient} {n : Nat} (hn : n ∈ o.connectionsList)
    (hs : UdpGwClient.SameTables (o.moveToFront n) o') : SameBindings o o' := by
  intro m hm
  rw [hs.list] at hm
  exact ⟨(mem_moveToEnd hn).mp hm, hs.binding m hm⟩

/-- What an event does that takes no connection over without a place in its buffer: nothing about frames; a frame of a connection;
or a new binding and a frame that announces it. -/
theorem acts_cases {o o' : UdpGwClient} {e : UdpGwEvent} {acts : List UdpGwAct}
    (heff : UdpGwClient.Effect o e o' acts) (hready : ∀ t ∈ o.takenOver e, (o.mem t.1).outHave = true) :
    (SameBindings o o' ∧ (acts = [] ∨ ∃ l r d, acts = [.received l r d])) ∨
    (∃ f, acts = [.enqueue f] ∧ SameBindings o o' ∧ ∃ n ∈ o.connectionsList, o.binding n = (f.conid, f.conaddr)) ∨
    (∃ f, acts = [.bind f.conid f.conaddr, .enqueue f] ∧ f.carriesRebind = true ∧
      (∃ n ∈ o'.connectionsList, o'.binding n = (f.conid, f.conaddr)) ∧
      ∀ m ∈ o'.connectionsList, (o'.mem m).conid ≠ f.conid → m ∈ o.connectionsList ∧ o'.binding m = o.binding m) := by
  cases heff with
  | quiet hs hnone hacts =>
    subst hacts
    exact Or.inl ⟨sameBindings_of_same hs, Or.inl rfl⟩
  | sent n l r isDns data mallocOk flowOk he hd hn hp hs hacts =>
    have hsame := sameBindings_of_moved hn hs
    cases hout : (o.mem n).outHave with
    | false =>
      rw [hout] at hacts
      subst hacts
      exact Or.inl ⟨hsame, Or.inl rfl⟩
    | true =>
      rw [hout] at hacts
      subst hacts
      exact Or.inr (Or.inl ⟨_, rfl, hsame, n, hn, by rw [← hp]; rfl⟩)
  | rebound n l r isDns data mallocOk flowOk he hd hnone hfull hhead hl hb hb' hacts =>
    subst he
    have hn : n ∈ o.connectionsList := List.mem_of_mem_head? hhead
    have hout : (o.mem n).outHave = true := by
      refine hready (n, ⟨l, r⟩) ?_
      rw [Option.mem_def, UdpGwClient.takenOver, if_pos ⟨hnone, hfull⟩, hhead]
      rfl
    rw [hout] at hacts
    subst hacts
    refine Or.inr (Or.inr ⟨⟨submitFlags isDns ||| udpgwClientFlagRebind, (o.mem n).conid, ⟨l, r⟩, data⟩, rfl, ?_, ⟨n, ?_, hb⟩, ?_⟩)
    · change hasFlag (udpgwFlags (submitFlags isDns ||| udpgwClientFlagRebind) r) udpgwClientFlagRebind = true
      rw [hasFlag_udpgwFlags _ _ rfl, hasFlag_or, show hasFlag udpgwClientFlagRebind udpgwClientFlagRebind = true from rfl,
        Bool.or_true]
    · rw [hl]
      exact (mem_moveToEnd hn).mpr hn
    · intro m hm hne
      rw [hl, mem_moveToEnd hn] at hm
      refine ⟨hm, hb' m hm ?_⟩
      rintro rfl
      exact hne (congrArg Prod.fst hb)
  | created n conid l r isDns data mallocOk flowOk he hd hn hid hl hb hb' hacts =>
    subst hacts
    refine Or.inr (Or.inr ⟨⟨udpgwClientFlagRebind ||| submitFlags isDns, conid, ⟨l, r⟩, data⟩, rfl, ?_, ⟨n, ?_, hb⟩, ?_⟩)
    · change hasFlag (udpgwFlags (udpgwClientFlagRebind ||| submitFlags isDns) r) udpgwClientFlagRebind = true
      rw [hasFlag_udpgwFlags _ _ rfl, hasFlag_or, show hasFlag udpgwClientFlagRebind udpgwClientFlagRebind = true from rfl,
        Bool.true_or]
    · rw [hl]
      exact List.mem_append_right _ (List.mem_singleton_self n)
    · intro m hm hne
      rw [hl, List.mem_append, List.mem_singleton] at hm
      rcases hm with hm | rfl
      · exact ⟨hm, hb' m hm⟩
      · exact absurd (congrArg Prod.fst hb) hne
  | accepted n packet flags rest data he hhead haddr hn hs hacts =>
    subst hacts
    exact Or.inl ⟨sameBindings_of_moved hn hs, Or.inr ⟨_, _, _, rfl⟩⟩

/-! ## The history of the client -/

/-- The id was bound and no frame with it was enqueued since. -/
def Unannounced (acts : List UdpGwAct) (conid : UInt16) : Prop :=
  ∃ before conaddr between, acts = before ++ .bind conid conaddr :: between ∧ ∀ f, .enqueue f ∈ between → f.conid ≠ conid

theorem announced_snoc {acts : List UdpGwAct} (h : Announced acts) {a : UdpGwAct}
    (ha : ∀ f, a = .enqueue f → Unannounced acts f.conid → f.carriesRebind = true) : Announced (acts ++ [a]) := by
  intro before conid conaddr between frame after heq hid hfirst
  rcases List.eq_nil_or_concat after with rfl | ⟨after', x, rfl⟩
  · have hsplit : acts ++ [a] = (before ++ .bind conid conaddr :: between) ++ [.enqueue frame] := by
      rw [heq, List.append_assoc, List.cons_append]
    obtain ⟨hacts, hlast⟩ := List.append_inj' hsplit rfl
    refine ha frame (List.singleton_inj.mp hlast) ?_
    rw [hid]
    exact ⟨before, conaddr, between, hacts, hfirst⟩
  · have hsplit : acts ++ [a] = (before ++ .bind conid conaddr :: (between ++ .enqueue frame :: after')) ++ [x] := by
      rw [heq, List.concat_eq_append, List.append_assoc, List.cons_append, List.append_assoc, List.cons_append]
    obtain ⟨hacts, -⟩ := List.append_inj' hsplit rfl
    exact h before conid conaddr between frame after' hacts hid hfirst

theorem unannounced_snoc {acts : List UdpGwAct} {a : UdpGwAct} {conid : UInt16} (h : Unannounced (acts ++ [a]) conid) :
    (∃ conaddr, a = .bind conid conaddr) ∨ (Unannounced acts conid ∧ ∀ f, a = .enqueue f → f.conid ≠ conid) := by
  obtain ⟨before, conaddr, between, heq, hfirst⟩ := h
  rcases List.eq_nil_or_concat between with rfl | ⟨between', x, rfl⟩
  · obtain ⟨-, hlast⟩ := List.append_inj' heq rfl
    exact Or.inl ⟨conaddr, List.singleton_inj.mp hlast⟩
  · have hsplit : acts ++ [a] = (before ++ .bind conid conaddr :: between') ++ [x] := by
      rw [heq, List.concat_eq_append, List.append_assoc, List.cons_append]
    obtain ⟨hacts, hlast⟩ := List.append_inj' hsplit rfl
    rw [List.concat_eq_append] at hfirst
    refine Or.inr ⟨⟨before, conaddr, between', hacts, fun f hf => hfirst f (List.mem_append_left _ hf)⟩, ?_⟩
    intro f hf
    refine hfirst f (List.mem_append_right _ ?_)
    rw [← hf, List.singleton_inj.mp hlast]
    exact List.mem_singleton_self x

/-- The history of the client: rebindings are announced, and none waits for it. -/
structure History (acts : List UdpGwAct) : Prop where
  announced : Announced acts
  settled : ∀ conid, ¬Unannounced acts conid

theorem history_nil : History [] where
  announced := by
    intro before conid conaddr between frame after heq
    exact absurd heq.symm (List.append_ne_nil_of_right_ne_nil _ (List.cons_ne_nil _ _))
  settled := by
    rintro conid ⟨before, conaddr, between, heq, -⟩
    exact absurd heq.symm (List.append_ne_nil_of_right_ne_nil _ (List.cons_ne_nil _ _))

theorem history_received {acts : List UdpGwAct} (h : History acts) (l r : BAddr) (d : Bytes) :
    History (acts ++ [.received l r d]) where
  announced := announced_snoc h.announced (by intro f he; cases he)
  settled := by
    intro conid hu
    rcases unannounced_snoc hu with ⟨conaddr, he⟩ | ⟨hu, -⟩
    · cases he
    · exact h.settled conid hu

theorem history_enqueue {acts : List UdpGwAct} (h : History acts) (f : Frame) : History (acts ++ [.enqueue f]) where
  announced := announced_snoc h.announced (by
    intro f' he hu
    exact absurd hu (h.settled _))
  settled := by
    intro conid hu
    rcases unannounced_snoc hu with ⟨conaddr, he⟩ | ⟨hu, -⟩
    · cases he
    · exact h.settled conid hu

theorem history_bind {acts : List UdpGwAct} (h : History acts) {f : Frame} (hf : f.carriesRebind = true) :
    History (acts ++ [.bind f.conid f.conaddr, .enqueue f]) := by
  rw [show acts ++ [.bind f.conid f.conaddr, .enqueue f] = (acts ++ [.bind f.conid f.conaddr]) ++ [.enqueue f] by
    rw [List.append_assoc]; rfl]
  constructor
  · refine announced_snoc (announced_snoc h.announced (by intro f he; cases he)) ?_
    intro f' he _
    injection he with he
    exact he ▸ hf
  · intro conid hu
    rcases unannounced_snoc hu with ⟨conaddr, he⟩ | ⟨hu, hne⟩
    · cases he
    · rcases unannounced_snoc hu with ⟨conaddr, he⟩ | ⟨hu, -⟩
      · injection he with he _
        exact hne f rfl he
      · exact h.settled conid hu

/-- An event under the condition continues the history. -/
theorem history_effect {acts : List UdpGwAct} (h : History acts) {o o' : UdpGwClient} {e : UdpGwEvent} {new : List UdpGwAct}
    (heff : UdpGwClient.Effect o e o' new) (hready : ∀ t ∈ o.takenOver e, (o.mem t.1).outHave = true) : History (acts ++ new) := by
  rcases acts_cases heff hready with ⟨-, rfl | ⟨l, r, d, rfl⟩⟩ | ⟨f, rfl, -, -⟩ | ⟨f, rfl, hf, -, -⟩
  · rw [List.append_nil]
    exact h
  · exact history_received h l r d
  · exact history_enqueue h f
  · exact history_bind h hf

/-! ## The sockets of the server -/

/-- The pair the socket of an id was opened for. -/
def socketOwner (s : GatewayServer) (conid : UInt16) : Option ConAddr := (s.findConnection conid).map (·.owner)

theorem findConnection_append {s : GatewayServer} {conid : UInt16} (l : List GatewayConnection) (con : GatewayConnection) :
    ({ s with connections := l ++ [con] } : GatewayServer).findConnection conid =
      (({ s with connections := l } : GatewayServer).findConnection conid).or (if con.conid == conid then some con else none) := by
  unfold GatewayServer.findConnection
  dsimp only
  rw [List.find?_append, List.find?_singleton]

/-- Closing the connection of an id leaves the others. -/
theorem findConnection_close_ne (s : GatewayServer) {conid c : UInt16} (h : c ≠ conid) :
    (s.connectionClose conid).findConnection c = s.findConnection c := by
  unfold GatewayServer.findConnection GatewayServer.connectionClose
  rw [List.find?_filter]
  congr 1
  funext x
  by_cases hx : x.conid = c
  · simp [hx, h]
  · simp [hx]

/-- A connection used goes to the end of the list and is found as before. -/
theorem findConnection_moveToFront {s : GatewayServer} {con : GatewayConnection} (h : s.findConnection con.conid = some con)
    (c : UInt16) : (s.moveToFront con).findConnection c = s.findConnection c := by
  unfold GatewayServer.moveToFront
  rw [findConnection_append]
  by_cases hc : c = con.conid
  · subst hc
    rw [h]
    have := GatewayServer.findConnection_close s con.conid
    rw [show (({ s with connections := (s.connectionClose con.conid).connections } : GatewayServer).findConnection con.conid) =
      none from this, beq_self_eq_true, if_pos rfl]
    rfl
  · have := findConnection_close_ne s hc
    rw [show (({ s with connections := (s.connectionClose con.conid).connections } : GatewayServer).findConnection c) =
      s.findConnection c from this, if_neg (by simpa using fun he => hc he.symm), Option.or_none]

/-- A close leaves a socket or takes it away. -/
theorem socketOwner_close (s : GatewayServer) (conid c : UInt16) :
    socketOwner (s.connectionClose conid) c = socketOwner s c ∨ socketOwner (s.connectionClose conid) c = none := by
  unfold socketOwner
  by_cases hc : c = conid
  · rw [hc, GatewayServer.findConnection_close]
    exact Or.inr rfl
  · rw [findConnection_close_ne s hc]
    exact Or.inl rfl

theorem socketOwner_makeRoom (s : GatewayServer) (c : UInt16) :
    socketOwner s.makeRoom c = socketOwner s c ∨ socketOwner s.makeRoom c = none := by
  rcases GatewayServer.makeRoom_cases s with h | ⟨conid, h⟩
  · rw [h]
    exact Or.inl rfl
  · rw [h]
    exact socketOwner_close s conid c

/-- A socket opened for a frame is the frame's; the others stay. -/
theorem socketOwner_init {s : GatewayServer} {conid : UInt16} (hnone : socketOwner s conid = none) (origAddr : BAddr)
    (owner : ConAddr) (initOk : Bool) (c : UInt16) :
    socketOwner (s.connectionInit conid origAddr owner initOk) c =
      if c = conid ∧ initOk = true then some owner else socketOwner s c := by
  unfold GatewayServer.connectionInit
  cases initOk with
  | false => simp
  | true =>
    rw [if_pos rfl]
    unfold socketOwner at hnone ⊢
    rw [findConnection_append]
    by_cases hc : c = conid
    · subst hc
      rw [Option.map_eq_none_iff] at hnone
      rw [show ({ s with connections := s.connections } : GatewayServer).findConnection c = none from hnone]
      simp
    · have hne : ¬(conid == c) = true := by
        rw [beq_iff_eq]
        exact fun he => hc he.symm
      dsimp only
      rw [if_neg hne, Option.or_none, if_neg (fun h => hc h.1)]

/-- A frame that is understood: after it the socket of its id is its own, or there is none; the other sockets stay or are closed;
and it went through no socket but its own. -/
theorem recv_linked {s : GatewayServer} {m : Nat} {f : Frame} (hf : FrameOk m f) (hm : m ≤ s.udpMtu) (initOk : Bool)
    (hlink : f.carriesRebind = true ∨ socketOwner s f.conid = none ∨ socketOwner s f.conid = some f.conaddr) :
    (∀ owner ∈ (s.clientRecvIfHandlerSend f.bytes f.conaddr initOk).2, f.conaddr = owner) ∧
    (socketOwner (s.clientRecvIfHandlerSend f.bytes f.conaddr initOk).1 f.conid = none ∨
      socketOwner (s.clientRecvIfHandlerSend f.bytes f.conaddr initOk).1 f.conid = some f.conaddr) ∧
    ∀ c, c ≠ f.conid → socketOwner (s.clientRecvIfHandlerSend f.bytes f.conaddr initOk).1 c = socketOwner s c ∨
      socketOwner (s.clientRecvIfHandlerSend f.bytes f.conaddr initOk).1 c = none := by
  rcases GatewayServer.recv_cases (s := s) hf initOk with ⟨hlen, -⟩ | ⟨con, hfind, hrebind, -, hr⟩ | ⟨s1, hs1, hnone, hr⟩
  · exact absurd hlen (Nat.not_lt.mpr (Nat.le_trans hf.size hm))
  · have hid := (GatewayServer.of_findConnection hfind).2
    have hself : s.findConnection con.conid = some con := by rw [hid]; exact hfind
    have howner : socketOwner s f.conid = some con.owner := by
      unfold socketOwner
      rw [hfind]
      rfl
    have hown : con.owner = f.conaddr := by
      rcases hlink with h | h | h
      · rw [hrebind] at h
        cases h
      · rw [howner] at h
        cases h
      · rw [howner] at h
        exact Option.some.inj h
    have hsame : ∀ c, socketOwner (s.moveToFront con) c = socketOwner s c := by
      intro c
      unfold socketOwner
      rw [findConnection_moveToFront hself]
    rw [hr]
    refine ⟨?_, Or.inr ?_, fun c _ => Or.inl (hsame c)⟩
    · rintro owner ⟨⟩
      exact hown.symm
    · rw [hsame, howner, hown]
  · have hs1' : ∀ c, socketOwner s1 c = socketOwner s c ∨ socketOwner s1 c = none := by
      intro c
      rcases hs1 with rfl | rfl
      · exact Or.inl rfl
      · exact socketOwner_close s f.conid c
    have hroom : socketOwner s1.makeRoom f.conid = none := by
      have h1 : socketOwner s1 f.conid = none := by
        unfold socketOwner
        rw [hnone]
        rfl
      rcases socketOwner_makeRoom s1 f.conid with h | h
      · exact h.trans h1
      · exact h
    rw [hr]
    refine ⟨?_, ?_, ?_⟩
    · intro owner ho
      dsimp only at ho
      split at ho
      · exact Option.some.inj ho
      · cases ho
    · rw [socketOwner_init hroom]
      split
      · exact Or.inr rfl
      · exact Or.inl hroom
    · intro c hc
      rw [socketOwner_init hroom, if_neg (fun h => hc h.1)]
      rcases socketOwner_makeRoom s1 c with h | h
      · rw [h]
        exact hs1' c
      · exact Or.inr h

/-! ## Frames under way are understood -/

/-- The frames with an id. -/
def ofId (c : UInt16) (fs : List Frame) : List Frame := fs.filter (·.conid == c)

theorem ofId_append (c : UInt16) (fs fs' : List Frame) : ofId c (fs ++ fs') = ofId c fs ++ ofId c fs' := List.filter_append _ _

theorem ofId_self (f : Frame) (fs : List Frame) : ofId f.conid (f :: fs) = f :: ofId f.conid fs :=
  List.filter_cons_of_pos (beq_self_eq_true f.conid)

theorem ofId_ne {c : UInt16} {f : Frame} (h : f.conid ≠ c) (fs : List Frame) : ofId c (f :: fs) = ofId c fs :=
  List.filter_cons_of_neg (by simpa using h)

theorem ofId_eq_nil {c : UInt16} {fs : List Frame} (h : ∀ f ∈ fs, f.conid ≠ c) : ofId c fs = [] :=
  List.filter_eq_nil_iff.mpr (by simpa using h)

/-- The server understands the frames with the id `c` on their way to it, now and when it starts anew with the last frame sent
again, and after them it has the pair `p`, which the connection with that id has. -/
structure UnderstoodAt (g : Gateway) (c : UInt16) (p : ConAddr) : Prop where
  now : Linked Frame.carriesRebind Frame.conaddr (socketOwner g.server c) (ofId c g.wire ++ ofId c g.queue) p
  again : ∀ f, g.last = some f → f.conid = c → Linked Frame.carriesRebind Frame.conaddr (some f.conaddr) (ofId c g.queue) p
  bound : ∀ n ∈ g.client.connectionsList, (g.client.mem n).conid = c → (g.client.mem n).conaddr = p

/-- The frames of every id are understood. -/
def Understood (g : Gateway) : Prop := ∀ c, ∃ p, UnderstoodAt g c p

variable {g : Gateway}

/-- Replies do not matter. -/
theorem understood_replies (h : Understood g) (replies : List Reply) (delivered : List (BAddr × ConAddr)) : Understood { g with
    replies := replies
    delivered := delivered } := by
  intro c
  obtain ⟨p, hp⟩ := h c
  exact ⟨p, ⟨hp.now, hp.again, hp.bound⟩⟩

/-- A client that keeps its bindings and sends nothing. -/
theorem understood_same (h : Understood g) {o : UdpGwClient} (hs : SameBindings g.client o) (acts : List UdpGwAct)
    (hnone : enqueued acts = []) : Understood (g.afterClient o acts) := by
  intro c
  obtain ⟨p, hp⟩ := h c
  have hqueue : (g.afterClient o acts).queue = g.queue := by
    unfold afterClient
    rw [hnone, List.append_nil]
  refine ⟨p, ⟨?_, ?_, ?_⟩⟩
  · rw [hqueue]
    exact hp.now
  · rw [hqueue]
    exact hp.again
  · intro n hn hid
    obtain ⟨hin, hb⟩ := hs n hn
    have hc : (o.mem n).conid = (g.client.mem n).conid := congrArg Prod.fst hb
    have ha : (o.mem n).conaddr = (g.client.mem n).conaddr := congrArg Prod.snd hb
    exact ha.trans (hp.bound n hin (hc.symm.trans hid))

/-- A client that sends a frame of one of its connections, and the frame announces its pair or has the pair of before. -/
theorem understood_frame (h : Understood g) {o : UdpGwClient} (ht : UdpGwClient.Tables o) {acts : List UdpGwAct} {f : Frame}
    (hacts : enqueued acts = [f]) (hf : f.carriesRebind = true ∨ ∀ p, UnderstoodAt g f.conid p → f.conaddr = p)
    (hown : ∃ n ∈ o.connectionsList, o.binding n = (f.conid, f.conaddr))
    (hother : ∀ m ∈ o.connectionsList, (o.mem m).conid ≠ f.conid → m ∈ g.client.connectionsList ∧ o.binding m = g.client.binding m) :
    Understood (g.afterClient o acts) := by
  have hqueue : (g.afterClient o acts).queue = g.queue ++ [f] := by
    unfold afterClient
    rw [hacts]
  intro c
  obtain ⟨p, hp⟩ := h c
  by_cases hc : f.conid = c
  · subst hc
    have hlast : f.carriesRebind = true ∨ f.conaddr = p := hf.imp_right fun hf => hf p hp
    refine ⟨f.conaddr, ⟨?_, ?_, ?_⟩⟩
    · rw [hqueue, ofId_append, ofId_self, ← List.append_assoc]
      exact hp.now.snoc hlast
    · intro f' hlast' hid
      rw [hqueue, ofId_append, ofId_self]
      exact (hp.again f' hlast' hid).snoc hlast
    · intro n hn hid
      obtain ⟨m, hm, hb⟩ := hown
      obtain rfl := ht.conid_inj n hn m hm (hid.trans (congrArg Prod.fst hb).symm)
      exact congrArg Prod.snd hb
  · have hof : ofId c (g.queue ++ [f]) = ofId c g.queue := by
      rw [ofId_append, ofId_ne hc]
      exact List.append_nil _
    refine ⟨p, ⟨?_, ?_, ?_⟩⟩
    · rw [hqueue, hof]
      exact hp.now
    · rw [hqueue, hof]
      exact hp.again
    · intro n hn hid
      obtain ⟨hin, hb⟩ := hother n hn (fun he => hc (he.symm.trans hid))
      have hcid : (o.mem n).conid = (g.client.mem n).conid := congrArg Prod.fst hb
      have ha : (o.mem n).conaddr = (g.client.mem n).conaddr := congrArg Prod.snd hb
      exact ha.trans (hp.bound n hin (hcid.symm.trans hid))

/-- An event of the client under the condition. -/
theorem understood_client (h : Understood g) {o : UdpGwClient} (ht : UdpGwClient.Tables o) {e : UdpGwEvent} {acts : List UdpGwAct}
    (heff : UdpGwClient.Effect g.client e o acts) (hready : ∀ t ∈ g.client.takenOver e, (g.client.mem t.1).outHave = true) :
    Understood (g.afterClient o acts) := by
  rcases acts_cases heff hready with ⟨hsame, rfl | ⟨l, r, d, rfl⟩⟩ | ⟨f, rfl, hsame, n, hn, hb⟩ | ⟨f, rfl, hf, hown, hother⟩
  · exact understood_same h hsame [] rfl
  · exact understood_same h hsame _ rfl
  · refine understood_frame h ht rfl (Or.inr ?_) ?_ (fun m hm _ => hsame m hm)
    · intro p hp
      have hc : (g.client.mem n).conid = f.conid := congrArg Prod.fst hb
      have ha : (g.client.mem n).conaddr = f.conaddr := congrArg Prod.snd hb
      exact ha.symm.trans (hp.bound n hn hc)
    · obtain ⟨hin, hid⟩ := heff.keeps hn
      obtain ⟨-, hb'⟩ := hsame n hin
      exact ⟨n, hin, hb'.trans hb⟩
  · exact understood_frame h ht rfl (Or.inl hf) hown hother

/-- A frame is taken to be sent: for its id nothing changes but what would be sent again. -/
theorem understood_transmit (h : Understood g) {a b : List Frame} {f : Frame} (hq : g.queue = a ++ f :: b)
    (hfirst : ∀ x ∈ a, x.conid ≠ f.conid) : Understood { g with
      queue := a ++ b
      wire := g.wire ++ [f]
      last := some f } := by
  intro c
  obtain ⟨p, hp⟩ := h c
  by_cases hc : f.conid = c
  · subst hc
    have hold : ofId f.conid g.queue = f :: ofId f.conid b := by
      rw [hq, ofId_append, ofId_eq_nil hfirst, ofId_self]
      rfl
    have hnew : ofId f.conid (a ++ b) = ofId f.conid b := by
      rw [ofId_append, ofId_eq_nil hfirst]
      rfl
    have hnow := hp.now
    rw [hold] at hnow
    refine ⟨p, ⟨?_, ?_, hp.bound⟩⟩
    · rw [hnew, ofId_append, ofId_self, List.append_assoc]
      exact hnow
    · rintro f' ⟨⟩ _
      rw [hnew]
      exact hnow.after
  · have hold : ofId c g.queue = ofId c (a ++ b) := by
      rw [hq, ofId_append, ofId_ne hc, ← ofId_append]
    have hwire : ofId c (g.wire ++ [f]) = ofId c g.wire := by
      rw [ofId_append, ofId_ne hc]
      exact List.append_nil _
    refine ⟨p, ⟨?_, ?_, hp.bound⟩⟩
    · rw [hwire, ← hold]
      exact hp.now
    · rintro f' ⟨⟩ hid
      exact absurd hid hc

/-- Sockets that are closed are not missed. -/
theorem understood_sockets (h : Understood g) (s : GatewayServer)
    (hs : ∀ c, socketOwner s c = socketOwner g.server c ∨ socketOwner s c = none) : Understood { g with server := s } := by
  intro c
  obtain ⟨p, hp⟩ := h c
  refine ⟨p, ⟨?_, hp.again, hp.bound⟩⟩
  rcases hs c with he | he
  · rw [he]
    exact hp.now
  · rw [he]
    exact hp.now.forget

/-- A frame arrives at the server. -/
theorem understood_arrival (h : Understood g) (hsound : Sound g) (hmtu : g.client.udpMtu ≤ g.server.udpMtu) {f : Frame}
    {rest : List Frame} (hw : g.wire = f :: rest) (initOk : Bool) :
    Understood (g.afterFrame f rest initOk) ∧
      ∀ owner ∈ (g.server.clientRecvIfHandlerSend f.bytes f.conaddr initOk).2, f.conaddr = owner := by
  have hok := hsound.frames f (mem_inFlight.mpr (Or.inr (Or.inl (by rw [hw]; exact List.mem_cons_self))))
  obtain ⟨pf, hpf⟩ := h f.conid
  have hnow := hpf.now
  rw [hw, ofId_self, List.cons_append] at hnow
  obtain ⟨hused, hself, hother⟩ := recv_linked hok hmtu initOk hnow.1
  refine ⟨?_, hused⟩
  intro c
  by_cases hc : f.conid = c
  · subst hc
    refine ⟨pf, ⟨?_, hpf.again, hpf.bound⟩⟩
    rcases hself with he | he
    · exact he ▸ hnow.2.forget
    · exact he ▸ hnow.2
  · obtain ⟨p, hp⟩ := h c
    have hnow := hp.now
    rw [hw, ofId_ne hc] at hnow
    refine ⟨p, ⟨?_, hp.again, hp.bound⟩⟩
    rcases hother c (fun he => hc he.symm) with he | he
    · exact he ▸ hnow
    · exact he ▸ hnow.forget

/-- The connection to the server ends, and the last frame may be sent again. -/
theorem understood_disconnect (h : Understood g) {o : UdpGwClient} (hs : UdpGwClient.SameTables g.client o) (resend : Bool) :
    Understood (g.afterDisconnect o resend) := by
  intro c
  obtain ⟨p, hp⟩ := h c
  refine ⟨p, ⟨?_, hp.again, ?_⟩⟩
  · have hrest : Linked Frame.carriesRebind Frame.conaddr none (ofId c g.queue) p := hp.now.suffix
    change Linked Frame.carriesRebind Frame.conaddr none (ofId c (if resend then g.last.toList else []) ++ ofId c g.queue) p
    split
    · cases hl : g.last with
      | none => exact hrest
      | some f =>
        by_cases hc : f.conid = c
        · subst hc
          rw [Option.toList_some, ofId_self]
          exact ⟨Or.inr (Or.inl rfl), hp.again f hl rfl⟩
        · rw [Option.toList_some, ofId_ne hc]
          exact hrest
    · exact hrest
  · intro n hn hid
    obtain ⟨hin, hb⟩ := sameBindings_of_same hs n hn
    have hc : (o.mem n).conid = (g.client.mem n).conid := congrArg Prod.fst hb
    have ha : (o.mem n).conaddr = (g.client.mem n).conaddr := congrArg Prod.snd hb
    exact ha.trans (hp.bound n hin (hc.symm.trans hid))

/-- What holds in every run that meets the condition. -/
structure Announcing (g : Gateway) : Prop where
  sound : Sound g
  history : History g.acts
  understood : Understood g
  mtu : g.client.udpMtu ≤ g.server.udpMtu
  used : ∀ u ∈ g.used, u.1 = u.2

theorem announcing_init {udpMtu maxConnections serverMtu : Nat} (serverMax : Nat) (hmax : 0 < maxConnections)
    (hmtu : udpMtu ≤ serverMtu) : Announcing (init udpMtu maxConnections serverMtu serverMax) where
  sound := sound_init udpMtu serverMtu serverMax hmax
  history := history_nil
  understood := by
    intro c
    refine ⟨⟨.none, .none⟩, ⟨Or.inl rfl, ?_, ?_⟩⟩
    · intro f hf
      cases hf
    · intro n hn
      cases hn
  mtu := hmtu
  used := by
    intro u hu
    cases hu

theorem announcing_step {g' : Gateway} (h : Announcing g) {e : GatewayEvent} (hok : BufferReady (.ok g) e)
    (ht : UdpGwClient.Tables g'.client) (hp : g'.client.pending = []) (hm : g'.client.udpMtu = g.client.udpMtu)
    (heff : Effect g e g') : Announcing g' := by
  have hsound := sound_step h.sound ht hp hm (effect_grows h.sound ht heff)
  cases heff with
  | client ce o acts he heff hg =>
    subst he hg
    have hready := hok g rfl
    exact ⟨hsound, history_effect h.history heff hready, understood_client h.understood ht heff hready,
      Nat.le_trans (Nat.le_of_eq hm) h.mtu, h.used⟩
  | transmit a b f hq hfirst hg =>
    subst hg
    exact ⟨hsound, h.history, understood_transmit h.understood hq hfirst, h.mtu, h.used⟩
  | frame f rest initOk hw hg =>
    subst hg
    have hf := h.sound.frames f (mem_inFlight.mpr (Or.inr (Or.inl (by rw [hw]; exact List.mem_cons_self))))
    obtain ⟨hunderstood, hused⟩ := understood_arrival h.understood h.sound h.mtu hw initOk
    refine ⟨hsound, h.history, hunderstood, ?_, ?_⟩
    · exact Nat.le_trans h.mtu (Nat.le_of_eq (GatewayServer.recv_udpMtu hf initOk).symm)
    · intro u hu
      rcases List.mem_append.mp hu with hu | hu
      · exact h.used u hu
      · obtain ⟨owner, ho, rfl⟩ := List.mem_map.mp hu
        exact hused owner (Option.mem_toList.mp ho)
  | close conid hg =>
    subst hg
    exact ⟨hsound, h.history, understood_sockets h.understood _ (socketOwner_close g.server conid), h.mtu, h.used⟩
  | datagram con data bufferOk hc hf hg =>
    subst hg
    have hsockets : ∀ c, socketOwner (g.server.moveToFront con) c = socketOwner g.server c := by
      intro c
      unfold socketOwner
      rw [findConnection_moveToFront hf]
    have hunderstood := understood_sockets h.understood _ (fun c => Or.inl (hsockets c))
    exact ⟨hsound, h.history, understood_replies hunderstood _ g.delivered, h.mtu, h.used⟩
  | reply i r o acts hr heff hg =>
    subst hg
    have hready : ∀ t ∈ g.client.takenOver (.receive r.bytes), (g.client.mem t.1).outHave = true := by
      intro t htaken
      cases htaken
    have hunderstood := understood_client h.understood ht heff hready
    exact ⟨hsound, history_effect h.history heff hready, understood_replies hunderstood _ _, Nat.le_trans (Nat.le_of_eq hm) h.mtu,
      h.used⟩
  | disconnect o resend hs hg =>
    subst hg
    exact ⟨hsound, h.history, understood_disconnect h.understood hs resend, Nat.le_trans (Nat.le_of_eq hm) h.mtu, h.used⟩

/-- For every datagram the server sent, the pair of its frame and of its socket. -/
def sentThrough : Except UdpGwFault Gateway → List (ConAddr × ConAddr)
  | .error _ => []
  | .ok g => g.used

/-- The acts of the client in a state that is no fault. -/
def actsOf : Except UdpGwFault Gateway → List UdpGwAct
  | .error _ => []
  | .ok g => g.acts

end RebindingAux

open RebindingAux Gateway

/-- Every rebinding is announced: in every run of the client and the server (whose datagrams may be at least as long as the
client's) in which each connection taken over has a place in its buffer, no state is a fault, the first frame enqueued with an id
after the id was bound, by creation or by `reuse_connection`, has `UDPGW_CLIENT_FLAG_REBIND`, and the server sent no datagram of
one pair through a socket opened for another. -/
theorem rebindings_announced {udpMtu maxConnections serverMtu serverMax : Nat} (hmax : 0 < maxConnections)
    (hmtu : udpMtu ≤ serverMtu) {es : List GatewayEvent} {s : Except UdpGwFault Gateway}
    (hr : (gatewaySystem udpMtu maxConnections serverMtu serverMax).RunWhere BufferReady es s) :
    ∃ g, s = .ok g ∧ Announced g.acts ∧ ∀ u ∈ g.used, u.1 = u.2 := by
  have hinv := hr.invariant (fun _ s => ∃ g, s = .ok g ∧ Announcing g) ?_ ?_
  · obtain ⟨g, rfl, h⟩ := hinv
    exact ⟨g, rfl, h.history.announced, h.used⟩
  · rintro s rfl
    exact ⟨_, rfl, announcing_init serverMax hmax hmtu⟩
  · rintro es s e s' ⟨g, rfl, h⟩ hok hstep
    obtain ⟨g', rfl, ht, hp, hm, heff⟩ := step_cases h.sound hstep
    exact ⟨g', rfl, announcing_step h hok ht hp hm heff⟩

/-- One connection, taken over while its buffer has a place: the server opens a socket for the second pair. -/
theorem rebindings_announced_taken_over : ∃ es g, (gatewaySystem 10 1 10 1).RunWhere BufferReady es (.ok g) ∧
    g.used = [(⟨.ipv4 1 1, .ipv4 9 53⟩, ⟨.ipv4 1 1, .ipv4 9 53⟩), (⟨.ipv4 2 2, .ipv4 9 53⟩, ⟨.ipv4 2 2, .ipv4 9 53⟩)] ∧
    Announced g.acts := by
  let events : List GatewayEvent :=
    [.client (.submit (.ipv4 1 1) (.ipv4 9 53) false [1] true true), .transmit 0, .serverReceives true, .client (.bufferReady 0),
      .client (.submit (.ipv4 2 2) (.ipv4 9 53) false [2] true true), .transmit 0, .serverReceives true]
  have hrun : ((gatewaySystem 10 1 10 1).execWhere BufferReady (.ok (Gateway.init 10 1 10 1)) events).map sentThrough =
      some [(⟨.ipv4 1 1, .ipv4 9 53⟩, ⟨.ipv4 1 1, .ipv4 9 53⟩), (⟨.ipv4 2 2, .ipv4 9 53⟩, ⟨.ipv4 2 2, .ipv4 9 53⟩)] := by decide
  obtain ⟨s, hs, hused⟩ := Option.map_eq_some_iff.mp hrun
  have hinit : (gatewaySystem 10 1 10 1).RunWhere BufferReady [] (.ok (Gateway.init 10 1 10 1)) := .init rfl
  have hwhere := hinit.execWhere hs
  obtain ⟨g, rfl, hann, -⟩ := rebindings_announced (by decide) (by decide) hwhere
  exact ⟨_, g, hwhere, hused, hann⟩

/-- One connection with `udp_mtu` 10 and a buffer for one packet of that size, which is full after three frames with one byte each and
has a place again when all three were sent. It is taken over while its buffer is full: the next frame has no flag, and the server
sends it through the socket of the first pair. -/
theorem rebinding_is_lost_with_its_packet : ∃ g, (gatewaySystem 10 1 10 1).Reach (.ok g) ∧ ¬Announced g.acts ∧
    (⟨.ipv4 2 2, .ipv4 9 53⟩, ⟨.ipv4 1 1, .ipv4 9 53⟩) ∈ g.used := by
  let first (byte : UInt8) : GatewayEvent := .client (.submit (.ipv4 1 1) (.ipv4 9 53) false [byte] true true)
  let second (byte : UInt8) : GatewayEvent := .client (.submit (.ipv4 2 2) (.ipv4 9 53) false [byte] true true)
  let events : List GatewayEvent :=
    [first 1, .client (.bufferReady 0), first 2, .client (.bufferReady 0), first 3, second 4, .transmit 0, .serverReceives true,
      .transmit 0, .serverReceives true, .transmit 0, .serverReceives true, .client (.bufferReady 0), second 5, .transmit 0,
      .serverReceives true]
  have hrun : ((gatewaySystem 10 1 10 1).exec (.ok (Gateway.init 10 1 10 1)) events).map (fun s => (sentThrough s, actsOf s)) =
      some ([(⟨.ipv4 1 1, .ipv4 9 53⟩, ⟨.ipv4 1 1, .ipv4 9 53⟩), (⟨.ipv4 1 1, .ipv4 9 53⟩, ⟨.ipv4 1 1, .ipv4 9 53⟩),
          (⟨.ipv4 1 1, .ipv4 9 53⟩, ⟨.ipv4 1 1, .ipv4 9 53⟩), (⟨.ipv4 2 2, .ipv4 9 53⟩, ⟨.ipv4 1 1, .ipv4 9 53⟩)],
        [.bind 0 ⟨.ipv4 1 1, .ipv4 9 53⟩, .enqueue ⟨2, 0, ⟨.ipv4 1 1, .ipv4 9 53⟩, [1]⟩,
          .enqueue ⟨0, 0, ⟨.ipv4 1 1, .ipv4 9 53⟩, [2]⟩, .enqueue ⟨0, 0, ⟨.ipv4 1 1, .ipv4 9 53⟩, [3]⟩,
          .bind 0 ⟨.ipv4 2 2, .ipv4 9 53⟩, .enqueue ⟨0, 0, ⟨.ipv4 2 2, .ipv4 9 53⟩, [5]⟩]) := by decide
  obtain ⟨s, hs, hlogs⟩ := Option.map_eq_some_iff.mp hrun
  obtain ⟨hused, hacts⟩ := Prod.mk.inj hlogs
  cases s with
  | error f => cases hused
  | ok g =>
    refine ⟨g, ⟨_, (System.Run.init (M := gatewaySystem 10 1 10 1) rfl).exec hs⟩, ?_, ?_⟩
    · intro hann
      have hflag := hann [.bind 0 ⟨.ipv4 1 1, .ipv4 9 53⟩, .enqueue ⟨2, 0, ⟨.ipv4 1 1, .ipv4 9 53⟩, [1]⟩,
        .enqueue ⟨0, 0, ⟨.ipv4 1 1, .ipv4 9 53⟩, [2]⟩, .enqueue ⟨0, 0, ⟨.ipv4 1 1, .ipv4 9 53⟩, [3]⟩] 0
        ⟨.ipv4 2 2, .ipv4 9 53⟩ [] ⟨0, 0, ⟨.ipv4 2 2, .ipv4 9 53⟩, [5]⟩ [] hacts rfl (fun f hf => absurd hf List.not_mem_nil)
      exact absurd hflag (by decide)
    · rw [show g.used = _ from hused]
      simp

end PsiphonAndroid
