import PsiphonAndroid.UdpGw.Link

/-!
# Reconnecting keeps the frames

Over every run of the link, whatever the moments at which servers are connected and disconnected: the packets accepted by the
connector are, in order, those finished on the first connection, on the second, and so on, and the one still held. What a
connection sent beyond its finished packets is the beginning of the packet the next connection starts with.
-/

namespace PsiphonAndroid

open Lib

/-- The connections `cs`, in order, relay the packets `frames`, of which `held` is left: each connection sent the packets
finished on it, and then the beginning of the packet that follows these. -/
def Relayed : List ServerConnection → List Bytes → Option Bytes → Prop
  | [], frames, held => frames = held.toList
  | c :: cs, frames, held => ∃ part rest, frames = c.finished ++ rest ∧ c.sent = c.finished.flatten ++ part ∧
      part <+: rest.headD [] ∧ Relayed cs rest held

namespace ReconnectAux

/-- A packet accepted while none is held comes after all others. -/
theorem Relayed.accept {cs : List ServerConnection} {frames : List Bytes} (h : Relayed cs frames none) (f : Bytes) :
    Relayed cs (frames ++ [f]) (some f) := by
  induction cs generalizing frames with
  | nil =>
    rw [Relayed] at h ⊢
    rw [h]
    rfl
  | cons c cs ih =>
    obtain ⟨part, rest, hf, hs, hp, hr⟩ := h
    refine ⟨part, rest ++ [f], by rw [hf, List.append_assoc], hs, ?_, ih hr⟩
    cases rest with
    | nil =>
      obtain rfl := List.prefix_nil.mp hp
      exact List.nil_prefix
    | cons g rest => exact hp

/-- What happens on the last connection leaves the earlier ones. -/
theorem Relayed.last {cs : List ServerConnection} {c c' : ServerConnection} {held held' : Option Bytes}
    (hc : ∀ frames, Relayed [c] frames held → Relayed [c'] frames held') {frames : List Bytes}
    (h : Relayed (cs ++ [c]) frames held) : Relayed (cs ++ [c']) frames held' := by
  induction cs generalizing frames with
  | nil => exact hc frames h
  | cons d cs ih =>
    obtain ⟨part, rest, hf, hs, hp, hr⟩ := h
    exact ⟨part, rest, hf, hs, hp, ih hr⟩

/-- A new connection has sent nothing yet. -/
theorem Relayed.connect {cs : List ServerConnection} {held : Option Bytes} {frames : List Bytes} (h : Relayed cs frames held) :
    Relayed (cs ++ [{ sent := [], finished := [] }]) frames held := by
  induction cs generalizing frames with
  | nil => exact ⟨[], frames, rfl, rfl, List.nil_prefix, h⟩
  | cons d cs ih =>
    obtain ⟨part, rest, hf, hs, hp, hr⟩ := h
    exact ⟨part, rest, hf, hs, hp, ih hr⟩

/-- The connections one by one. -/
theorem Relayed.split {a b : List ServerConnection} {c : ServerConnection} {frames : List Bytes} {held : Option Bytes}
    (h : Relayed (a ++ c :: b) frames held) :
    ∃ part rest, frames = ((a ++ [c]).map (·.finished)).flatten ++ rest ∧ c.sent = c.finished.flatten ++ part ∧
      part <+: rest.headD [] ∧ Relayed b rest held := by
  induction a generalizing frames with
  | nil =>
    obtain ⟨part, rest, hf, hs, hp, hr⟩ := h
    exact ⟨part, rest, by simpa using hf, hs, hp, hr⟩
  | cons d a ih =>
    obtain ⟨_, _, hf, -, -, hr⟩ := h
    obtain ⟨part, rest, hf', hs, hp, hr'⟩ := ih hr
    exact ⟨part, rest, by rw [hf, hf']; simp, hs, hp, hr'⟩

/-- All packets are finished on some connection, or held. -/
theorem Relayed.total {cs : List ServerConnection} {frames : List Bytes} {held : Option Bytes} (h : Relayed cs frames held) :
    frames = (cs.map (·.finished)).flatten ++ held.toList := by
  induction cs generalizing frames with
  | nil => exact h
  | cons d cs ih =>
    obtain ⟨_, rest, hf, -, -, hr⟩ := h
    rw [hf, ih hr]
    simp

/-- The next connection starts with the packet that follows those finished before it. -/
theorem Relayed.first {d : ServerConnection} {b : List ServerConnection} {f : Bytes} {rest : List Bytes} {held : Option Bytes}
    (h : Relayed (d :: b) (f :: rest) held) : d.sent <+: f ∨ f <+: d.sent := by
  obtain ⟨part, rest', hf, hs, hp, -⟩ := h
  cases hd : d.finished with
  | nil =>
    rw [hd, List.nil_append] at hf
    rw [hs, hd]
    rw [← hf] at hp
    exact Or.inl hp
  | cons g gs =>
    rw [hd, List.cons_append, List.cons.injEq] at hf
    rw [hs, hd, hf.1, List.flatten_cons, List.append_assoc]
    exact Or.inr (List.prefix_append _ _)

/-- What the sender and the present connection have to do with the packet held. -/
def SenderAt (s : PacketStreamSender) (c : ServerConnection) : Option Bytes → Prop
  | none => s.Idle ∧ c.sent = c.finished.flatten
  | some f => ∃ part, c.sent = c.finished.flatten ++ part ∧ s.Carries f part

/-- The last connection, with the packet held. -/
theorem SenderAt.relayed {s : PacketStreamSender} {c c' : ServerConnection} {f : Bytes} (h : SenderAt s c' (some f))
    (hfin : c'.finished = c.finished) {frames : List Bytes} (hr : Relayed [c] frames (some f)) :
    Relayed [c'] frames (some f) := by
  obtain ⟨part, hs, hc⟩ := h
  obtain ⟨_, rest, hf, -, -, hrest⟩ := hr
  refine ⟨part, rest, hfin ▸ hf, hs, ?_, hrest⟩
  rw [Relayed] at hrest
  rw [hrest]
  exact hc.part_of

end ReconnectAux

open ReconnectAux

/-- The invariant of the link. -/
structure LinkInv (o : UdpgwLink) : Prop where
  relayed : Relayed o.connections o.accepted o.sendConnector.inPacket
  server : o.sendConnector.output = none ↔ o.current = none
  input : o.sendConnector.input.state = .busy ↔ o.sendConnector.inPacket ≠ none
  sender : ∀ s c, o.sendConnector.output = some s → o.current = some c → SenderAt s c o.sendConnector.inPacket

namespace ReconnectAux

theorem init_inv {ppMtu : Nat} {o : UdpgwLink} (h : (linkSystem ppMtu).init o) : LinkInv o := by
  obtain rfl : o = _ := h
  refine ⟨rfl, ⟨fun _ => rfl, fun _ => rfl⟩, ?_, ?_⟩
  · simp [PacketPassConnector.init, PacketPassInterface.init]
  · rintro s c hs
    cases hs

/-- The link's own record of the present connection, split off. -/
theorem connections_some {o : UdpgwLink} {c : ServerConnection} (h : o.current = some c) : o.connections = o.past ++ [c] := by
  rw [UdpgwLink.connections, h, Option.toList_some]

theorem runInput_inv {o : UdpgwLink} (hi : LinkInv o) (hst : o.sendConnector.input.state = .operationPending) :
    LinkInv { o with
      sendConnector := { o.sendConnector with
        input := { o.sendConnector.input with state := .busy } }.inputHandlerSend o.sendConnector.input.jobOperationData
      accepted := o.accepted ++ [o.sendConnector.input.jobOperationData] } := by
  have hnone : o.sendConnector.inPacket = none := by
    by_contra hne
    have := hi.input.mpr hne
    rw [hst] at this
    cases this
  refine ⟨?_, ?_, ⟨fun _ => by simp [PacketPassConnector.inputHandlerSend], fun _ => rfl⟩, ?_⟩
  · have hr := hi.relayed
    rw [hnone] at hr
    exact Relayed.accept hr _
  · simp only [PacketPassConnector.inputHandlerSend, Option.map_eq_none_iff]
    exact hi.server
  · intro s c hs hc
    simp only [PacketPassConnector.inputHandlerSend, Option.map_eq_some_iff] at hs
    obtain ⟨s0, hs0, rfl⟩ := hs
    have := hi.sender s0 c hs0 hc
    rw [hnone] at this
    exact ⟨[], by rw [this.2, List.append_nil], this.1.submit _⟩

theorem sender_inv {o : UdpgwLink} (hi : LinkInv o) {s s' : PacketStreamSender} {c : ServerConnection} {wire : Bytes}
    {e : PacketStreamSender.Event} (hs : o.sendConnector.output = some s) (hc : o.current = some c)
    (he : s.step e = some (s', wire)) :
    LinkInv { o with
      sendConnector := { o.sendConnector with output := some s' }
      current := some { c with sent := c.sent ++ wire } } := by
  have hat := hi.sender s c hs hc
  cases hp : o.sendConnector.inPacket with
  | none =>
    rw [hp] at hat
    rw [hat.1.step_eq_none] at he
    cases he
  | some f =>
    rw [hp] at hat
    obtain ⟨part, hsent, hcar⟩ := hat
    have hat' : SenderAt s' { c with sent := c.sent ++ wire } (some f) :=
      ⟨part ++ wire, by simp only [hsent, List.append_assoc], PacketStreamSender.step_carries hcar he⟩
    refine ⟨?_, by simp, hi.input, ?_⟩
    · have hr := hi.relayed
      rw [connections_some hc] at hr
      simp only [UdpgwLink.connections, Option.toList_some, hp] at hr ⊢
      exact Relayed.last (fun frames => SenderAt.relayed (c := c) hat' rfl) hr
    · intro s1 c1 hs1 hc1
      obtain rfl := Option.some.inj hs1
      obtain rfl := Option.some.inj hc1
      simp only [hp]
      exact hat'

theorem runSenderDone_inv {o : UdpgwLink} (hi : LinkInv o) {s s' : PacketStreamSender} {c : ServerConnection}
    (hs : o.sendConnector.output = some s) (hc : o.current = some c) (he : s.runDone = some s') :
    LinkInv { o with
      sendConnector := { o.sendConnector with output := some s' }.outputHandlerDone
      current := some { c with finished := c.finished ++ o.sendConnector.inPacket.toList } } := by
  have hat := hi.sender s c hs hc
  cases hp : o.sendConnector.inPacket with
  | none =>
    rw [hp] at hat
    rw [hat.1.runDone_eq_none] at he
    cases he
  | some f =>
    rw [hp] at hat
    obtain ⟨part, hsent, hcar⟩ := hat
    obtain ⟨rfl, hidle⟩ := PacketStreamSender.runDone_carries hcar he
    have hsent' : c.sent = (c.finished ++ [part]).flatten := by rw [hsent]; simp
    refine ⟨?_, by simp [PacketPassConnector.outputHandlerDone], ?_, ?_⟩
    · have hr := hi.relayed
      rw [connections_some hc, hp] at hr
      simp only [UdpgwLink.connections, Option.toList_some, PacketPassConnector.outputHandlerDone]
      refine Relayed.last (fun frames hl => ?_) hr
      obtain ⟨_, rest, hf, -, -, hrest⟩ := hl
      rw [Relayed] at hrest
      refine ⟨[], [], ?_, by rw [List.append_nil]; exact hsent', List.nil_prefix, rfl⟩
      rw [hf, hrest, List.append_nil, Option.toList_some]
    · simp [PacketPassConnector.outputHandlerDone, PacketPassInterface.done]
    · intro s1 c1 hs1 hc1
      obtain rfl := Option.some.inj hs1
      obtain rfl := Option.some.inj hc1
      exact ⟨hidle, hsent'⟩

/-- A new output is given the packet held. -/
theorem connectOutput_eq (o : PacketPassConnector) :
    ∃ s, o.connectOutput .init = { o with output := some s } ∧ SenderAt s { sent := [], finished := [] } o.inPacket := by
  unfold PacketPassConnector.connectOutput
  cases hp : o.inPacket with
  | none => exact ⟨.init, by simp only, PacketStreamSender.idle_init, rfl⟩
  | some f => exact ⟨_, by simp only, [], rfl, PacketStreamSender.idle_init.submit f⟩

theorem connectServer_inv {o : UdpgwLink} (hi : LinkInv o) (ok : Bool) (hn : o.sendConnector.output = none) :
    LinkInv (o.connectServer ok) := by
  cases ok with
  | false => exact hi
  | true =>
    obtain ⟨s, hs, hat⟩ := connectOutput_eq o.sendConnector
    rw [UdpgwLink.connectServer, if_pos rfl, hs]
    refine ⟨?_, by simp, hi.input, ?_⟩
    · have hr := hi.relayed
      rw [UdpgwLink.connections, hi.server.mp hn, Option.toList_none, List.append_nil] at hr
      exact Relayed.connect hr
    · intro s1 c1 hs1 hc1
      obtain rfl := Option.some.inj hs1
      obtain rfl := Option.some.inj hc1
      exact hat

/-- Every event keeps the invariant. -/
theorem step_inv {o o' : UdpgwLink} {e : UdpgwLink.Event} (hi : LinkInv o) (h : o.step e = some o') : LinkInv o' := by
  cases e with
  | send data =>
    simp only [UdpgwLink.step, Option.ite_none_right_eq_some, Option.some.injEq] at h
    obtain ⟨⟨hst, -⟩, rfl⟩ := h
    have hn : o.sendConnector.inPacket = none := by
      by_contra hne
      have := hi.input.mpr hne
      rw [hst] at this
      cases this
    exact ⟨hi.relayed, hi.server, by simp [PacketPassInterface.senderSend, hn], hi.sender⟩
  | runInput =>
    simp only [UdpgwLink.step, Option.ite_none_right_eq_some, Option.some.injEq] at h
    obtain ⟨hst, rfl⟩ := h
    exact runInput_inv hi hst
  | runInputDone =>
    simp only [UdpgwLink.step, Option.ite_none_right_eq_some, Option.some.injEq] at h
    obtain ⟨hst, rfl⟩ := h
    have hn : o.sendConnector.inPacket = none := by
      by_contra hne
      have := hi.input.mpr hne
      rw [hst] at this
      cases this
    exact ⟨hi.relayed, hi.server, by simp [hn], hi.sender⟩
  | sender e =>
    cases hs : o.sendConnector.output <;> cases hc : o.current <;>
      simp only [UdpgwLink.step, hs, hc, Option.map_eq_some_iff, reduceCtorEq] at h
    obtain ⟨⟨s', wire⟩, he, rfl⟩ := h
    exact sender_inv hi hs hc he
  | runSenderDone =>
    cases hs : o.sendConnector.output <;> cases hc : o.current <;>
      simp only [UdpgwLink.step, hs, hc, Option.map_eq_some_iff, reduceCtorEq] at h
    obtain ⟨s', he, rfl⟩ := h
    exact runSenderDone_inv hi hs hc he
  | connectServer ok =>
    simp only [UdpgwLink.step, Option.ite_none_right_eq_some, Option.some.injEq] at h
    obtain ⟨hn, rfl⟩ := h
    exact connectServer_inv hi ok hn
  | disconnectServer =>
    simp only [UdpgwLink.step, Option.ite_none_left_eq_some, Option.some.injEq] at h
    obtain ⟨-, rfl⟩ := h
    refine ⟨?_, ⟨fun _ => rfl, fun _ => rfl⟩, hi.input, ?_⟩
    · have hr := hi.relayed
      simp only [UdpgwLink.disconnectServer, UdpgwLink.connections, Option.toList_none, List.append_nil] at hr ⊢
      exact hr
    · intro s c hs
      cases hs

theorem reach_inv {ppMtu : Nat} {o : UdpgwLink} (h : (linkSystem ppMtu).Reach o) : LinkInv o :=
  h.invariant LinkInv (fun _ => init_inv) (fun _ _ _ => step_inv)

/-- Steps of the sender are steps of the link. -/
theorem exec_sender (ppMtu : Nat) {es : List PacketStreamSender.Event} {o : UdpgwLink} {s s' : PacketStreamSender}
    {c : ServerConnection} {wire : Bytes} (hs : o.sendConnector.output = some s) (hc : o.current = some c)
    (hr : s.run es = some (s', wire)) :
    (linkSystem ppMtu).exec o (es.map .sender) = some { o with
      sendConnector := { o.sendConnector with output := some s' }
      current := some { c with sent := c.sent ++ wire } } := by
  induction es generalizing o s c wire with
  | nil =>
    rw [PacketStreamSender.run, Option.some.injEq, Prod.mk.injEq] at hr
    obtain ⟨rfl, rfl⟩ := hr
    rw [List.map_nil, System.exec, List.append_nil, ← hs, ← hc]
  | cons e es ih =>
    rw [PacketStreamSender.run, Option.bind_eq_some_iff] at hr
    obtain ⟨⟨s1, w1⟩, h1, h2⟩ := hr
    rw [Option.map_eq_some_iff] at h2
    obtain ⟨⟨s2, w2⟩, h2, h3⟩ := h2
    obtain ⟨rfl, rfl⟩ := Prod.mk.inj h3
    have hstep : (linkSystem ppMtu).step o (.sender e) = some { o with
        sendConnector := { o.sendConnector with output := some s1 }
        current := some { c with sent := c.sent ++ w1 } } := by
      simp only [linkSystem, UdpgwLink.step, hs, hc, h1, Option.map_some]
    rw [List.map_cons, System.exec, hstep, Option.bind_some, ih rfl rfl h2]
    simp only [List.append_assoc]

end ReconnectAux

/-- Over every run of the link to the server, with packets sent and servers connected and disconnected at any moment:
1. the packets accepted by the connector are, in this order, those finished on each connection and the one still held;
2. what each connection sent is its finished packets, whole, and then the beginning of the one packet that follows them;
3. the packet that follows those of a connection, if there is one by then, is the first the next connection sends;
4. a packet held while a server is connected can be sent whole on that connection and is then finished there. -/
theorem link_keeps_frames {ppMtu : Nat} {o : UdpgwLink} (h : (linkSystem ppMtu).Reach o) :
    (o.accepted = (o.connections.map (·.finished)).flatten ++ o.sendConnector.inPacket.toList) ∧
    (∀ a c b, o.connections = a ++ c :: b → ∃ part rest, o.accepted = ((a ++ [c]).map (·.finished)).flatten ++ rest ∧
      c.sent = c.finished.flatten ++ part ∧ part <+: rest.headD []) ∧
    (∀ a c d b f rest, o.connections = a ++ c :: d :: b → o.accepted = ((a ++ [c]).map (·.finished)).flatten ++ f :: rest →
      d.sent <+: f ∨ f <+: d.sent) ∧
    (∀ f c, o.sendConnector.inPacket = some f → o.current = some c →
      ∃ (es : List PacketStreamSender.Event) (o' : UdpgwLink) (c' : ServerConnection),
      (linkSystem ppMtu).exec o (es.map .sender ++ [.runSenderDone]) = some o' ∧ o'.current = some c' ∧
      c'.finished = c.finished ++ [f] ∧ c'.sent = c'.finished.flatten) := by
  have hi := reach_inv h
  refine ⟨Relayed.total hi.relayed, ?_, ?_, ?_⟩
  · intro a c b hcs
    obtain ⟨part, rest, hf, hs, hp, -⟩ := Relayed.split (hcs ▸ hi.relayed)
    exact ⟨part, rest, hf, hs, hp⟩
  · intro a c d b f rest hcs hacc
    obtain ⟨_, rest', hf, -, -, hr⟩ := Relayed.split (hcs ▸ hi.relayed)
    rw [hacc, List.append_cancel_left_eq] at hf
    rw [← hf] at hr
    exact Relayed.first hr
  · intro f c hp hc
    obtain ⟨s, hs⟩ : ∃ s, o.sendConnector.output = some s := by
      rw [← Option.ne_none_iff_exists']
      intro hn
      rw [hi.server.mp hn] at hc
      cases hc
    have hat := hi.sender s c hs hc
    rw [hp] at hat
    obtain ⟨part, hsent, hcar⟩ := hat
    obtain ⟨es, s', wire, hrun, hdone⟩ := hcar.finishes
    have hex := exec_sender ppMtu hs hc hrun
    obtain ⟨o', ho', hstep⟩ : ∃ o' : UdpgwLink, o'.current = some { finished := c.finished ++ [f], sent := c.sent ++ wire } ∧
        (linkSystem ppMtu).exec o (es.map .sender ++ [.runSenderDone]) = some o' := by
      rw [System.exec_append, hex, Option.bind_some, System.exec]
      simp only [linkSystem, UdpgwLink.step, PacketStreamSender.runDone, if_pos hdone, Option.map_some, Option.bind_some,
        System.exec, hp, Option.toList_some]
      exact ⟨_, rfl, rfl⟩
    refine ⟨es, o', _, hstep, ho', rfl, ?_⟩
    have hwhole := (PacketStreamSender.run_carries hcar hrun).of_done hdone
    simp only [hsent, List.append_assoc, hwhole, List.flatten_append, List.flatten_singleton]

/-- A frame cut off by a disconnect after its first byte, held until the next server is connected. -/
theorem link_keeps_frames_cut : ∃ o, (linkSystem 8).Reach o ∧ o.past = [{ sent := [1], finished := [] }] ∧
    o.accepted = (o.connections.map (·.finished)).flatten ++ [[1, 0, 7]] := by
  obtain ⟨o, ho⟩ : ∃ o, (linkSystem 8).exec { sendConnector := .init 8, accepted := [], past := [], current := none }
    [.connectServer true, .send [1, 0, 7], .runInput, .sender .runInput, .sender .runOutput, .sender (.transfer 1),
      .disconnectServer, .connectServer true] = some o := Option.isSome_iff_exists.mp (by decide)
  have hr : (linkSystem 8).Reach o := ⟨_, (System.Run.init (M := linkSystem 8) rfl).exec ho⟩
  have hkeep := (link_keeps_frames hr).1
  have hheld : o.past = [{ sent := [1], finished := [] }] ∧ o.sendConnector.inPacket = some [1, 0, 7] := by
    obtain rfl := Option.some.inj (ho.symm.trans rfl)
    exact ⟨rfl, rfl⟩
  rw [hheld.2, Option.toList_some] at hkeep
  exact ⟨o, hr, hheld.1, hkeep⟩

end PsiphonAndroid
