import PsiphonAndroid.UdpGw.GatewayInv

/-!
# Replies and the pairs they are for

A packet of the server is handed to the local address of the connection its id names, when the connection's remote address is the
packet's. When a connection is taken over for another local address and the same remote address, a reply of the old pair passes
that check. The results: such a delivery happens, and it is the only way: while no connection is taken over for a remote address
under which something of another local address is still under way with its id, every reply reaches the address it is for.
-/

namespace PsiphonAndroid

open Lib

/-- When the event takes a connection over, nothing under way with its id has the new pair's remote address and another local
address. -/
def NothingStale (s : Except UdpGwFault Gateway) (e : GatewayEvent) : Prop :=
  ∀ g ∈ s.toOption, ∀ t ∈ g.takenOver e, ∀ x ∈ g.underWay,
    x.1 = (g.client.mem t.1).conid → x.2.remoteAddr = t.2.remoteAddr → x.2.localAddr = t.2.localAddr

instance (s : Except UdpGwFault Gateway) (e : GatewayEvent) : Decidable (NothingStale s e) :=
  inferInstanceAs (Decidable (∀ g ∈ s.toOption, _))

namespace ReplyDeliveryAux

open Gateway

/-- What is under way with the id and the remote address of a connection has its local address too. -/
def Kept (g : Gateway) : Prop :=
  ∀ n ∈ g.client.connectionsList, ∀ x ∈ g.underWay, x.1 = (g.client.mem n).conid →
    x.2.remoteAddr = (g.client.mem n).conaddr.remoteAddr → x.2.localAddr = (g.client.mem n).conaddr.localAddr

/-- Every datagram was handed to the address its socket was opened for. -/
def Delivered (g : Gateway) : Prop := ∀ d ∈ g.delivered, d.1 = d.2.localAddr

variable {g g' : Gateway}

/-- What is new under way is a connection's own, so it is enough to look at what was under way before. -/
theorem kept_of_old (ht : UdpGwClient.Tables g'.client) (hgrow : Grows g g')
    (hold : ∀ n ∈ g'.client.connectionsList, ∀ x ∈ g.underWay, x.1 = (g'.client.mem n).conid →
      x.2.remoteAddr = (g'.client.mem n).conaddr.remoteAddr → x.2.localAddr = (g'.client.mem n).conaddr.localAddr) :
    Kept g' := by
  intro n hn x hx hid hremote
  rcases hgrow.underWay hx with hx | ⟨m, hm, rfl⟩
  · exact hold n hn x hx hid hremote
  · obtain rfl := ht.conid_inj m hm n hn hid
    rfl

/-- An event of the client keeps it under the condition. -/
theorem kept_client (h : Sound g) (hk : Kept g) {e : UdpGwEvent} {acts : List UdpGwAct}
    (heff : UdpGwClient.Effect g.client e g'.client acts)
    (hok : ∀ t ∈ g.client.takenOver e, ∀ x ∈ g.underWay, x.1 = (g.client.mem t.1).conid →
      x.2.remoteAddr = t.2.remoteAddr → x.2.localAddr = t.2.localAddr)
    (ht : UdpGwClient.Tables g'.client) (hgrow : Grows g g') : Kept g' := by
  refine kept_of_old ht hgrow ?_
  intro n hn x hx hid hremote
  rcases heff.binding hn with ⟨hin, hb⟩ | ⟨conaddr, htaken, hin, hb⟩ | hnew
  · have hc : (g'.client.mem n).conid = (g.client.mem n).conid := congrArg Prod.fst hb
    have ha : (g'.client.mem n).conaddr = (g.client.mem n).conaddr := congrArg Prod.snd hb
    rw [ha] at hremote ⊢
    exact hk n hin x hx (hid.trans hc) hremote
  · have hc : (g'.client.mem n).conid = (g.client.mem n).conid := congrArg Prod.fst hb
    have ha : (g'.client.mem n).conaddr = conaddr := congrArg Prod.snd hb
    rw [ha] at hremote ⊢
    exact hok (n, conaddr) htaken x hx (hid.trans hc) hremote
  · obtain ⟨m, hm, hmid⟩ := h.known x hx
    exact absurd (hmid.trans hid) (hnew m hm)

/-- A packet of the server takes no connection over. -/
theorem takenOver_receive (o : UdpGwClient) (data : Bytes) : o.takenOver (.receive data) = none := rfl

/-- An event keeps it under the condition. -/
theorem kept_step (h : Sound g) (hk : Kept g) {e : GatewayEvent} (hok : NothingStale (.ok g) e)
    (ht : UdpGwClient.Tables g'.client) (hgrow : Grows g g') (heff : Effect g e g') : Kept g' := by
  cases heff with
  | client ce o acts he heff hg =>
    subst he hg
    have hkept : Kept (g.afterClient o acts) := kept_client h hk heff (hok g rfl) ht hgrow
    exact hkept
  | transmit a b f hq hfirst hg =>
    subst hg
    exact kept_of_old ht hgrow hk
  | frame f rest initOk hw hg =>
    subst hg
    exact kept_of_old ht hgrow hk
  | close conid hg =>
    subst hg
    exact kept_of_old ht hgrow hk
  | datagram con data bufferOk hc hf hg =>
    subst hg
    exact kept_of_old ht hgrow hk
  | reply i r o acts hr heff hg =>
    subst hg
    refine kept_client h hk heff ?_ ht hgrow
    intro t htaken
    rw [takenOver_receive] at htaken
    cases htaken
  | disconnect o resend hs hg =>
    subst hg
    refine kept_of_old ht hgrow ?_
    intro n hn x hx hid hremote
    have hn' : n ∈ g.client.connectionsList := hs.list ▸ hn
    have hc : (o.mem n).conid = (g.client.mem n).conid := hs.conid hn'
    have ha : (o.mem n).conaddr = (g.client.mem n).conaddr := hs.conaddr hn'
    change x.1 = (o.mem n).conid at hid
    change x.2.remoteAddr = (o.mem n).conaddr.remoteAddr at hremote
    change x.2.localAddr = (o.mem n).conaddr.localAddr
    rw [ha] at hremote ⊢
    exact hk n hn' x hx (hid.trans hc) hremote

/-- A reply that is accepted is handed to the address it is for. -/
theorem receivers_reply (h : Sound g) (hk : Kept g) {r : Reply} (hr : r ∈ g.replies) {o : UdpGwClient} {acts : List UdpGwAct}
    (heff : UdpGwClient.Effect g.client (.receive r.bytes) o acts) : ∀ localAddr ∈ receivers acts, localAddr = r.owner.localAddr := by
  intro localAddr hl
  cases heff with
  | quiet hs hnone hacts =>
    subst hacts
    cases hl
  | sent n l r isDns data mallocOk flowOk he => cases he
  | rebound n l r isDns data mallocOk flowOk he => cases he
  | created n conid l r isDns data mallocOk flowOk he => cases he
  | accepted n packet flags rest data he hhead haddr hn hs hacts =>
    subst hacts
    injection he with he
    subst he
    obtain ⟨hremote, hip⟩ := h.replies r hr
    unfold Reply.bytes at hhead
    rw [parseHeader_packet] at hhead
    obtain ⟨rfl, hid, rfl⟩ : udpgwFlags 0 r.origAddr = flags ∧ r.conid = (g.client.mem n).conid ∧
        udpgwAddr r.origAddr ++ r.data = rest := by
      injection hhead with hhead
      injection hhead with h1 h2
      injection h2 with h2 h3
      exact ⟨h1, h2, h3⟩
    rw [parseAddr_packet hip (.inr rfl)] at haddr
    injection haddr with haddr
    injection haddr with ha _
    obtain rfl : localAddr = (g.client.mem n).conaddr.localAddr := List.mem_singleton.mp hl
    exact (hk n hn (r.conid, r.owner) (mem_underWay.mpr (Or.inr (Or.inr ⟨r, hr, rfl⟩))) hid (hremote.symm.trans ha)).symm

/-- An event hands no datagram to a wrong address. -/
theorem delivered_step (h : Sound g) (hk : Kept g) (hd : Delivered g) {e : GatewayEvent} (heff : Effect g e g') : Delivered g' := by
  cases heff with
  | client ce o acts he heff hg => subst hg; exact hd
  | transmit a b f hq hfirst hg => subst hg; exact hd
  | frame f rest initOk hw hg => subst hg; exact hd
  | close conid hg => subst hg; exact hd
  | datagram con data bufferOk hc hf hg => subst hg; exact hd
  | disconnect o resend hs hg => subst hg; exact hd
  | reply i r o acts hr heff hg =>
    subst hg
    intro d hmem
    rcases List.mem_append.mp hmem with hmem | hmem
    · exact hd d hmem
    · obtain ⟨localAddr, hl, rfl⟩ := List.mem_map.mp hmem
      exact receivers_reply h hk (List.mem_of_getElem? hr) heff localAddr hl

/-- The deliveries of a state that is no fault. -/
def deliveries : Except UdpGwFault Gateway → List (BAddr × ConAddr)
  | .error _ => []
  | .ok g => g.delivered

end ReplyDeliveryAux

open ReplyDeliveryAux Gateway

/-- No cross-delivery: in every run of the client and the server in which no connection is taken over while something of its id is
under way for the new remote address and another local address, no state is a fault and every datagram handed to the user went to
the local address of the pair whose frame opened the socket that received it. -/
theorem no_cross_delivery {udpMtu maxConnections serverMtu serverMax : Nat} (hmax : 0 < maxConnections)
    {es : List GatewayEvent} {s : Except UdpGwFault Gateway}
    (hr : (gatewaySystem udpMtu maxConnections serverMtu serverMax).RunWhere NothingStale es s) :
    ∃ g, s = .ok g ∧ ∀ d ∈ g.delivered, d.1 = d.2.localAddr := by
  have hinv := hr.invariant (fun _ s => ∃ g, s = .ok g ∧ Sound g ∧ Kept g ∧ Delivered g) ?_ ?_
  · obtain ⟨g, rfl, -, -, hd⟩ := hinv
    exact ⟨g, rfl, hd⟩
  · rintro s rfl
    refine ⟨_, rfl, sound_init udpMtu serverMtu serverMax hmax, ?_, ?_⟩
    · intro n hn
      exact absurd hn List.not_mem_nil
    · intro d hd
      exact absurd hd List.not_mem_nil
  · rintro es s e s' ⟨g, rfl, hsound, hkept, hdel⟩ hok hstep
    obtain ⟨g', rfl, ht, hp, hm, heff⟩ := step_cases hsound hstep
    have hgrow := effect_grows hsound ht heff
    exact ⟨g', rfl, sound_step hsound ht hp hm hgrow, kept_step hsound hkept hok ht hgrow heff,
      delivered_step hsound hkept hdel heff⟩

/-- One connection, taken over for another remote address: the reply of the second pair reaches the second local address. -/
theorem no_cross_delivery_taken_over : ∃ es g, (gatewaySystem 10 1 10 1).RunWhere NothingStale es (.ok g) ∧
    g.delivered = [(.ipv4 2 2, ⟨.ipv4 2 2, .ipv4 8 53⟩)] ∧ ∀ d ∈ g.delivered, d.1 = d.2.localAddr := by
  let events : List GatewayEvent :=
    [.client (.connect true), .client (.submit (.ipv4 1 1) (.ipv4 9 53) false [1] true true), .client (.bufferReady 0),
      .client (.submit (.ipv4 2 2) (.ipv4 8 53) false [2] true true), .transmit 0, .transmit 0, .serverReceives true,
      .serverReceives true, .serverDatagram 0 [3] true, .replyArrives 0]
  have hrun : ((gatewaySystem 10 1 10 1).execWhere NothingStale (.ok (Gateway.init 10 1 10 1)) events).map deliveries =
      some [(.ipv4 2 2, ⟨.ipv4 2 2, .ipv4 8 53⟩)] := by decide
  obtain ⟨s, hs, hdel⟩ := Option.map_eq_some_iff.mp hrun
  have hinit : (gatewaySystem 10 1 10 1).RunWhere NothingStale [] (.ok (Gateway.init 10 1 10 1)) := .init rfl
  have hwhere := hinit.execWhere hs
  obtain ⟨g, rfl, hright⟩ := no_cross_delivery (by decide) hwhere
  exact ⟨_, g, hwhere, hdel, hright⟩

/-- One connection, taken over for the same remote address: the reply to the first local address reaches the second. -/
theorem stale_reply_reaches_another_address : ∃ g, (gatewaySystem 10 1 10 1).Reach (.ok g) ∧
    ∃ d ∈ g.delivered, d = (.ipv4 2 2, ⟨.ipv4 1 1, .ipv4 9 53⟩) ∧ d.1 ≠ d.2.localAddr := by
  let events : List GatewayEvent :=
    [.client (.connect true), .client (.submit (.ipv4 1 1) (.ipv4 9 53) false [1] true true), .transmit 0, .serverReceives true,
      .serverDatagram 0 [3] true, .client (.bufferReady 0), .client (.submit (.ipv4 2 2) (.ipv4 9 53) false [2] true true),
      .replyArrives 0]
  have hrun : ((gatewaySystem 10 1 10 1).exec (.ok (Gateway.init 10 1 10 1)) events).map deliveries =
      some [(.ipv4 2 2, ⟨.ipv4 1 1, .ipv4 9 53⟩)] := by decide
  obtain ⟨s, hs, hdel⟩ := Option.map_eq_some_iff.mp hrun
  cases s with
  | error f => cases hdel
  | ok g =>
    refine ⟨g, ⟨_, (System.Run.init (M := gatewaySystem 10 1 10 1) rfl).exec hs⟩, _, ?_, rfl, by decide⟩
    rw [show g.delivered = _ from hdel]
    exact List.mem_singleton_self _

end PsiphonAndroid
