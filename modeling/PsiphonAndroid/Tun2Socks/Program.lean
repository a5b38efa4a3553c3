import PsiphonAndroid.Tun2Socks.Callbacks

/-!
# The invariant of the program's TCP clients

Every client is between callbacks, the list of clients holds those that were not freed, and the counter is its length. An event
that can come to the program keeps this and is no fault. `K` says of each client how its SOCKS side may end beside `drained`, so
that runs in which the SOCKS side of a client does not fail are runs with a smaller `K`.
-/

namespace PsiphonAndroid

open Lib TcpClient

/-- Nothing can come to a freed client. -/
theorem TcpClient.step_of_freed {K : SocksEnd → Prop} {c : TcpClient} (h : Relay K c) (hf : c.freed = true) (e : TcpEvent) :
    c.step e = none := by
  have hb := h.base
  have hboth := hb.freed
  rw [hf] at hboth
  obtain ⟨hc, hs⟩ := (Bool.and_eq_true _ _).mp hboth.symm
  have hp : c.pcb = false := by rw [hb.pcb, hc]; rfl
  have hk : c.socksClient = false := by rw [hb.socks, hs]; rfl
  have hsend : c.sending = none := Option.eq_none_iff_forall_ne_some.mpr fun m hm =>
    absurd ((hb.sending m hm).2.2.2.symm.trans hs) Bool.noConfusion
  have hrecv : c.receiving = false := Bool.not_eq_true _ ▸ fun hn => absurd ((hb.receiving hn).2.1.symm.trans hs) Bool.noConfusion
  cases e with
  | recv p sync => rw [TcpClient.step, if_neg (fun hn => absurd (hp.symm.trans hn.1) Bool.noConfusion)]
  | sent len lwip sync => rw [TcpClient.step, if_neg (fun hn => absurd (hp.symm.trans hn.1) Bool.noConfusion)]
  | err => rw [TcpClient.step, if_neg (fun hn => absurd (hp.symm.trans hn.1) Bool.noConfusion)]
  | socks e =>
    rw [TcpClient.step]
    cases e with
    | up => rw [socksStep, if_neg (fun hn => absurd (hk.symm.trans hn.1) Bool.noConfusion)]
    | error => rw [socksStep, if_neg (fun hn => absurd (hk.symm.trans hn) Bool.noConfusion)]
    | closed => rw [socksStep, if_neg (fun hn => absurd (hk.symm.trans hn.1) Bool.noConfusion)]
    | sendDone len =>
      rw [socksStep, hsend, Option.getD_none, if_neg]
      omega
    | recvDone data lwip => rw [socksStep, if_neg (fun hn => absurd (hrecv.symm.trans hn.1) Bool.noConfusion)]

namespace Tun2Socks

/-- The event lets the SOCKS side of a client end only as `K` says. -/
def Allowed (K : Nat → SocksEnd → Prop) : Except TcpFault Tun2Socks → TunEvent → Prop
  | .ok w, .accept _ _ _ _ _ _ _ sync => ∀ r ∈ sync, r.Down → K w.nextClient .failed
  | .ok _, .client id e => ∀ r ∈ e.reports, r.Down → K id .failed
  | .ok _, .murder id => K id .murdered
  | .error _, _ => True

/-- The clients in memory, the list, the counter and the clients freed so far. -/
structure Inv (K : Nat → SocksEnd → Prop) (w : Tun2Socks) : Prop where
  relay : ∀ id < w.nextClient, Relay (K id) (w.clients id)
  listed : ∀ id, id ∈ w.tcpClients ↔ id < w.nextClient ∧ (w.clients id).freed = false
  nodup : w.tcpClients.Nodup
  count : w.numClients = w.tcpClients.length
  dealloc : ∀ id, id ∈ w.deallocs ↔ id < w.nextClient ∧ (w.clients id).freed = true
  once : w.deallocs.Nodup

variable {K : Nat → SocksEnd → Prop} {w : Tun2Socks}

/-- A function of a client that was not freed has returned. -/
theorem Inv.collect (h : Inv K w) {id : Nat} (hid : id < w.nextClient) (hf : (w.clients id).freed = false) {c : TcpClient}
    (hc : Relay (K id) c) : ∃ w', w.collect id c = .ok w' ∧ Inv K w' := by
  have hrelay : ∀ i < w.nextClient, Relay (K i) (Function.update w.clients id c i) := by
    intro i hi
    by_cases he : i = id
    · subst he
      rw [Function.update_self]
      exact hc
    · rw [Function.update_of_ne he]
      exact h.relay i hi
  have hmem : id ∈ w.tcpClients := (h.listed id).mpr ⟨hid, hf⟩
  have hnot : id ∉ w.deallocs := fun hn => absurd (hf.symm.trans ((h.dealloc id).mp hn).2) Bool.noConfusion
  unfold Tun2Socks.collect
  dsimp only
  split
  · rename_i hfreed
    have hpos : w.numClients ≠ 0 := by
      rw [h.count]
      exact (List.length_pos_of_mem hmem).ne'
    rw [if_neg hpos]
    refine ⟨_, rfl, hrelay, ?_, h.nodup.erase id, ?_, ?_, ?_⟩
    · intro i
      change i ∈ w.tcpClients.erase id ↔ i < w.nextClient ∧ (Function.update w.clients id c i).freed = false
      rw [h.nodup.mem_erase_iff, h.listed i]
      by_cases he : i = id
      · subst he
        rw [Function.update_self]
        simp [hfreed.1]
      · rw [Function.update_of_ne he]
        simp [he]
    · change w.numClients - 1 = (w.tcpClients.erase id).length
      rw [List.length_erase_of_mem hmem, h.count]
    · intro i
      change i ∈ w.deallocs ++ [id] ↔ i < w.nextClient ∧ (Function.update w.clients id c i).freed = true
      rw [List.mem_append, List.mem_singleton, h.dealloc i]
      by_cases he : i = id
      · subst he
        rw [Function.update_self]
        simp [hfreed.1, hid]
      · rw [Function.update_of_ne he]
        simp [he]
    · change (w.deallocs ++ [id]).Nodup
      rw [List.nodup_append]
      refine ⟨h.once, List.nodup_singleton _, ?_⟩
      rintro i hi j hj rfl
      exact hnot (List.mem_singleton.mp hj ▸ hi)
  · rename_i hfreed
    have hcf : c.freed = false := Bool.not_eq_true _ ▸ fun hn => hfreed ⟨hn, hf⟩
    have hsame : ∀ i, (Function.update w.clients id c i).freed = (w.clients i).freed := by
      intro i
      by_cases he : i = id
      · subst he
        rw [Function.update_self, hcf, hf]
      · rw [Function.update_of_ne he]
    refine ⟨_, rfl, hrelay, ?_, h.nodup, h.count, ?_, h.once⟩
    · intro i
      change i ∈ w.tcpClients ↔ i < w.nextClient ∧ (Function.update w.clients id c i).freed = false
      rw [hsame, h.listed i]
    · intro i
      change i ∈ w.deallocs ↔ i < w.nextClient ∧ (Function.update w.clients id c i).freed = true
      rw [hsame, h.dealloc i]

/-- The same for a function that ends without a fault. -/
theorem Inv.afterCall (h : Inv K w) {id : Nat} (hid : id < w.nextClient) (hf : (w.clients id).freed = false)
    {r : Except TcpFault TcpClient} (hr : Keeps (K id) r) : ∃ w', w.afterCall id r = .ok w' ∧ Inv K w' := by
  obtain ⟨c, rfl, hc⟩ := hr
  exact h.collect hid hf hc

/-- `listener_accept_func` has set up a client. -/
theorem Inv.accept (h : Inv K w) {c : TcpClient} (hc : Relay (K w.nextClient) c) (hf : c.freed = false) :
    Inv K { w with
      clients := Function.update w.clients w.nextClient c
      nextClient := w.nextClient + 1
      tcpClients := w.tcpClients ++ [w.nextClient]
      numClients := w.numClients + 1 } := by
  have hself : Function.update w.clients w.nextClient c w.nextClient = c := Function.update_self ..
  have hold : ∀ {i}, i < w.nextClient → Function.update w.clients w.nextClient c i = w.clients i :=
    fun hi => Function.update_of_ne hi.ne _ _
  have hnew : w.nextClient ∉ w.tcpClients := fun hn => absurd ((h.listed _).mp hn).1 (Nat.lt_irrefl _)
  refine ⟨?_, ?_, ?_, ?_, ?_, h.once⟩
  · intro i hi
    rcases Nat.lt_succ_iff_lt_or_eq.mp hi with hi | rfl
    · exact (congrArg (Relay (K i)) (hold hi)).mpr (h.relay i hi)
    · exact (congrArg (Relay (K w.nextClient)) hself).mpr hc
  · intro i
    change i ∈ w.tcpClients ++ [w.nextClient] ↔ i < w.nextClient + 1 ∧ (Function.update w.clients w.nextClient c i).freed = false
    rw [List.mem_append, List.mem_singleton, Nat.lt_succ_iff_lt_or_eq, h.listed i]
    constructor
    · rintro (⟨hi, hfi⟩ | rfl)
      · exact ⟨Or.inl hi, by rw [hold hi]; exact hfi⟩
      · exact ⟨Or.inr rfl, by rw [hself]; exact hf⟩
    · rintro ⟨hi | rfl, hfi⟩
      · exact Or.inl ⟨hi, by rwa [hold hi] at hfi⟩
      · exact Or.inr rfl
  · change (w.tcpClients ++ [w.nextClient]).Nodup
    rw [List.nodup_append]
    refine ⟨h.nodup, List.nodup_singleton _, ?_⟩
    rintro i hi j hj rfl
    exact hnew (List.mem_singleton.mp hj ▸ hi)
  · change w.numClients + 1 = (w.tcpClients ++ [w.nextClient]).length
    rw [List.length_append, h.count, List.length_singleton]
  · intro i
    change i ∈ w.deallocs ↔ i < w.nextClient + 1 ∧ (Function.update w.clients w.nextClient c i).freed = true
    rw [h.dealloc i, Nat.lt_succ_iff_lt_or_eq]
    constructor
    · rintro ⟨hi, hfi⟩
      exact ⟨Or.inl hi, by rw [hold hi]; exact hfi⟩
    · rintro ⟨hi | rfl, hfi⟩
      · exact ⟨hi, by rwa [hold hi] at hfi⟩
      · rw [hself, hf] at hfi
        cases hfi

/-- One event. -/
theorem Inv.step (h : Inv K w) {e : TunEvent} (hK : Allowed K (.ok w) e) {r : Except TcpFault Tun2Socks} (hr : w.step e = some r) :
    ∃ w', r = .ok w' ∧ Inv K w' := by
  cases e with
  | accept initOk buf socksRecvBuf used sent waiting pending sync =>
    rw [Tun2Socks.step] at hr
    split at hr
    · obtain rfl := Option.some.inj hr
      exact ⟨w, rfl, h⟩
    · rw [Option.ite_none_right_eq_some] at hr
      obtain ⟨⟨hb, hrb⟩, hr⟩ := hr
      obtain rfl := Option.some.inj hr
      have hc := relay_accepted (K := K w.nextClient) hb hrb used sent waiting pending
      refine (h.accept hc rfl).afterCall (Nat.lt_succ_self _) ?_ (syncWatched_returns hK hc rfl).keeps
      change (Function.update w.clients w.nextClient _ w.nextClient).freed = false
      rw [Function.update_self]
      rfl
  | client id e =>
    rw [Tun2Socks.step, Option.ite_none_right_eq_some, Option.map_eq_some_iff] at hr
    obtain ⟨hid, r, hr, rfl⟩ := hr
    have hrelay := h.relay id hid
    have hf : (w.clients id).freed = false := Bool.not_eq_true _ ▸ fun hn => by
      rw [step_of_freed hrelay hn e] at hr
      cases hr
    exact h.afterCall hid hf (step_keeps hrelay hK hr)
  | murder id =>
    rw [Tun2Socks.step, Option.ite_none_right_eq_some] at hr
    obtain ⟨hmem, hr⟩ := hr
    obtain rfl := Option.some.inj hr
    obtain ⟨hid, hf⟩ := (h.listed id).mp hmem
    obtain ⟨c, hrun, hc, -⟩ := clientMurder_keeps (h.relay id hid) hK hf
    exact h.afterCall hid hf ⟨c, hrun, hc⟩

theorem inv_start (clients : Nat → TcpClient) : Inv K ⟨clients, 0, [], 0, []⟩ where
  relay _ hi := absurd hi (Nat.not_lt_zero _)
  listed _ := Iff.intro (fun hn => nomatch hn) (fun hn => absurd hn.1 (Nat.not_lt_zero _))
  nodup := List.nodup_nil
  count := rfl
  dealloc _ := Iff.intro (fun hn => nomatch hn) (fun hn => absurd hn.1 (Nat.not_lt_zero _))
  once := List.nodup_nil

/-- Every run is without a fault, and keeps the invariant for the ends it allows. -/
theorem inv_of_run {es : List TunEvent} {s : Except TcpFault Tun2Socks} (h : tunSystem.RunWhere (Allowed K) es s) :
    ∃ w, s = .ok w ∧ Inv K w := by
  refine h.invariant (fun _ s => ∃ w, s = .ok w ∧ Inv K w) ?_ ?_
  · rintro s ⟨clients, rfl⟩
    exact ⟨_, rfl, inv_start clients⟩
  · rintro _ s e s' ⟨w, rfl, hinv⟩ hK hstep
    exact hinv.step hK hstep

/-- With every end allowed, every event is. -/
theorem allowed_any (s : Except TcpFault Tun2Socks) (e : TunEvent) : Allowed (fun _ _ => True) s e := by
  cases s with
  | error f => trivial
  | ok w =>
    cases e with
    | accept => exact fun _ _ _ => trivial
    | client => exact fun _ _ _ => trivial
    | murder => trivial

theorem inv_of_reach {s : Except TcpFault Tun2Socks} (h : tunSystem.Reach s) : ∃ w, s = .ok w ∧ Inv (fun _ _ => True) w := by
  refine h.invariant (fun s => ∃ w, s = .ok w ∧ Inv (fun _ _ => True) w) ?_ ?_
  · rintro s ⟨clients, rfl⟩
    exact ⟨_, rfl, inv_start clients⟩
  · rintro s e s' ⟨w, rfl, hinv⟩ hstep
    exact hinv.step (allowed_any _ e) hstep

end Tun2Socks

end PsiphonAndroid
