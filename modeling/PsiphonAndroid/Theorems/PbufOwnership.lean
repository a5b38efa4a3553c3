import PsiphonAndroid.Tun2Socks.Pbuf
import PsiphonAndroid.Theorems.TcpRelay

/-!
# The pbufs of the TCP clients

`client_recv_func` frees the pbuf after its `SYNC_COMMIT`. Where the reports inside the `SYNC_COMMIT` close the client side, it returns
`ERR_ABRT` before it gets there, and nobody frees the pbuf.
-/

namespace PsiphonAndroid

open Lib TcpClient Tun2Socks TcpRelayAux

namespace PbufOwnershipAux

/-- Where the callback returns `ERR_MEM`, it has not touched the pbuf. -/
theorem not_freed_of_mem {c c' : TcpClient} {p : Option Bytes} {sync : List SocksReport} {frees : Nat}
    (h : c.clientRecvFuncCounted p sync = .ok (c', .mem, frees)) : frees = 0 := by
  unfold clientRecvFuncCounted at h
  simp only [bind, Except.bind, pure, Except.pure] at h
  repeat' split at h
  all_goals simp_all

/-- The pbuf of an event is settled, in a state that keeps the invariant, exactly when no report closes the client side. -/
theorem pbufUses_settled_iff {w : Tun2Socks} (hinv : Inv (fun _ _ => True) w) (uses : List PbufUse) {id : Nat} {data : Bytes}
    {sync : List SocksReport} (hstep : w.step (.client id (.recv (some data) sync)) ≠ none) :
    ∃ u, pbufUses w (.client id (.recv (some data) sync)) = [u] ∧
      (u.Settled ↔ PbufKept (.ok ⟨w, uses⟩) (.client id (.recv (some data) sync))) := by
  obtain ⟨t, ht⟩ := Option.ne_none_iff_exists'.mp hstep
  rw [Tun2Socks.step, Option.ite_none_right_eq_some, Option.map_eq_some_iff] at ht
  obtain ⟨hid, r, hr, -⟩ := ht
  rw [TcpClient.step, Option.ite_none_right_eq_some] at hr
  obtain ⟨⟨hp, hrecv, hwin⟩, -⟩ := hr
  obtain ⟨hpos, hfits⟩ := hwin data rfl
  obtain ⟨c', hrun, hclosed⟩ := clientRecvFuncCounted_spec (hinv.relay id hid) hp hrecv hpos hfits sync
  unfold pbufUses PbufKept
  dsimp only
  rw [hrun, ← hclosed]
  cases c'.clientClosed with
  | true => exact ⟨⟨.abrt, 0⟩, rfl, by simp [PbufUse.Settled]⟩
  | false => exact ⟨⟨.ok, 1⟩, rfl, by simp [PbufUse.Settled]⟩

/-- Only `client_recv_func` is passed a pbuf. -/
theorem pbufUses_eq_nil {w : Tun2Socks} {e : TunEvent} (h : ∀ id data sync, e ≠ .client id (.recv (some data) sync)) :
    pbufUses w e = [] := by
  unfold pbufUses
  split
  · exact absurd rfl (h _ _ _)
  · rfl

/-- One event: no fault, the invariant is kept, and the pbuf is recorded. -/
theorem pbufSystem_step {r : PbufRun} (hinv : Inv (fun _ _ => True) r.tun) {e : TunEvent} {s : Except TcpFault PbufRun}
    (h : pbufSystem.step (.ok r) e = some s) :
    ∃ w, r.tun.step e = some (.ok w) ∧ s = .ok ⟨w, r.uses ++ pbufUses r.tun e⟩ ∧ Inv (fun _ _ => True) w := by
  obtain ⟨t, ht, rfl⟩ := Option.map_eq_some_iff.mp h
  obtain ⟨w, rfl, hinv'⟩ := hinv.step (allowed_any _ e) ht
  exact ⟨w, ht, rfl, hinv'⟩

/-- The recorded program is the program. -/
theorem inv_of_pbufs {s : Except TcpFault PbufRun} (h : pbufSystem.Reach s) : ∃ r, s = .ok r ∧ Inv (fun _ _ => True) r.tun := by
  refine h.invariant (fun s => ∃ r, s = .ok r ∧ Inv (fun _ _ => True) r.tun) ?_ ?_
  · rintro s ⟨clients, rfl⟩
    exact ⟨_, rfl, inv_start clients⟩
  · rintro s e s' ⟨r, rfl, hinv⟩ hstep
    obtain ⟨w, -, rfl, hinv'⟩ := pbufSystem_step hinv hstep
    exact ⟨_, rfl, hinv'⟩

/-- A run none of whose `SYNC_COMMIT`s closes a client side leaves every pbuf settled. -/
theorem settled_of_run {es : List TunEvent} {s : Except TcpFault PbufRun} (h : pbufSystem.RunWhere PbufKept es s) :
    ∃ r, s = .ok r ∧ ∀ u ∈ r.uses, u.Settled := by
  have hall : ∃ r, s = .ok r ∧ Inv (fun _ _ => True) r.tun ∧ ∀ u ∈ r.uses, u.Settled := by
    refine h.invariant (fun _ s => ∃ r, s = .ok r ∧ Inv (fun _ _ => True) r.tun ∧ ∀ u ∈ r.uses, u.Settled) ?_ ?_
    · rintro s ⟨clients, rfl⟩
      exact ⟨_, rfl, inv_start clients, fun _ hu => nomatch hu⟩
    · rintro _ s e s' ⟨r, rfl, hinv, hsettled⟩ hkept hstep
      obtain ⟨w, hw, rfl, hinv'⟩ := pbufSystem_step hinv hstep
      refine ⟨_, rfl, hinv', ?_⟩
      intro u hu
      rcases List.mem_append.mp hu with hu | hu
      · exact hsettled u hu
      · by_cases hrecv : ∃ id data sync, e = .client id (.recv (some data) sync)
        · obtain ⟨id, data, sync, rfl⟩ := hrecv
          obtain ⟨v, hv, hiff⟩ := pbufUses_settled_iff hinv r.uses (by rw [hw]; exact Option.some_ne_none _)
          rw [hv, List.mem_singleton] at hu
          rw [hu]
          exact hiff.mpr hkept
        · rw [pbufUses_eq_nil fun id data sync heq => hrecv ⟨id, data, sync, heq⟩] at hu
          cases hu
  obtain ⟨r, rfl, -, hsettled⟩ := hall
  exact ⟨r, rfl, hsettled⟩

end PbufOwnershipAux

open PbufOwnershipAux

/-- Who frees the pbufs, with whatever lwIP and SOCKS do:
1. In every run in which no report inside the `SYNC_COMMIT` of a `client_recv_func` that starts to send closes the client side, there
   is no fault, and every pbuf passed to `client_recv_func` was freed once where it returned `ERR_OK` or `ERR_ABRT` and not at all
   where it returned `ERR_MEM`.
2. In every state a run can reach, whatever happened before, the next pbuf is settled so exactly when no such report closes the client
   side.
3. A callback that returns `ERR_MEM`, in whatever state, has not freed the pbuf. -/
theorem pbufs_settled_iff (es : List TunEvent) (s : Except TcpFault PbufRun) :
    (pbufSystem.RunWhere PbufKept es s → ∃ r, s = .ok r ∧ ∀ u ∈ r.uses, u.Settled) ∧
    (pbufSystem.Reach s → ∃ r, s = .ok r ∧ ∀ id data sync, r.tun.step (.client id (.recv (some data) sync)) ≠ none →
      ∃ u, pbufUses r.tun (.client id (.recv (some data) sync)) = [u] ∧
        (u.Settled ↔ PbufKept (.ok r) (.client id (.recv (some data) sync)))) ∧
    (∀ (c c' : TcpClient) p sync frees, c.clientRecvFuncCounted p sync = .ok (c', .mem, frees) → frees = 0) := by
  refine ⟨fun h => settled_of_run h, ?_, fun _ _ _ _ _ h => not_freed_of_mem h⟩
  intro h
  obtain ⟨r, rfl, hinv⟩ := inv_of_pbufs h
  exact ⟨r, rfl, fun _ _ _ hstep => pbufUses_settled_iff hinv r.uses hstep⟩

namespace PbufOwnershipAux

/-- A client with SOCKS up and nothing to send. -/
def ready (buf socksRecvBuf : Bytes) : TcpClient := (fresh buf socksRecvBuf).afterUp

theorem pbufSystem_of_step {w : Tun2Socks} {t : Tun2Socks} {e : TunEvent} (h : tunSystem.step (.ok w) e = some (.ok t))
    (uses : List PbufUse) : pbufSystem.step (.ok ⟨w, uses⟩) e = some (.ok ⟨t, uses ++ pbufUses w e⟩) := by
  rw [tunSystem_step] at h
  change (w.step e).map _ = _
  rw [h]
  rfl

/-- One client is accepted, and its SOCKS connection comes up. -/
theorem ready_run {buf socksRecvBuf : Bytes} (hb : buf.length = tcpWnd) (hr : socksRecvBuf.length = clientSocksRecvBufSize) :
    ∃ es, pbufSystem.RunWhere PbufKept es (.ok ⟨only (ready buf socksRecvBuf), []⟩) := by
  have hstart : pbufSystem.RunWhere PbufKept [] (.ok ⟨start, []⟩) := .init ⟨_, rfl⟩
  have hclient := hstart.step (by exact trivial) (pbufSystem_of_step (start_accept hb hr) [])
  have hup : tunSystem.step (.ok (only (fresh buf socksRecvBuf))) (.client 0 (.socks .up)) =
      some (.ok (only (ready buf socksRecvBuf))) := only_step rfl rfl
  exact ⟨_, hclient.step (by exact trivial) (pbufSystem_of_step hup [])⟩

theorem ready_no_data {buf socksRecvBuf : Bytes} : ¬(ready buf socksRecvBuf).HasDataForClient := by
  rintro (hn | hn)
  · exact absurd hn (by decide : ¬(0 : Int) ≤ -1)
  · exact absurd hn (Nat.lt_irrefl 0)

/-- The SOCKS connection fails where nothing waits for the application: the client side closes. -/
theorem closesDuring_error {c : TcpClient} (h : Relay (fun _ => True) c) (hk : c.socksClient = true) (hdata : ¬c.HasDataForClient) :
    ClosesDuring [.error] c := by
  have henabled : c.socksStep .error = some (c.clientSocksDown false) := if_pos hk
  obtain ⟨c', hrun, -⟩ := socksStep_keeps h (fun _ => trivial) henabled
  unfold ClosesDuring
  rw [henabled, hrun]
  exact Or.inl fun hn => hdata hn.2

/-- A pbuf comes to an idle client, and the SOCKS connection fails inside the `SYNC_COMMIT`. -/
theorem recv_error {c : TcpClient} (h : Relay (fun _ => True) c) (hp : c.pcb = true) (hr : c.recvFunc = true) (hup : c.socksUp = true)
    (hidle : c.bufUsed = 0) (hdata : ¬c.HasDataForClient) {data : Bytes} (hpos : 0 < data.length)
    (hwin : c.delivered.length + data.length ≤ tcpWnd + c.recved) :
    ∃ c', c.clientRecvFuncCounted (some data) [.error] = .ok (c', .abrt, 0) := by
  have hc := h.base.open_of_pcb hp
  have hs := h.base.recvFunc hr
  have hcloses : ClosesDuring [.error] (c.take data) :=
    closesDuring_error (h.take hc hs hpos (h.base.fits hc hwin)) (h.base.socks_open hs) hdata
  obtain ⟨c', hrun, hclosed⟩ := clientRecvFuncCounted_spec h hp hr hpos hwin [.error]
  rw [if_pos (hclosed.mpr ⟨hidle, hup, hcloses⟩)] at hrun
  exact ⟨c', hrun⟩

end PbufOwnershipAux

/-- A pbuf comes to a client with SOCKS up, and SOCKS takes its byte inside the `SYNC_COMMIT`: it was freed once. -/
theorem pbufs_settled_sent : ∃ es r, pbufSystem.RunWhere PbufKept es (.ok r) ∧ r.uses = [⟨.ok, 1⟩] ∧ ∀ u ∈ r.uses, u.Settled := by
  obtain ⟨buf, hb⟩ := exists_memory tcpWnd
  obtain ⟨socksRecvBuf, hr⟩ := exists_memory clientSocksRecvBufSize
  obtain ⟨es, hready⟩ := ready_run hb hr
  have hstep : tunSystem.step (.ok (only (ready buf socksRecvBuf))) (.client 0 (.recv (some [1]) [.sendDone 1])) =
      some (.ok (only (((ready buf socksRecvBuf).take [1]).drain 1))) := only_step rfl rfl
  have hkept : PbufKept (.ok ⟨only (ready buf socksRecvBuf), []⟩) (.client 0 (.recv (some [1]) [.sendDone 1])) := by
    rintro ⟨-, -, hcloses⟩
    exact hcloses.elim id id
  have hrun := hready.step hkept (pbufSystem_of_step hstep [])
  obtain ⟨r, heq, hsettled⟩ := (pbufs_settled_iff _ _).1 hrun
  obtain rfl := Except.ok.inj heq
  exact ⟨_, _, hrun, rfl, hsettled⟩

/-- A pbuf comes to a client with SOCKS up, and the SOCKS connection fails inside the `SYNC_COMMIT`: `ERR_ABRT`, and it was not freed. -/
theorem pbuf_leaked_on_error : ∃ es r, pbufSystem.Run es (.ok r) ∧ r.uses = [⟨.abrt, 0⟩] ∧ ¬∀ u ∈ r.uses, u.Settled := by
  obtain ⟨buf, hb⟩ := exists_memory tcpWnd
  obtain ⟨socksRecvBuf, hr⟩ := exists_memory clientSocksRecvBufSize
  obtain ⟨es, hready⟩ := ready_run hb hr
  obtain ⟨r, heq, hinv⟩ := inv_of_pbufs ⟨es, hready.run⟩
  obtain rfl := Except.ok.inj heq
  have hrelay : Relay (fun _ => True) (ready buf socksRecvBuf) := hinv.relay 0 Nat.zero_lt_one
  have hfits : 1 ≤ tcpWnd := by decide
  obtain ⟨c, hcounted⟩ := @recv_error _ hrelay rfl rfl rfl rfl ready_no_data [1] Nat.zero_lt_one hfits
  have huses : pbufUses (only (ready buf socksRecvBuf)) (.client 0 (.recv (some [1]) [.error])) = [⟨.abrt, 0⟩] := by
    unfold pbufUses
    dsimp only
    rw [only_client, hcounted]
  obtain ⟨s, hstep⟩ : ∃ s, pbufSystem.step (.ok ⟨only (ready buf socksRecvBuf), []⟩) (.client 0 (.recv (some [1]) [.error])) =
      some s := by
    change ∃ s, ((only (ready buf socksRecvBuf)).step (.client 0 (.recv (some [1]) [.error]))).map _ = some s
    rw [Tun2Socks.step, if_pos (by exact Nat.zero_lt_one), only_client, TcpClient.step, if_pos]
    · exact ⟨_, rfl⟩
    · refine ⟨rfl, rfl, ?_⟩
      rintro data ⟨⟩
      exact ⟨Nat.zero_lt_one, hfits⟩
  obtain ⟨w, -, rfl, -⟩ := pbufSystem_step hinv hstep
  have hrun := hready.run.step hstep
  rw [huses] at hrun
  refine ⟨_, _, hrun, rfl, ?_⟩
  simp [PbufUse.Settled]

end PsiphonAndroid
