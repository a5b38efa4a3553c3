import PsiphonAndroid.Theorems.TcpRelay

/-!
# The life of a TCP client

A client is freed once, when its second side closes, and neither it nor its pcb is touched after that. What waits for SOCKS is sent
before the SOCKS side is let go, and what waits for the application is confirmed before the pcb is closed; a client murdered at
shutdown loses both.
-/

namespace PsiphonAndroid

open Lib TcpClient Tun2Socks TcpRelayAux

/-- The event neither reports the failure or the end of the SOCKS connection of client `id`, nor murders that client. -/
def SparesSocks (id : Nat) : Except TcpFault Tun2Socks → TunEvent → Prop := Allowed fun i _ => i ≠ id

/-- The life of the clients in every run, with whatever lwIP and SOCKS do. No assertion fails, no client is used after it was
freed, no pcb after it was closed, and:
1. `num_clients` is the length of `tcp_clients`.
2. No client is freed twice.
3. A client is freed in the event in which its second side closes: it was freed if and only if both sides are closed.
4. The list holds the clients that were not freed; nothing comes to a client that was.
5. With the client side closed the pcb is gone, and so are its callbacks.
6. If the SOCKS connection did not fail and the client was not murdered, the SOCKS side was let go only after the client side closed
   and with nothing left in `buf`.
7. If the pcb was closed after the SOCKS side, then everything received from SOCKS was queued to lwIP and confirmed. -/
theorem tcp_client_lifecycle {es : List TunEvent} {s : Except TcpFault Tun2Socks} (h : tunSystem.Run es s) :
    ∃ w, s = .ok w ∧ w.numClients = w.tcpClients.length ∧ w.deallocs.Nodup ∧
      ∀ id < w.nextClient, ∀ c, w.clients id = c →
        (id ∈ w.deallocs ↔ c.clientClosed = true ∧ c.socksClosed = true) ∧
        (id ∈ w.tcpClients ↔ id ∉ w.deallocs) ∧
        (id ∈ w.deallocs → w.step (.murder id) = none ∧ ∀ e, w.step (.client id e) = none) ∧
        (c.clientClosed = true → c.pcb = false ∧ c.errFunc = false ∧ c.recvFunc = false ∧ c.sentFunc = false) ∧
        (tunSystem.RunWhere (SparesSocks id) es s → c.socksClosed = true → c.clientClosed = true ∧ c.bufUsed = 0) ∧
        (c.pcbEnd = some (.closed true) → c.written = c.fromSocks ∧ c.acked = c.written.length) := by
  obtain ⟨w, rfl, hinv⟩ := inv_of_reach ⟨es, h⟩
  refine ⟨w, rfl, hinv.count, hinv.once, ?_⟩
  rintro id hid c rfl
  have hr := hinv.relay id hid
  have hlisted : id ∈ w.tcpClients ↔ id ∉ w.deallocs := by
    rw [hinv.listed, hinv.dealloc, not_and, Bool.not_eq_true]
    exact ⟨fun hl _ => hl.2, fun hl => ⟨hid, hl hid⟩⟩
  refine ⟨?_, hlisted, ?_, ?_, ?_, ?_⟩
  · rw [hinv.dealloc, hr.base.freed, Bool.and_eq_true]
    exact ⟨And.right, fun hboth => ⟨hid, hboth⟩⟩
  · intro hd
    refine ⟨?_, ?_⟩
    · rw [Tun2Socks.step, if_neg fun hl => hlisted.mp hl hd]
    · intro e
      rw [Tun2Socks.step, if_pos hid, step_of_freed hr ((hinv.dealloc id).mp hd).2 e]
      rfl
  · intro hc
    exact ⟨by rw [hr.base.pcb, hc]; rfl, hr.base.callbacks hc⟩
  · intro hrun hs
    obtain ⟨w', heq, hinv'⟩ := inv_of_run hrun
    obtain rfl := Except.ok.inj heq
    have hb := (hinv'.relay id hid).base
    obtain ⟨why, hwhy⟩ := Option.isSome_iff_exists.mp (hb.socksEnded.symm.trans hs)
    rcases hb.ends why hwhy with rfl | hne
    · exact hb.drained hwhy
    · exact absurd rfl hne
  · intro hclosed
    exact (hr.base.confirmed hclosed).2.2

namespace TcpLifecycleAux

/-- The program after its only client was freed. -/
def gone (c : TcpClient) : Tun2Socks := ⟨Function.update start.clients 0 c, 1, [], 0, [0]⟩

theorem collect_gone {c c' : TcpClient} (hf : c.freed = false) (hf' : c'.freed = true) :
    (only c).collect 0 c' = .ok (gone c') := by
  have hold : ((only c).clients 0).freed = false := hf
  unfold Tun2Socks.collect
  rw [if_pos ⟨hf', hold⟩]
  exact congrArg (fun f => Except.ok (⟨f, 1, [], 0, [0]⟩ : Tun2Socks)) (Function.update_idem ..)

/-- A client that took a byte before SOCKS was up, and whose client side then closed. -/
def waiting (buf socksRecvBuf : Bytes) : TcpClient := (((fresh buf socksRecvBuf).take [1]).withoutPcb (.closed false)).afterPcb

theorem fresh_recv (buf socksRecvBuf : Bytes) :
    (fresh buf socksRecvBuf).step (.recv (some [1]) []) = some (.ok ((fresh buf socksRecvBuf).take [1])) := rfl

theorem recv_close (buf socksRecvBuf : Bytes) :
    ((fresh buf socksRecvBuf).take [1]).step (.recv none []) = some (.ok (waiting buf socksRecvBuf)) := rfl

theorem waiting_up (buf socksRecvBuf : Bytes) :
    (waiting buf socksRecvBuf).step (.socks .up) = some (.ok (waiting buf socksRecvBuf).afterUp) := rfl

theorem spares_of_not_down {w : Tun2Socks} {id : Nat} {r : SocksReport} (hr : ¬r.Down) :
    SparesSocks id (.ok w) (.client id (.socks r)) :=
  fun _ hn hd => absurd (List.mem_singleton.mp hn ▸ hd) hr

end TcpLifecycleAux

open TcpLifecycleAux

/-- The client side closes with a byte for SOCKS, SOCKS comes up and takes it. -/
theorem tcp_client_lifecycle_drained : ∃ es w, tunSystem.Run es (.ok w) ∧ tunSystem.RunWhere (SparesSocks 0) es (.ok w) ∧
    w.deallocs = [0] ∧ w.numClients = 0 ∧ (w.clients 0).socksClosed = true ∧ (w.clients 0).bufUsed = 0 := by
  obtain ⟨buf, hb⟩ := exists_memory tcpWnd
  obtain ⟨socksRecvBuf, hr⟩ := exists_memory clientSocksRecvBufSize
  have hstart : tunSystem.RunWhere (SparesSocks 0) [] (.ok start) := .init ⟨_, rfl⟩
  have hclient := hstart.step (fun _ hn => nomatch hn) (start_accept hb hr)
  have hrecv := hclient.step (fun _ hn => nomatch hn) (only_step (fresh_recv buf socksRecvBuf) rfl)
  have hclose := hrecv.step (fun _ hn => nomatch hn) (only_step (recv_close buf socksRecvBuf) rfl)
  have hup := hclose.step (spares_of_not_down (r := .up) not_false) (only_step (waiting_up buf socksRecvBuf) rfl)
  obtain ⟨c, hsend, hf, hrest⟩ : ∃ c, (waiting buf socksRecvBuf).afterUp.step (.socks (.sendDone 1)) = some (.ok c) ∧
      c.freed = true ∧ c.socksClosed = true := ⟨_, rfl, rfl, rfl⟩
  have hstep : tunSystem.step (.ok (only (waiting buf socksRecvBuf).afterUp)) (.client 0 (.socks (.sendDone 1))) =
      some (.ok (gone c)) := by
    rw [tunSystem_step, Tun2Socks.step, if_pos (by exact Nat.zero_lt_one), only_client, hsend]
    exact congrArg some (collect_gone rfl hf)
  have hrun := hup.step (spares_of_not_down (r := .sendDone 1) not_false) hstep
  obtain ⟨w, heq, -, -, hall⟩ := tcp_client_lifecycle hrun.run
  obtain rfl := Except.ok.inj heq
  have hdrained := (hall 0 Nat.zero_lt_one c rfl).2.2.2.2.1 hrun hrest
  exact ⟨_, _, hrun.run, hrun, rfl, rfl, hrest, hdrained.2⟩

/-- The client side closes with a byte for SOCKS, and the client is murdered: the SOCKS side never failed, and is let go with the
byte still in `buf`. -/
theorem murder_drops_buffered_data : ∃ es w,
    tunSystem.RunWhere (Allowed fun i why => i ≠ 0 ∨ why = .murdered) es (.ok w) ∧ (w.clients 0).clientClosed = true ∧
    (w.clients 0).socksClosed = true ∧ (w.clients 0).bufUsed = 1 := by
  obtain ⟨buf, hb⟩ := exists_memory tcpWnd
  obtain ⟨socksRecvBuf, hr⟩ := exists_memory clientSocksRecvBufSize
  have hstart : tunSystem.RunWhere (Allowed fun i why => i ≠ 0 ∨ why = .murdered) [] (.ok start) := .init ⟨_, rfl⟩
  have hclient := hstart.step (fun _ hn => nomatch hn) (start_accept hb hr)
  have hrecv := hclient.step (fun _ hn => nomatch hn) (only_step (fresh_recv buf socksRecvBuf) rfl)
  have hclose := hrecv.step (fun _ hn => nomatch hn) (only_step (recv_close buf socksRecvBuf) rfl)
  obtain ⟨c, hmurder, hf, hrest⟩ : ∃ c, (waiting buf socksRecvBuf).clientMurder = .ok c ∧ c.freed = true ∧
      c.clientClosed = true ∧ c.socksClosed = true ∧ c.bufUsed = 1 := ⟨_, rfl, rfl, rfl, rfl, rfl⟩
  have hstep : tunSystem.step (.ok (only (waiting buf socksRecvBuf))) (.murder 0) = some (.ok (gone c)) := by
    rw [tunSystem_step, Tun2Socks.step, if_pos (by exact List.mem_singleton_self 0), only_client, hmurder]
    exact congrArg some (collect_gone rfl hf)
  have hallowed : Allowed (fun i why => i ≠ 0 ∨ why = .murdered) (.ok (only (waiting buf socksRecvBuf))) (.murder 0) := Or.inr rfl
  exact ⟨_, _, hclose.step hallowed hstep, hrest⟩

end PsiphonAndroid
