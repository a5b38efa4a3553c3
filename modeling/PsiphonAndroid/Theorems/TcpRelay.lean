import PsiphonAndroid.Tun2Socks.Program

/-!
# The TCP clients relay exactly

In every state the program can reach, nothing a client relays in either direction is lost, doubled or reordered, and the window
that lwIP sees is the room in the client's buffer.
-/

namespace PsiphonAndroid

open Lib TcpClient Tun2Socks

namespace TcpRelayAux

/-- What `socks_recv_buf` holds for lwIP; nothing when `socks_recv_buf_used` is -1. -/
def unsent (c : TcpClient) : Bytes := slice c.socksRecvBuf c.socksRecvBufSent (c.socksRecvBufUsed.toNat - c.socksRecvBufSent)

/-- What was queued to lwIP and what waits for it is what came from SOCKS. -/
theorem written_unsent {c : TcpClient} (h : Queued c) : c.written ++ unsent c = c.fromSocks := by
  unfold unsent
  rcases h.stream with ⟨hused, hstream⟩ | ⟨used, hused, -, -, -, -, hstream⟩
  · rw [hused, show (-1 : Int).toNat = 0 from rfl, Nat.zero_sub, slice_zero_len, List.append_nil, hstream]
  · rw [hused, Int.toNat_natCast, hstream]

/-- Data lwIP may deliver is taken: there is room for it, and the answer is not `ERR_MEM`. -/
theorem recv_taken {K : SocksEnd → Prop} {c : TcpClient} (h : Relay K c) (hK : K .failed) {data : Bytes} {sync : List SocksReport}
    (hstep : c.step (.recv (some data) sync) ≠ none) :
    data.length ≤ tcpWnd - c.bufUsed ∧ ∀ c', c.clientRecvFunc (some data) sync ≠ .ok (c', .mem) := by
  rw [TcpClient.step] at hstep
  split at hstep
  · rename_i hcan
    obtain ⟨hp, hf, hwin⟩ := hcan
    have hfits := h.base.fits (h.base.open_of_pcb hp) (hwin data rfl).2
    refine ⟨by omega, ?_⟩
    intro c' heq
    obtain ⟨c'', hrun, -⟩ := clientRecvFunc_returns h hp hf hwin (fun _ _ _ => hK)
    rw [heq] at hrun
    have hret := congrArg Prod.snd (Except.ok.inj hrun)
    change ErrT.mem = if c''.clientClosed = true then .abrt else .ok at hret
    split at hret <;> cases hret
  · exact absurd rfl hstep

end TcpRelayAux

open TcpRelayAux

/-- The relay is exact, in every reachable state and for every accepted client. No assertion fails on the way, and:
1. What was completed towards SOCKS and what is in `buf` is what `client_recv_func` took.
2. While the client side is open, lwIP was told of exactly the bytes completed towards SOCKS; so whatever lwIP may deliver fits, and
   the branch without a buffer is not taken.
3. Once SOCKS is up and while the client side is open, what `tcp_write` took and what waits in `socks_recv_buf` is what came from
   SOCKS, and what lwIP has not confirmed is counted. -/
theorem tcp_relay_exact {s : Except TcpFault Tun2Socks} (h : tunSystem.Reach s) :
    ∃ w, s = .ok w ∧ ∀ id < w.nextClient, ∀ c, w.clients id = c →
      c.toSocks ++ slice c.buf 0 c.bufUsed = c.delivered ∧
      (c.clientClosed = false → c.recved = c.toSocks.length) ∧
      (∀ data sync, c.step (.recv (some data) sync) ≠ none →
        data.length ≤ tcpWnd - c.bufUsed ∧ ∀ c', c.clientRecvFunc (some data) sync ≠ .ok (c', .mem)) ∧
      (c.socksUp = true → c.clientClosed = false →
        c.written ++ unsent c = c.fromSocks ∧ c.acked + c.socksRecvTcpPending = c.written.length) := by
  obtain ⟨w, rfl, hinv⟩ := inv_of_reach h
  refine ⟨w, rfl, ?_⟩
  rintro id hid c rfl
  have hr := hinv.relay id hid
  refine ⟨hr.base.stream, hr.base.window, ?_, ?_⟩
  · exact fun data sync hstep => recv_taken hr trivial hstep
  · exact fun hup hc => ⟨written_unsent (hr.queued hup hc), (hr.queued hup hc).pending⟩

namespace TcpRelayAux

/-- The program at its start. -/
def start : Tun2Socks := ⟨fun _ => accepted [] [] 0 0 false 0, 0, [], 0, []⟩

/-- The program with one client. -/
def only (c : TcpClient) : Tun2Socks := ⟨Function.update start.clients 0 c, 1, [0], 1, []⟩

/-- A client accepted in the given memory. -/
def fresh (buf socksRecvBuf : Bytes) : TcpClient := accepted buf socksRecvBuf 0 0 false 0

theorem tunSystem_step (w : Tun2Socks) (e : TunEvent) : tunSystem.step (.ok w) e = w.step e := rfl

theorem start_accept {buf socksRecvBuf : Bytes} (hb : buf.length = tcpWnd) (hr : socksRecvBuf.length = clientSocksRecvBufSize) :
    tunSystem.step (.ok start) (.accept true buf socksRecvBuf 0 0 false 0 []) = some (.ok (only (fresh buf socksRecvBuf))) := by
  rw [tunSystem_step, Tun2Socks.step, if_neg Bool.noConfusion, if_pos ⟨hb, hr⟩]
  exact congrArg (fun f => some (Except.ok (⟨f, 1, [0], 1, []⟩ : Tun2Socks))) (Function.update_idem ..)

theorem only_client (c : TcpClient) : (only c).clients 0 = c := rfl

theorem only_step {c d : TcpClient} {e : TcpEvent} (h : c.step e = some (.ok d)) (hf : d.freed = false) :
    tunSystem.step (.ok (only c)) (.client 0 e) = some (.ok (only d)) := by
  rw [tunSystem_step, Tun2Socks.step, if_pos (show 0 < (only c).nextClient from Nat.zero_lt_one), only_client, h]
  change some ((only c).collect 0 d) = _
  unfold Tun2Socks.collect
  rw [if_neg (fun hn => absurd (hf.symm.trans hn.1) Bool.noConfusion)]
  exact congrArg (fun f => some (Except.ok (⟨f, 1, [0], 1, []⟩ : Tun2Socks))) (Function.update_idem ..)

theorem exists_memory (n : Nat) : ∃ buf : Bytes, buf.length = n := ⟨List.replicate n 0, List.length_replicate⟩

end TcpRelayAux

/-- SOCKS comes up, takes two of three bytes and sends two, of which lwIP takes one. -/
theorem tcp_relay_exact_partial : ∃ w, tunSystem.Reach (.ok w) ∧ (w.clients 0).bufUsed = 1 ∧ (w.clients 0).recved = 2 ∧
    (w.clients 0).socksRecvBufSent = 1 ∧ (w.clients 0).socksRecvBufUsed = 2 ∧
    (w.clients 0).toSocks ++ slice (w.clients 0).buf 0 (w.clients 0).bufUsed = (w.clients 0).delivered := by
  obtain ⟨buf, hb⟩ := exists_memory tcpWnd
  obtain ⟨socksRecvBuf, hr⟩ := exists_memory clientSocksRecvBufSize
  have hstart : tunSystem.Run [] (.ok start) := .init ⟨_, rfl⟩
  have hclient := hstart.step (start_accept hb hr)
  have hup := hclient.step (only_step (d := (fresh buf socksRecvBuf).afterUp) (e := .socks .up) rfl rfl)
  have hrecv := hup.step (only_step (d := (fresh buf socksRecvBuf).afterUp.take [1, 2, 3]) (e := .recv (some [1, 2, 3]) []) rfl rfl)
  have hsend := hrecv.step (only_step (d := ((fresh buf socksRecvBuf).afterUp.take [1, 2, 3]).drain 2)
    (e := .socks (.sendDone 2)) rfl rfl)
  have hdata := hsend.step (only_step (e := .socks (.recvDone [7, 8] ⟨[⟨1, some .ok⟩], true⟩)) rfl rfl)
  obtain ⟨w, heq, hall⟩ := tcp_relay_exact ⟨_, hdata⟩
  obtain rfl := Except.ok.inj heq
  exact ⟨_, ⟨_, hdata⟩, rfl, rfl, rfl, rfl, (hall 0 Nat.zero_lt_one _ rfl).1⟩

end PsiphonAndroid
