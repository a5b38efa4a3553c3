import PsiphonAndroid.Tun2Socks.Close

/-!
# The invariant of a TCP client

`Base` holds between the statements of a callback, `Relay` between callbacks: there the client waits for what it has to wait for,
and the data from SOCKS is queued as far as lwIP took it. Closing a side turns the one into the other.
-/

namespace PsiphonAndroid

open Lib

/-- The SOCKS connection failed or was closed by the server. -/
def SocksReport.Down : SocksReport → Prop
  | .error | .closed => True
  | .up | .sendDone _ | .recvDone _ _ => False

/-- The reports of the SOCKS client in an event of the client. -/
def TcpEvent.reports : TcpEvent → List SocksReport
  | .recv _ sync => sync
  | .sent _ _ sync => sync
  | .err => []
  | .socks e => [e]

namespace TcpClient

/-- The flags of the two sides, the streams and how the sides ended; `K` are the ends of the SOCKS side there can be beside
`drained`.
`stream`: what was sent to SOCKS and what is in `buf` is what was taken from lwIP.
`window`: while the client side is open, lwIP was told of everything that was sent to SOCKS. -/
structure Base (K : SocksEnd → Prop) (c : TcpClient) : Prop where
  freed : c.freed = (c.clientClosed && c.socksClosed)
  pcb : c.pcb = !c.clientClosed
  socks : c.socksClient = !c.socksClosed
  dead : c.deadClient = c.clientClosed
  callbacks : c.clientClosed = true → c.errFunc = false ∧ c.recvFunc = false ∧ c.sentFunc = false
  recvFunc : c.recvFunc = true → c.socksClosed = false
  sentFunc : c.sentFunc = true → c.socksUp = true
  bufLen : c.buf.length = tcpWnd
  used_le : c.bufUsed ≤ tcpWnd
  stream : c.toSocks ++ slice c.buf 0 c.bufUsed = c.delivered
  window : c.clientClosed = false → c.recved = c.toSocks.length
  sending : ∀ len ∈ c.sending, 0 < len ∧ len ≤ c.bufUsed ∧ c.socksUp = true ∧ c.socksClosed = false
  sends : c.socksUp = true → c.socksClosed = false → 0 < c.bufUsed → c.sending.isSome = true
  recvBufLen : c.socksRecvBuf.length = clientSocksRecvBufSize
  receiving : c.receiving = true → c.socksUp = true ∧ c.socksClosed = false ∧ c.socksRecvBufUsed = -1
  notUp : c.socksUp = false → c.written = [] ∧ c.fromSocks = [] ∧ c.acked = 0
  pcbEnded : c.clientClosed = c.pcbEnd.isSome
  socksEnded : c.socksClosed = c.socksEnd.isSome
  ends : ∀ why ∈ c.socksEnd, why = .drained ∨ K why
  drained : c.socksEnd = some .drained → c.clientClosed = true ∧ c.bufUsed = 0
  confirmed : c.pcbEnd = some (.closed true) → c.clientClosed = true ∧ c.socksClosed = true ∧ c.written = c.fromSocks ∧
    c.acked = c.written.length

/-- What was written to lwIP and what waits in `socks_recv_buf` is what was received from SOCKS, and what lwIP has yet to confirm
is counted. Data waits only while there is something to confirm. -/
structure Queued (c : TcpClient) : Prop where
  pending : c.acked + c.socksRecvTcpPending = c.written.length
  stream : (c.socksRecvBufUsed = -1 ∧ c.written = c.fromSocks) ∨
    ∃ used : Nat, c.socksRecvBufUsed = used ∧ c.socksRecvBufSent < used ∧ used ≤ clientSocksRecvBufSize ∧
      c.socksRecvWaiting = true ∧ 0 < c.socksRecvTcpPending ∧
      c.written ++ slice c.socksRecvBuf c.socksRecvBufSent (used - c.socksRecvBufSent) = c.fromSocks

/-- A client between callbacks. -/
structure Relay (K : SocksEnd → Prop) (c : TcpClient) : Prop where
  base : Base K c
  waitsForSocks : c.clientClosed = true → c.socksClosed = false → 0 < c.bufUsed
  waitsForClient : c.clientClosed = false → c.socksClosed = true → c.socksUp = true ∧ c.HasDataForClient
  queued : c.socksUp = true → c.clientClosed = false → Queued c
  receives : c.socksUp = true → c.clientClosed = false → c.socksClosed = false → c.socksRecvBufUsed = -1 → c.receiving = true

variable {K : SocksEnd → Prop} {c : TcpClient}

theorem Base.not_freed (h : Base K c) (ho : c.clientClosed = false ∨ c.socksClosed = false) : c.freed = false := by
  rw [h.freed]
  rcases ho with ho | ho
  · rw [ho, Bool.false_and]
  · rw [ho, Bool.and_false]

theorem Base.pcb_open (h : Base K c) (hc : c.clientClosed = false) : c.pcb = true := by rw [h.pcb, hc]; rfl

theorem Base.open_of_pcb (h : Base K c) (hp : c.pcb = true) : c.clientClosed = false := by
  have := h.pcb
  rw [hp] at this
  exact Bool.not_eq_true' _ ▸ this.symm

theorem Base.socks_open (h : Base K c) (hs : c.socksClosed = false) : c.socksClient = true := by rw [h.socks, hs]; rfl

theorem Base.open_of_socks (h : Base K c) (hk : c.socksClient = true) : c.socksClosed = false := by
  have := h.socks
  rw [hk] at this
  exact Bool.not_eq_true' _ ▸ this.symm

/-- The SOCKS client is gone: what that leaves, whichever callbacks stay. -/
theorem Base.withoutSocks (h : Base K c) (why : SocksEnd) (hs : c.socksClosed = false) (hK : why = .drained ∨ K why)
    (hwhy : why = .drained → c.clientClosed = true ∧ c.bufUsed = 0) : Base K { c.withoutSocks why with
      recvFunc := false
      freed := c.clientClosed } :=
  { h with
    freed := (Bool.and_true _).symm
    socks := rfl
    callbacks := fun hc => ⟨(h.callbacks hc).1, rfl, (h.callbacks hc).2.2⟩
    recvFunc := fun hn => Bool.noConfusion hn
    sending := fun _ hn => nomatch hn
    sends := fun _ hn => Bool.noConfusion hn
    receiving := fun hn => Bool.noConfusion hn
    socksEnded := rfl
    ends := fun _ hw => Option.some.inj hw ▸ hK
    drained := fun hd => hwhy (Option.some.inj hd)
    confirmed := fun hd => absurd ((h.confirmed hd).2.1.symm.trans hs) Bool.noConfusion }

/-- The pcb is gone: what that leaves. -/
theorem Base.withoutPcb (h : Base K c) (hc : c.clientClosed = false) {e : PcbEnd}
    (he : e = .closed true → c.socksClosed = true ∧ c.written = c.fromSocks ∧ c.acked = c.written.length) :
    Base K { c.withoutPcb e with
      deadClient := true
      clientClosed := true
      freed := c.socksClosed } :=
  { h with
    freed := (Bool.true_and _).symm
    pcb := rfl
    dead := rfl
    callbacks := fun _ => ⟨rfl, rfl, rfl⟩
    recvFunc := fun hn => Bool.noConfusion hn
    sentFunc := fun hn => Bool.noConfusion hn
    window := fun hn => Bool.noConfusion hn
    pcbEnded := rfl
    drained := fun hd => absurd ((h.drained hd).1.symm.trans hc) Bool.noConfusion
    confirmed := fun hd => ⟨rfl, he (Option.some.inj hd)⟩ }

/-- With both sides closed the client waits for nothing. -/
theorem Base.relay_of_closed (h : Base K c) (hc : c.clientClosed = true) (hs : c.socksClosed = true) : Relay K c where
  base := h
  waitsForSocks _ hn := absurd (hs.symm.trans hn) Bool.noConfusion
  waitsForClient hn := absurd (hc.symm.trans hn) Bool.noConfusion
  queued _ hn := absurd (hc.symm.trans hn) Bool.noConfusion
  receives _ hn := absurd (hc.symm.trans hn) Bool.noConfusion

/-- The client side ends: the client waits for SOCKS to take the rest, or is freed. -/
theorem relay_afterPcb (h : Base K c) (hc : c.clientClosed = false) {e : PcbEnd}
    (he : e = .closed true → c.socksClosed = true ∧ c.written = c.fromSocks ∧ c.acked = c.written.length) :
    Relay K (c.withoutPcb e).afterPcb := by
  have hb := h.withoutPcb hc he
  unfold afterPcb
  split
  · rename_i hwait
    have hs : c.socksClosed = false := hwait.2
    have hf : c.freed = c.socksClosed := (h.not_freed (Or.inl hc)).trans hs.symm
    refine ⟨{ hb with freed := hf }, ?_, ?_, ?_, ?_⟩
    · exact fun _ _ => hwait.1
    · exact fun hn => Bool.noConfusion hn
    · exact fun _ hn => Bool.noConfusion hn
    · exact fun _ hn => Bool.noConfusion hn
  · rename_i hwait
    split
    · rename_i hs
      have hused : c.bufUsed = 0 := Nat.eq_zero_of_not_pos fun hpos => hwait ⟨hpos, hs⟩
      exact (hb.withoutSocks .drained hs (Or.inl rfl) (fun _ => ⟨rfl, hused⟩)).relay_of_closed rfl rfl
    · rename_i hs
      have hs : c.socksClosed = true := Bool.not_eq_false _ ▸ hs
      rw [hs] at hb
      exact hb.relay_of_closed rfl hs

/-- With no data left for the application, all that came from SOCKS was written and confirmed. -/
theorem Base.all_confirmed (h : Base K c) (hq : c.socksUp = true → Queued c) (hdata : c.socksUp = true → ¬c.HasDataForClient) :
    c.written = c.fromSocks ∧ c.acked = c.written.length := by
  cases hup : c.socksUp with
  | false =>
    obtain ⟨hw, hfrom, ha⟩ := h.notUp hup
    exact ⟨hw.trans hfrom.symm, by rw [ha, hw]; rfl⟩
  | true =>
    have hq := hq hup
    have hdata := hdata hup
    unfold HasDataForClient at hdata
    have hpend := hq.pending
    rcases hq.stream with ⟨-, hstream⟩ | ⟨used, hused, -, -, -, hpos, -⟩
    · exact ⟨hstream, by omega⟩
    · exact absurd (Or.inr hpos) hdata

/-- The SOCKS side ends: the client waits for lwIP to take and confirm the rest, or is freed. -/
theorem relay_afterSocks (h : Base K c) (hs : c.socksClosed = false) (hq : c.socksUp = true → c.clientClosed = false → Queued c)
    {why : SocksEnd} (hK : why = .drained ∨ K why) (hwhy : why = .drained → c.clientClosed = true ∧ c.bufUsed = 0) :
    Relay K (c.afterSocks why) := by
  have hf := h.not_freed (Or.inr hs)
  have hb := h.withoutSocks _ hs hK hwhy
  unfold afterSocks
  split
  · rename_i hwait
    obtain ⟨hup, hdata, hc⟩ := hwait
    have hq := hq hup hc
    refine ⟨{ hb with
      freed := by change c.freed = (c.clientClosed && true); rw [hf, hc]; rfl
      callbacks := fun hn => absurd (hc.symm.trans hn) Bool.noConfusion
      recvFunc := by
        intro hn
        change (c.recvFunc && !(c.socksUp && !c.clientClosed)) = true at hn
        rw [hup, hc, Bool.not_false, Bool.and_true, Bool.not_true, Bool.and_false] at hn
        cases hn }, ?_, ?_, ?_, ?_⟩
    · exact fun hn => absurd (hc.symm.trans hn) Bool.noConfusion
    · exact fun _ _ => ⟨hup, hdata⟩
    · exact fun _ _ => ⟨hq.pending, hq.stream⟩
    · exact fun _ _ hn => Bool.noConfusion hn
  · rename_i hwait
    split
    · rename_i hc
      have hend := h.all_confirmed (fun hup => hq hup hc) (fun hup hd => hwait ⟨hup, hd, hc⟩)
      have hrelay := relay_afterPcb (e := .closed true) hb hc (fun _ => ⟨rfl, hend⟩)
      rw [show c.clientClosed = c.freed from hc.trans hf.symm] at hrelay
      exact hrelay
    · rename_i hc
      have hc : c.clientClosed = true := Bool.not_eq_false _ ▸ hc
      have hrecv : (c.recvFunc && !(c.socksUp && !c.clientClosed)) = false := by rw [(h.callbacks hc).2.1, Bool.false_and]
      refine Base.relay_of_closed { hb with
        freed := by change true = (c.clientClosed && true); rw [hc]; rfl
        callbacks := fun _ => ⟨(h.callbacks hc).1, hrecv, (h.callbacks hc).2.2⟩
        recvFunc := fun hn => absurd (hrecv.symm.trans hn) Bool.noConfusion } hc rfl

end TcpClient

end PsiphonAndroid
