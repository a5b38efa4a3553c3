import PsiphonAndroid.Tun2Socks.Program

/-!
# Who frees a pbuf

`client_recv_func` with its calls of `pbuf_free` counted, and the program with the record of every pbuf that was passed to it. What
the callback does to the client is what `clientRecvFunc` does (`clientRecvFuncCounted_fst`); the count says what it does to the pbuf.
The callback leaves the pbuf behind where the client side closes inside its `SYNC_COMMIT`: `ClosesDuring` says which reports of the
SOCKS client do that.
-/

namespace PsiphonAndroid

open Lib

namespace TcpClient

/-- `client_recv_func`, with how often it calls `pbuf_free`. -/
def clientRecvFuncCounted (c : TcpClient) (p : Option Bytes) (sync : List SocksReport) :
    Except TcpFault (TcpClient × ErrT × Nat) := do
  check (!c.freed) .useAfterFree
  check (!c.clientClosed) .assertion
  match p with
  | none => do
    let c ← clientFreeClient closeDepth c
    return (c, .abrt, 0)
  | some data => do
    check (0 < data.length) .assertion
    if tcpWnd - c.bufUsed < data.length then return (c, .mem, 0) else
    let c := { c with
      buf := memcpy c.buf c.bufUsed data
      bufUsed := c.bufUsed + data.length
      delivered := c.delivered ++ data }
    if c.bufUsed = data.length ∧ c.socksUp then do
      check (!c.socksClosed) .assertion
      let c ← clientSendToSocks c
      let (c, err) ← syncWatched c sync
      if err = .abrt then return (c, .abrt, 0) else return (c, .ok, 1)
    else return (c, .ok, 1)

/-- `SYNC_COMMIT` ends with the client there or gone. -/
theorem syncWatched_err {c c' : TcpClient} {sync : List SocksReport} {err : ErrT} (h : c.syncWatched sync = .ok (c', err)) :
    err = .abrt ∨ err = .ok := by
  unfold syncWatched at h
  simp only [bind, Except.bind, pure, Except.pure] at h
  split at h
  · cases h
  · split at h
    · simp only [Except.ok.injEq, Prod.mk.injEq] at h
      exact .inl h.2.symm
    · split at h
      · cases h
      · simp only [Except.ok.injEq, Prod.mk.injEq] at h
        exact .inr h.2.symm

/-- The counted callback does to the client, and returns, what `client_recv_func` does. -/
theorem clientRecvFuncCounted_fst (c : TcpClient) (p : Option Bytes) (sync : List SocksReport) :
    (c.clientRecvFuncCounted p sync).map (fun r => (r.1, r.2.1)) = c.clientRecvFunc p sync := by
  have hwatched : ∀ c : TcpClient,
      ((c.syncWatched sync).bind fun r => if r.2 = .abrt then (.ok (r.1, .abrt, 0) : Except TcpFault (TcpClient × ErrT × Nat))
        else .ok (r.1, .ok, 1)).map (fun r => (r.1, r.2.1)) = c.syncWatched sync := by
    intro c
    cases hrun : c.syncWatched sync with
    | error f => rfl
    | ok r =>
      obtain ⟨c', err⟩ := r
      rcases syncWatched_err hrun with rfl | rfl <;> rfl
  unfold clientRecvFuncCounted clientRecvFunc
  simp only [bind, Except.bind, pure, Except.pure] at hwatched ⊢
  cases check (!c.freed) .useAfterFree with
  | error f => rfl
  | ok _ =>
    cases check (!c.clientClosed) .assertion with
    | error f => rfl
    | ok _ =>
      cases p with
      | none =>
        dsimp only
        cases clientFreeClient closeDepth c <;> rfl
      | some data =>
        dsimp only
        cases check (0 < data.length) .assertion with
        | error f => rfl
        | ok _ =>
          dsimp only
          split
          · rfl
          · split
            · cases check (!c.socksClosed) .assertion with
              | error f => rfl
              | ok _ =>
                dsimp only
                generalize clientSendToSocks _ = r
                cases r with
                | error f => rfl
                | ok c' => exact hwatched c'
            · rfl

/-! ## Which reports close the client side -/

/-- A report of the SOCKS client after which the client side is closed: its end, where no data for the application is left; or data
that lwIP refuses. -/
def Closes (c : TcpClient) : SocksReport → Prop
  | .error | .closed => ¬(c.socksUp = true ∧ c.HasDataForClient)
  | .recvDone data lwip => LwipRefuses (c.withReceived data) lwip
  | .up | .sendDone _ => False

/-- One of the reports, as far as they can come, closes the client side. -/
def ClosesDuring : List SocksReport → TcpClient → Prop
  | [], _ => False
  | e :: es, c =>
    match c.socksStep e with
    | some (.ok c') => c.Closes e ∨ ClosesDuring es c'
    | _ => False

variable {K : SocksEnd → Prop} {c : TcpClient}

theorem afterSocks_clientClosed (c : TcpClient) (why : SocksEnd) :
    (c.afterSocks why).clientClosed = true ↔ c.clientClosed = true ∨ ¬(c.socksUp = true ∧ c.HasDataForClient) := by
  unfold afterSocks
  cases hc : c.clientClosed with
  | true => simp [withoutSocks, hc]
  | false =>
    by_cases hdata : c.socksUp = true ∧ c.HasDataForClient
    · simp [hdata, withoutSocks, hc]
    · rw [if_neg (fun hn => hdata ⟨hn.1, hn.2.1⟩), if_pos rfl]
      simp only [afterPcb_clientClosed, hdata, not_false_iff, or_true]

/-- A report closes the client side exactly when it is one of those that do. -/
theorem socksStep_clientClosed (h : Relay K c) {e : SocksReport} {c' : TcpClient} (hr : c.socksStep e = some (.ok c')) :
    c'.clientClosed = true ↔ c.clientClosed = true ∨ c.Closes e := by
  have hdown : ∀ closed, c.socksClosed = false → (closed = true → c.socksUp = true) → c.clientSocksDown closed = .ok c' →
      (c'.clientClosed = true ↔ c.clientClosed = true ∨ ¬(c.socksUp = true ∧ c.HasDataForClient)) := by
    intro closed hs hup hrun
    have hf := h.base.not_freed (Or.inr hs)
    have hcheck : (!closed || c.socksUp) = true := by
      cases closed with
      | false => rfl
      | true => exact hup rfl
    unfold clientSocksDown at hrun
    rw [check_pos (by rw [hf]; rfl), check_pos (by rw [hs]; rfl), check_pos hcheck] at hrun
    have heq := clientFreeSocks_eq 0 .failed hf hs (h.base.socks_open hs) h.base.pcb_open
    obtain rfl := Except.ok.inj (heq.symm.trans hrun)
    exact afterSocks_clientClosed c .failed
  cases e with
  | up =>
    rw [socksStep, Option.ite_none_right_eq_some] at hr
    obtain ⟨⟨hk, hup⟩, hr⟩ := hr
    have heq := clientSocksUp_eq h.base (h.base.open_of_socks hk) hup
    obtain rfl := Except.ok.inj (heq.symm.trans (Option.some.inj hr))
    simp [Closes, afterUp, withSocksUp]
  | error =>
    rw [socksStep, Option.ite_none_right_eq_some] at hr
    exact hdown false (h.base.open_of_socks hr.1) (fun hn => Bool.noConfusion hn) (Option.some.inj hr.2)
  | closed =>
    rw [socksStep, Option.ite_none_right_eq_some] at hr
    exact hdown true (h.base.open_of_socks hr.1.1) (fun _ => hr.1.2) (Option.some.inj hr.2)
  | sendDone len =>
    rw [socksStep, Option.ite_none_right_eq_some] at hr
    obtain ⟨⟨hpos, hle⟩, hr⟩ := hr
    cases hsend : c.sending with
    | none =>
      rw [hsend, Option.getD_none] at hle
      omega
    | some m =>
      rw [hsend, Option.getD_some] at hle
      obtain ⟨-, hm, hup, hs⟩ := h.base.sending m hsend
      have hb := h.base.drain hup hs (hle.trans hm)
      have heq := clientSocksSendHandlerDone_eq h.base hup hs hpos (hle.trans hm)
      rw [Option.some.inj hr] at heq
      split at heq
      · obtain rfl := Except.ok.inj heq
        simp [Closes, drain]
      · rename_i hmore
        have hc : c.clientClosed = true := Bool.not_eq_false _ ▸ fun hn => hmore (Or.inr hn)
        have hfree := clientFreeSocks_eq 0 .drained (hb.not_freed (Or.inr hs)) hs (hb.socks_open hs) hb.pcb_open
        obtain rfl := Except.ok.inj (heq.trans hfree)
        rw [afterSocks_clientClosed]
        exact ⟨fun _ => Or.inl hc, fun _ => Or.inl hc⟩
  | recvDone data lwip =>
    rw [socksStep, Option.ite_none_right_eq_some] at hr
    obtain ⟨⟨hrecv, hpos, hle⟩, hr⟩ := hr
    obtain ⟨c'', hrun, -, hclosed⟩ := clientSocksRecvHandlerDone_spec h hrecv hpos hle lwip
    obtain rfl := Except.ok.inj (hrun.symm.trans (Option.some.inj hr))
    exact hclosed

/-- The client side is closed after a `SYNC_COMMIT` exactly when it was before or one of the reports closes it. -/
theorem syncCommit_clientClosed {sync : List SocksReport} (h : Relay (fun _ => True) c) {c' : TcpClient}
    (hrun : syncCommit sync c = .ok c') : c'.clientClosed = true ↔ c.clientClosed = true ∨ ClosesDuring sync c := by
  induction sync generalizing c with
  | nil =>
    obtain rfl := Except.ok.inj hrun
    simp [ClosesDuring]
  | cons e sync ih =>
    unfold syncCommit at hrun
    unfold ClosesDuring
    cases hstep : c.socksStep e with
    | none =>
      rw [hstep] at hrun
      obtain rfl := Except.ok.inj hrun
      simp
    | some r =>
      obtain ⟨c1, rfl, h1⟩ := socksStep_keeps h (fun _ => trivial) hstep
      rw [hstep] at hrun
      rw [ih h1 hrun, socksStep_clientClosed h hstep, or_assoc]

/-- What the callback does with a pbuf that lwIP may deliver: it returns `ERR_ABRT` without freeing it where a report inside its
`SYNC_COMMIT` closes the client side, and else returns `ERR_OK` and frees it once. -/
theorem clientRecvFuncCounted_spec (h : Relay (fun _ => True) c) (hp : c.pcb = true) (hr : c.recvFunc = true) {data : Bytes}
    (hpos : 0 < data.length) (hwin : c.delivered.length + data.length ≤ tcpWnd + c.recved) (sync : List SocksReport) :
    ∃ c', c.clientRecvFuncCounted (some data) sync =
        .ok (c', if c'.clientClosed = true then (.abrt, 0) else (.ok, 1)) ∧
      (c'.clientClosed = true ↔ c.bufUsed = 0 ∧ c.socksUp = true ∧ ClosesDuring sync (c.take data)) := by
  have hc := h.base.open_of_pcb hp
  have hs := h.base.recvFunc hr
  have hf := h.base.not_freed (Or.inl hc)
  have hfits := h.base.fits hc hwin
  have hrelay := h.take hc hs hpos hfits
  unfold clientRecvFuncCounted
  rw [check_pos (by rw [hf]; rfl), check_pos (by rw [hc]; rfl)]
  simp only [bind, Except.bind, pure, Except.pure]
  rw [check_pos (decide_eq_true hpos)]
  dsimp only
  rw [if_neg (by omega)]
  split
  · rename_i hidle
    have hzero : c.bufUsed = 0 := by omega
    have hsend : c.sending = none := Option.eq_none_iff_forall_ne_some.mpr fun m hm => by
      have := h.base.sending m hm
      omega
    rw [check_pos (by rw [hs]; rfl), clientSendToSocks_eq (by exact hf) (by exact hs) (by exact hidle.2)
      (by exact h.base.socks_open hs) (by exact hsend) (by change 0 < c.bufUsed + data.length; omega)]
    obtain ⟨c', hcommit, hrelay'⟩ := @syncCommit_keeps (fun _ => True) _ sync (fun _ _ _ => trivial) hrelay
    obtain ⟨c'', hwatched, -⟩ := @syncWatched_returns (fun _ => True) _ sync (fun _ _ _ => trivial) hrelay hc
    have hclosed := syncCommit_clientClosed hrelay hcommit
    have hdead : { c.take data with deadClient := false } = c.take data := by rw [← (hrelay.base.dead.trans hc)]
    have hsame : c'' = c' := by
      unfold syncWatched at hwatched
      rw [hdead, hcommit] at hwatched
      simp only [bind, Except.bind, pure, Except.pure] at hwatched
      split at hwatched
      · exact (Prod.mk.inj (Except.ok.inj hwatched)).1.symm
      · split at hwatched
        · cases hwatched
        · exact (Prod.mk.inj (Except.ok.inj hwatched)).1.symm
    subst hsame
    refine ⟨c'', ?_, ?_⟩
    · have hbind : ((c.take data).syncWatched sync).bind (fun r =>
          if r.2 = .abrt then (.ok (r.1, .abrt, 0) : Except TcpFault (TcpClient × ErrT × Nat)) else .ok (r.1, .ok, 1)) =
          .ok (c'', if c''.clientClosed = true then (.abrt, 0) else (.ok, 1)) := by
        rw [hwatched]
        cases c''.clientClosed <;> rfl
      unfold TcpClient.take at hbind
      rw [if_pos ⟨hzero, hidle.2⟩] at hbind
      exact hbind
    · rw [hclosed]
      have hopen : (c.take data).clientClosed = false := hc
      rw [hopen]
      simp [hzero, hidle.2]
  · rename_i hbusy
    refine ⟨c.take data, ?_, ?_⟩
    · have hopen : (c.take data).clientClosed = false := hc
      rw [hopen]
      unfold TcpClient.take
      rw [if_neg (fun hn => hbusy ⟨by omega, hn.2⟩)]
      rfl
    · refine ⟨fun hn => absurd (hc.symm.trans hn) Bool.noConfusion, fun hn => absurd ⟨?_, hn.2.1⟩ hbusy⟩
      rw [hn.1, Nat.zero_add]

end TcpClient

/-! ## The program and its pbufs -/

/-- What `client_recv_func` returned for a pbuf, and how often it freed it. -/
structure PbufUse where
  err : ErrT
  frees : Nat
  deriving DecidableEq

/-- A pbuf is freed once where the callback returns `ERR_OK` or `ERR_ABRT`, and left to lwIP where it returns `ERR_MEM`. -/
def PbufUse.Settled (u : PbufUse) : Prop := u.frees = if u.err = .mem then 0 else 1

instance (u : PbufUse) : Decidable u.Settled := inferInstanceAs (Decidable (_ = _))

/-- The program, and the pbufs that were passed to `client_recv_func`. -/
structure PbufRun where
  tun : Tun2Socks
  uses : List PbufUse

/-- The pbuf of an event. -/
def pbufUses (w : Tun2Socks) : TunEvent → List PbufUse
  | .client id (.recv (some data) sync) =>
    match (w.clients id).clientRecvFuncCounted (some data) sync with
    | .ok (_, err, frees) => [⟨err, frees⟩]
    | .error _ => []
  | _ => []

/-- The program from its start, with the record of its pbufs. -/
def pbufSystem : System (Except TcpFault PbufRun) TunEvent where
  init s := ∃ clients, s = .ok ⟨⟨clients, 0, [], 0, []⟩, []⟩
  step s e :=
    match s with
    | .error _ => none
    | .ok r => (r.tun.step e).map fun t => t.map fun w => ⟨w, r.uses ++ pbufUses r.tun e⟩

/-- No report inside the `SYNC_COMMIT` of a `client_recv_func` that starts to send closes the client side. -/
def PbufKept : Except TcpFault PbufRun → TunEvent → Prop
  | .ok r, .client id (.recv (some data) sync) =>
    ¬((r.tun.clients id).bufUsed = 0 ∧ (r.tun.clients id).socksUp = true ∧
      TcpClient.ClosesDuring sync ((r.tun.clients id).take data))
  | _, _ => True

end PsiphonAndroid
