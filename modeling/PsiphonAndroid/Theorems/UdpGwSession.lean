import PsiphonAndroid.UdpGw.Session

/-!
# The session is supervised

Between callbacks a session has a SOCKS client or waits for its timer, never both and never neither, and its `UdpGwClient` has a server
exactly while the SOCKS client is up. Every handler has one outcome in such a state, written out below; the rest is the list of
events.
-/

namespace PsiphonAndroid

open Lib UdpGwClient

namespace UdpGwSessionAux

/-! ## What concerns the connections leaves the server -/

/-- The call, where it is no fault, leaves whether there is a server. -/
def KeepsServer (o : UdpGwClient) (r : Outcome) : Prop := ∀ o' acts, r = .ok (o', acts) → o'.haveServer = o.haveServer

/-- A fault keeps the server. -/
theorem keepsServer_error (o : UdpGwClient) (f : UdpGwFault) : KeepsServer o (.error f) := by
  intro o' acts h
  cases h

/-- So does a result with the same `haveServer`. -/
theorem keepsServer_ok {o o' : UdpGwClient} (h : o'.haveServer = o.haveServer) (acts : List UdpGwAct) :
    KeepsServer o (.ok (o', acts)) := by
  rintro _ _ ⟨⟩
  exact h

/-- One operation after another. -/
theorem keepsServer_andThen {o : UdpGwClient} {r : Outcome} {f : UdpGwClient → Outcome} (hr : KeepsServer o r)
    (hf : ∀ o, KeepsServer o (f o)) : KeepsServer o (andThen r f) := by
  intro o'' acts h
  unfold andThen at h
  rcases r with e | ⟨o', acts'⟩
  · cases h
  · dsimp only at h
    rcases hfo : f o' with e | ⟨o₂, acts₂⟩
    · rw [hfo] at h
      cases h
    · rw [hfo] at h
      obtain ⟨rfl, -⟩ := Prod.mk.inj (Except.ok.inj h)
      exact (hf o' _ _ hfo).trans (hr _ _ rfl)

/-- Sending a frame keeps the server. -/
theorem keepsServer_connectionSend (o : UdpGwClient) (con : Nat) (flags : UInt8) (data : Bytes) :
    KeepsServer o (o.connectionSend con flags data) := by
  unfold connectionSend
  dsimp only
  split
  · exact keepsServer_error o _
  split
  · exact keepsServer_ok rfl _
  split
  · exact keepsServer_error o _
  · exact keepsServer_ok rfl _

/-- A buffer with room again keeps the server. -/
theorem keepsServer_outputHandlerRecv (o : UdpGwClient) (con : Nat) : KeepsServer o (o.outputHandlerRecv con) := by
  unfold outputHandlerRecv
  split
  · exact keepsServer_error o _
  · exact keepsServer_ok rfl _

/-- The pending jobs keep the server. -/
theorem keepsServer_executeAll (jobs : List UdpGwJob) (o : UdpGwClient) : KeepsServer o (o.executeAll jobs) := by
  induction jobs generalizing o with
  | nil => exact keepsServer_ok rfl _
  | cons job jobs ih =>
    refine keepsServer_andThen ?_ ih
    cases job with
    | outputHandlerRecv con => exact keepsServer_outputHandlerRecv o con
    | connectionFirstJobHandler con => exact keepsServer_connectionSend o con _ _

theorem keepsServer_executeJobs (o : UdpGwClient) : KeepsServer o o.executeJobs :=
  fun o' acts h => keepsServer_executeAll o.pending { o with pending := [] } o' acts h

/-- The loop of `find_unused_conid` moves the cursor only. -/
theorem findUnusedConidLoop_haveServer (fuel : Nat) {o o' : UdpGwClient} {conid : UInt16}
    (h : findUnusedConidLoop fuel o = .ok (o', conid)) : o'.haveServer = o.haveServer := by
  induction fuel generalizing o with
  | zero => cases h
  | succ fuel ih =>
    unfold findUnusedConidLoop at h
    split at h
    · obtain ⟨rfl, -⟩ := Prod.mk.inj (Except.ok.inj h)
      rfl
    · exact (ih h).trans rfl

/-- A new connection keeps the server. -/
theorem keepsServer_connectionInit (o : UdpGwClient) (conaddr : ConAddr) (flags : UInt8) (data : Bytes) (mallocOk flowOk : Bool) :
    KeepsServer o (o.connectionInit conaddr flags data mallocOk flowOk) := by
  unfold connectionInit
  split
  · exact keepsServer_error o _
  split
  · exact keepsServer_error o _
  split
  · exact keepsServer_error o _
  split
  · exact keepsServer_ok rfl _
  split
  · exact keepsServer_error o _
  · rename_i o' conid hconid
    have hsame : o'.haveServer = o.haveServer := by
      unfold findUnusedConid at hconid
      split at hconid
      · exact findUnusedConidLoop_haveServer _ hconid
      · cases hconid
    dsimp only
    split
    · exact keepsServer_ok (by exact hsame) _
    split
    · exact keepsServer_error o _
    split
    · exact keepsServer_error o _
    · exact keepsServer_ok (by exact hsame) _

/-- Taking over a connection keeps the server. -/
theorem reuseConnection_haveServer {o o' : UdpGwClient} {conaddr : ConAddr} {con : Nat}
    (h : o.reuseConnection conaddr = .ok (o', con)) : o'.haveServer = o.haveServer := by
  unfold reuseConnection at h
  dsimp only at h
  repeat' split at h
  all_goals cases h
  rfl

/-- Submitting a packet keeps the server. -/
theorem keepsServer_submitPacket (o : UdpGwClient) (localAddr remoteAddr : BAddr) (isDns : Bool) (data : Bytes)
    (mallocOk flowOk : Bool) : KeepsServer o (o.submitPacket localAddr remoteAddr isDns data mallocOk flowOk) := by
  unfold submitPacket
  split
  · exact keepsServer_error o _
  dsimp only
  split
  · rename_i con _
    exact fun o' acts h => keepsServer_connectionSend (o.moveToFront con) con _ _ o' acts h
  split
  · split
    · exact keepsServer_error o _
    · rename_i o' con hreuse
      refine keepsServer_andThen (keepsServer_ok (reuseConnection_haveServer hreuse) _) ?_
      exact fun o' o'' acts h => keepsServer_connectionSend (o'.moveToFront con) con _ _ o'' acts h
  · exact keepsServer_connectionInit o _ _ _ _ _

/-- A packet of the server keeps the server. -/
theorem keepsServer_recvInterfaceHandlerSend (o : UdpGwClient) (data : Bytes) : KeepsServer o (o.recvInterfaceHandlerSend data) := by
  unfold recvInterfaceHandlerSend
  repeat' split
  all_goals first | exact keepsServer_error o _ | exact keepsServer_ok rfl _

/-- Freeing the connections leaves whether there is a server. -/
theorem freeConnections_haveServer (fuel : Nat) (o : UdpGwClient) : (freeConnections fuel o).haveServer = o.haveServer := by
  induction fuel generalizing o with
  | zero => rfl
  | succ fuel ih =>
    unfold freeConnections
    split
    · rfl
    · exact ih _

/-! ## Between callbacks -/

/-- The state of a session between callbacks. -/
structure Supervised (o : SocksUdpGwClient) : Prop where
  tables : Tables o.udpgwClient
  pending : o.udpgwClient.pending = []
  timer : o.reconnectTimer.isRunning = !o.haveSocks
  server : o.udpgwClient.haveServer = (o.haveSocks && o.socksUp)
  decoder : o.recvDecoder = o.udpgwClient.haveServer
  socks : o.socksClient = if o.haveSocks then some o.socksUp else none

variable {o : SocksUdpGwClient}

/-- An assertion that holds does nothing. -/
theorem ensure_true {b : Bool} (h : b = true) (f : SessionFault) : SocksUdpGwClient.ensure b f = .ok () := by
  rw [SocksUdpGwClient.ensure, if_pos h]

/-- A failed session has freed its SOCKS client and waits for the timer. -/
def failed (o : SocksUdpGwClient) : SocksUdpGwClient :=
  { o with
    udpgwClient := { o.udpgwClient with haveServer := false }
    reconnectTimer := .running
    haveSocks := false
    socksClient := none
    recvDecoder := false }

/-- The tables do not depend on whether there is a server. -/
theorem tables_haveServer {c : UdpGwClient} (h : Tables c) (b : Bool) : Tables { c with haveServer := b } :=
  (sameTables_haveServer c b).tables h

/-- After a failure the timer runs. -/
theorem failed_supervised (h : Tables o.udpgwClient) (hpend : o.udpgwClient.pending = []) : Supervised (failed o) where
  tables := tables_haveServer h false
  pending := hpend
  timer := rfl
  server := rfl
  decoder := rfl
  socks := rfl

/-- `free_socks` of a session with a SOCKS client, whatever that has reported: the server goes with it. -/
theorem freeSocks_eq (hs : o.haveSocks = true) (hk : o.socksClient.isSome = true) (hserver : o.udpgwClient.haveServer = o.socksUp)
    (hd : o.recvDecoder = o.socksUp) : o.freeSocks = .ok { failed o with reconnectTimer := o.reconnectTimer } := by
  unfold SocksUdpGwClient.freeSocks
  rw [ensure_true hs]
  cases hup : o.socksUp with
  | true =>
    rw [hup] at hserver hd
    simp [SocksUdpGwClient.disconnectServer, UdpGwClient.disconnectServer, SocksUdpGwClient.withUdpgw, SocksUdpGwClient.freeServer,
      SocksUdpGwClient.socksClientFree, ensure_true, hserver, hd, hk, failed, bind, Except.bind, pure, Except.pure]
  | false =>
    rw [hup] at hserver hd
    have hsame : { o.udpgwClient with haveServer := false } = o.udpgwClient := by rw [← hserver]
    simp [SocksUdpGwClient.socksClientFree, ensure_true, hk, failed, hsame, hd, bind, Except.bind, pure, Except.pure]

/-- The end of every failure. -/
theorem freeSocksAndRetry_eq (hs : o.haveSocks = true) (hk : o.socksClient.isSome = true)
    (hserver : o.udpgwClient.haveServer = o.socksUp) (hd : o.recvDecoder = o.socksUp) : o.freeSocksAndRetry = .ok (failed o) := by
  unfold SocksUdpGwClient.freeSocksAndRetry
  rw [freeSocks_eq hs hk hserver hd]
  rfl

/-- A session that tries to connect has a SOCKS client or waits for the timer, as `BSocksClient_Init` succeeds or not. -/
def connecting (o : SocksUdpGwClient) (initOk : Bool) : SocksUdpGwClient :=
  if initOk then { o with socksClient := some false, haveSocks := true, socksUp := false } else o.setTimer

/-- `try_connect` without a connection and with the timer off. -/
theorem tryConnect_eq (hs : o.haveSocks = false) (ht : o.reconnectTimer = .inactive) (hk : o.socksClient = none) (initOk : Bool) :
    o.tryConnect initOk = .ok (connecting o initOk) := by
  unfold SocksUdpGwClient.tryConnect SocksUdpGwClient.socksClientInit
  rw [ensure_true (by rw [hs]; rfl), ensure_true (by rw [ht]; rfl), ensure_true (by rw [hk]; rfl)]
  cases initOk <;> rfl

/-- After it there is a connection or the timer runs. -/
theorem connecting_supervised (h : Tables o.udpgwClient) (hpend : o.udpgwClient.pending = []) (hs : o.haveSocks = false)
    (ht : o.reconnectTimer = .inactive) (hk : o.socksClient = none) (hserver : o.udpgwClient.haveServer = false)
    (hd : o.recvDecoder = false) (initOk : Bool) : Supervised (connecting o initOk) := by
  cases initOk with
  | true => exact ⟨h, hpend, by rw [connecting, if_pos rfl, ht]; rfl, hserver, hd.trans hserver.symm, rfl⟩
  | false =>
    refine ⟨h, hpend, ?_, ?_, hd.trans hserver.symm, ?_⟩
    · change true = !o.haveSocks
      rw [hs]
      rfl
    · change o.udpgwClient.haveServer = (o.haveSocks && o.socksUp)
      rw [hs, hserver]
      rfl
    · change o.socksClient = if o.haveSocks then some o.socksUp else none
      rw [hs, hk]
      rfl

/-- A session that connects its server. -/
def connected (o : SocksUdpGwClient) : SocksUdpGwClient :=
  { o with
    udpgwClient := { o.udpgwClient with haveServer := true }
    recvDecoder := true
    socksUp := true }

/-- Connecting the client to its server, when neither is there. -/
theorem connectServer_eq (hserver : o.udpgwClient.haveServer = false) (hd : o.recvDecoder = false) (decoderOk : Bool) :
    o.connectServer decoderOk = .ok (if decoderOk then { connected o with socksUp := o.socksUp } else o, decoderOk) := by
  unfold SocksUdpGwClient.connectServer UdpGwClient.connectServer
  rw [hserver]
  cases decoderOk with
  | true =>
    simp [SocksUdpGwClient.withUdpgw, ensure_true, hd, connected, bind, Except.bind, pure, Except.pure]
  | false =>
    have hsame : { o with recvDecoder := false } = o := by rw [← hd]
    simp [SocksUdpGwClient.withUdpgw, ensure_true, hd, bind, Except.bind, pure, Except.pure, hsame]

/-! ## One event -/

/-- A report of the SOCKS client. -/
theorem Supervised.socks_event (h : Supervised o) {up : Bool} (hk : o.socksClient = some up) {event : SocksEvent}
    (hevent : ¬(event = .up ∧ up = true)) (decoderOk : Bool) :
    ∃ o', { o with socksClient := some (SocksUdpGwClient.reported up event) }.socksClientHandler event decoderOk = .ok o' ∧
      Supervised o' ∧ o'.freed = o.freed := by
  have hs : o.haveSocks = true := by
    cases hn : o.haveSocks with
    | true => rfl
    | false =>
      have := h.socks
      rw [hn, hk] at this
      cases this
  have hup : up = o.socksUp := by
    have := h.socks
    rw [hs, hk] at this
    exact Option.some.inj this
  have hserver : o.udpgwClient.haveServer = o.socksUp := by rw [h.server, hs, Bool.true_and]
  have hd : o.recvDecoder = o.socksUp := h.decoder.trans hserver
  have hfail : ∀ event', ∃ o', { o with socksClient := some (SocksUdpGwClient.reported up event') }.freeSocksAndRetry = .ok o' ∧
      Supervised o' ∧ o'.freed = o.freed :=
    fun _ => ⟨_, freeSocksAndRetry_eq hs rfl hserver hd, failed_supervised h.tables h.pending, rfl⟩
  unfold SocksUdpGwClient.socksClientHandler
  rw [ensure_true (by exact hs)]
  cases event with
  | error => exact hfail .error
  | errorClosed => exact hfail .errorClosed
  | up =>
    have hdown : o.socksUp = false := Bool.eq_false_of_not_eq_true fun hn => hevent ⟨rfl, hup.trans hn⟩
    rw [hdown] at hserver hd
    simp only [bind, Except.bind]
    rw [ensure_true (by rw [hdown]; rfl), connectServer_eq (by exact hserver) (by exact hd)]
    cases decoderOk with
    | true =>
      refine ⟨_, rfl, ⟨tables_haveServer h.tables true, h.pending, h.timer, ?_, rfl, ?_⟩, rfl⟩
      · change true = (o.haveSocks && true)
        rw [hs]
        rfl
      · change some true = if o.haveSocks then some true else none
        rw [hs]
        rfl
    | false => exact hfail .up

/-- An error of the decoder. -/
theorem Supervised.decoder_error (h : Supervised o) (hd : o.recvDecoder = true) :
    ∃ o', o.decoderHandlerError = .ok o' ∧ Supervised o' ∧ o'.freed = o.freed := by
  have hserver := h.decoder.symm.trans hd
  obtain ⟨hs, hup⟩ := (Bool.and_eq_true _ _).mp (h.server.symm.trans hserver)
  have hk : o.socksClient.isSome = true := by rw [h.socks, hs]; rfl
  unfold SocksUdpGwClient.decoderHandlerError SocksUdpGwClient.udpgwHandlerServererror
  rw [ensure_true hserver, ensure_true hs, ensure_true hup]
  exact ⟨_, freeSocksAndRetry_eq hs hk (hserver.trans hup.symm) (hd.trans hup.symm), failed_supervised h.tables h.pending, rfl⟩

/-- The reconnect timer is dispatched. -/
theorem Supervised.timer_dispatched (h : Supervised o) (ht : o.reconnectTimer = .expired) (initOk : Bool) :
    ∃ o', { o with reconnectTimer := .inactive }.reconnectTimerHandler initOk = .ok o' ∧ Supervised o' ∧ o'.freed = o.freed := by
  have hs : o.haveSocks = false := by
    have := h.timer
    rw [ht] at this
    exact Bool.not_eq_true' _ ▸ this.symm
  have hk : o.socksClient = none := by rw [h.socks, hs]; rfl
  have hserver : o.udpgwClient.haveServer = false := by rw [h.server, hs]; rfl
  unfold SocksUdpGwClient.reconnectTimerHandler
  rw [ensure_true (by rw [hs]; rfl)]
  refine ⟨_, tryConnect_eq (by exact hs) rfl (by exact hk) initOk, ?_, ?_⟩
  · exact @connecting_supervised { o with reconnectTimer := .inactive } h.tables h.pending hs rfl hk hserver
      (h.decoder.trans hserver) initOk
  · cases initOk <;> rfl

/-- A call of the `UdpGwClient` that concerns its connections. -/
theorem Supervised.udpgw_call (h : Supervised o) {r : UdpGwClient.Outcome} {c : UdpGwClient} {acts : List UdpGwAct} (hr : r = .ok (c, acts))
    (htables : Tables c) (hpend : c.pending = []) (hkeeps : KeepsServer o.udpgwClient r) :
    ∃ o', o.withUdpgw r = .ok o' ∧ Supervised o' ∧ o'.freed = o.freed := by
  have hsame := hkeeps c acts hr
  subst hr
  exact ⟨_, rfl, ⟨htables, hpend, h.timer, hsame.trans h.server, h.decoder.trans hsame.symm, h.socks⟩, rfl⟩

/-- A freed session has freed what it had, and its timer is off. -/
def Released (o : SocksUdpGwClient) : Prop :=
  o.freed = true ∧ o.socksClient = none ∧ o.recvDecoder = false ∧ o.reconnectTimer = .inactive

/-- `UdpGwClient_Free` of a client without a server. -/
theorem udpgwClientFree_released (hk : o.socksClient = none) (hserver : o.udpgwClient.haveServer = false) (hd : o.recvDecoder = false)
    (ht : o.reconnectTimer = .inactive) : ∃ o', o.udpgwClientFree = .ok o' ∧ Released { o' with freed := true } := by
  unfold SocksUdpGwClient.udpgwClientFree
  dsimp only
  rw [if_neg (by rw [freeConnections_haveServer, hserver]; exact Bool.noConfusion)]
  exact ⟨_, rfl, rfl, hk, hd, ht⟩

/-- `SocksUdpGwClient_Free`. -/
theorem Supervised.free (h : Supervised o) : ∃ o', o.free = .ok o' ∧ Released o' := by
  unfold SocksUdpGwClient.free
  cases hs : o.haveSocks with
  | true =>
    have hserver : o.udpgwClient.haveServer = o.socksUp := by rw [h.server, hs, Bool.true_and]
    have hk : o.socksClient.isSome = true := by rw [h.socks, hs]; rfl
    rw [if_pos rfl, freeSocks_eq hs hk hserver (h.decoder.trans hserver)]
    obtain ⟨o', hrun, hrel⟩ := @udpgwClientFree_released { failed o with reconnectTimer := .inactive } rfl rfl rfl rfl
    refine ⟨{ o' with freed := true }, ?_, hrel⟩
    simp only [bind, Except.bind]
    rw [hrun]
    rfl
  | false =>
    have hserver : o.udpgwClient.haveServer = false := by rw [h.server, hs]; rfl
    have hk : o.socksClient = none := by rw [h.socks, hs]; rfl
    obtain ⟨o', hrun, hrel⟩ := @udpgwClientFree_released { o with reconnectTimer := .inactive } hk hserver (h.decoder.trans hserver) rfl
    refine ⟨{ o' with freed := true }, ?_, hrel⟩
    rw [if_neg Bool.noConfusion]
    simp only [bind, Except.bind, pure, Except.pure]
    rw [hrun]

/-- One event of a session that was not freed: no fault, and it is supervised again or was freed. -/
theorem Supervised.step (h : Supervised o) (hf : o.freed = false) {e : SessionEvent} {r : Except SessionFault SocksUdpGwClient}
    (hr : o.step e = some r) : ∃ o', r = .ok o' ∧ (o'.freed = false ∧ Supervised o' ∨ Released o') := by
  have hgoes : (∃ o', r = .ok o' ∧ Supervised o' ∧ o'.freed = o.freed) → ∃ o', r = .ok o' ∧
      (o'.freed = false ∧ Supervised o' ∨ Released o') := by
    rintro ⟨o', hrun, hsup, hsame⟩
    exact ⟨o', hrun, Or.inl ⟨hsame.trans hf, hsup⟩⟩
  unfold SocksUdpGwClient.step at hr
  rw [if_neg (by rw [hf]; exact Bool.noConfusion)] at hr
  cases e with
  | socks event decoderOk =>
    dsimp only at hr
    split at hr
    · cases hr
    · rename_i up hk
      split at hr
      · cases hr
      · rename_i hevent
        obtain rfl := Option.some.inj hr
        exact hgoes (h.socks_event hk hevent decoderOk)
  | decoderError =>
    obtain ⟨hd, ⟨⟩⟩ := Option.ite_none_right_eq_some.mp hr
    exact hgoes (h.decoder_error hd)
  | timerExpires =>
    obtain ⟨ht, ⟨⟩⟩ := Option.ite_none_right_eq_some.mp hr
    refine hgoes ⟨_, rfl, ⟨h.tables, h.pending, ?_, h.server, h.decoder, h.socks⟩, rfl⟩
    have := h.timer
    rw [ht] at this
    exact this
  | timerDispatched initOk =>
    obtain ⟨ht, ⟨⟩⟩ := Option.ite_none_right_eq_some.mp hr
    exact hgoes (h.timer_dispatched ht initOk)
  | submit localAddr remoteAddr isDns data mallocOk flowOk =>
    obtain ⟨c, hc, rfl⟩ := Option.map_eq_some_iff.mp hr
    obtain ⟨o', acts, hok, htables, hpend, -⟩ := step_effect h.tables h.pending hc
    refine hgoes (h.udpgw_call hok htables hpend ?_)
    obtain ⟨-, ⟨⟩⟩ := Option.ite_none_right_eq_some.mp hc
    exact keepsServer_andThen (keepsServer_submitPacket _ _ _ _ _ _ _) keepsServer_executeJobs
  | receive data =>
    obtain ⟨⟨hd, hlen⟩, ⟨⟩⟩ := Option.ite_none_right_eq_some.mp hr
    obtain ⟨o', acts, hok, htables, hpend, -⟩ := receive_effect h.tables (h.decoder.symm.trans hd) hlen
    exact hgoes (h.udpgw_call hok htables (hpend.trans h.pending) (keepsServer_recvInterfaceHandlerSend _ _))
  | bufferReady con =>
    obtain ⟨c, hc, rfl⟩ := Option.map_eq_some_iff.mp hr
    obtain ⟨o', acts, hok, htables, hpend, -⟩ := step_effect h.tables h.pending hc
    refine hgoes (h.udpgw_call hok htables hpend ?_)
    obtain ⟨-, ⟨⟩⟩ := Option.ite_none_right_eq_some.mp hc
    exact keepsServer_outputHandlerRecv _ _
  | free =>
    obtain rfl := Option.some.inj hr
    obtain ⟨o', hrun, hrel⟩ := h.free
    exact ⟨o', hrun, Or.inr hrel⟩

/-- Every run is without a fault, and its session is supervised until it is freed. -/
theorem supervised_of_run {udpMtu maxConnections : Nat} (hmax : 0 < maxConnections) {es : List SessionEvent}
    {s : Except SessionFault SocksUdpGwClient} (h : (sessionSystem udpMtu maxConnections).Run es s) :
    ∃ o, s = .ok o ∧ (o.freed = false ∧ Supervised o ∨ Released o) := by
  refine h.invariant (fun _ s => ∃ o, s = .ok o ∧ (o.freed = false ∧ Supervised o ∨ Released o)) ?_ ?_
  · rintro s ⟨memory, initOk, rfl⟩
    refine ⟨_, tryConnect_eq rfl rfl rfl initOk, Or.inl ⟨?_, ?_⟩⟩
    · cases initOk <;> rfl
    · exact connecting_supervised (tables_init udpMtu hmax) rfl rfl rfl rfl rfl rfl initOk
  · rintro _ s e s' ⟨o, rfl, ⟨hf, hsup⟩ | hrel⟩ hstep
    · exact hsup.step hf hstep
    · change o.step e = some s' at hstep
      unfold SocksUdpGwClient.step at hstep
      rw [hrel.1, if_pos rfl] at hstep
      cases hstep

end UdpGwSessionAux

open UdpGwSessionAux

namespace UdpGwSessionAux

/-! ## The reports of the SOCKS client -/

/-- A handler of the SOCKS client that is not up goes on without a report, or ends with an error. -/
def GoesOn (o o' : BSocksClient) : Prop :=
  (o'.reported = o.reported ∧ o'.state ≠ .up) ∨ (o'.reported = o.reported ++ [.error] ∧ o'.ended = true)

/-- Reporting an error. -/
theorem goesOn_reportError (o : BSocksClient) : GoesOn o (o.reportError .error) := Or.inr ⟨rfl, rfl⟩

/-- A buffer that is reserved changes nothing else. -/
theorem reserveBuffer_some {o o' : BSocksClient} {size : Nat} (h : o.reserveBuffer size = some o') :
    o'.reported = o.reported ∧ o'.state = o.state := by
  unfold BSocksClient.reserveBuffer at h
  obtain ⟨-, ⟨⟩⟩ := Option.ite_none_right_eq_some.mp h
  exact ⟨rfl, rfl⟩

/-- The connector is done. -/
theorem goesOn_connectorHandler (o : BSocksClient) (isError initOk : Bool) : GoesOn o (o.connectorHandler isError initOk) := by
  unfold BSocksClient.connectorHandler
  split
  · exact goesOn_reportError o
  split
  · exact goesOn_reportError o
  dsimp only
  split
  · exact Or.inr ⟨rfl, rfl⟩
  split
  · exact Or.inr ⟨rfl, rfl⟩
  · rename_i hres
    exact Or.inl ⟨(reserveBuffer_some hres).1, nofun⟩

/-- The authentication is done. -/
theorem goesOn_authFinished (o : BSocksClient) : GoesOn o o.authFinished := by
  unfold BSocksClient.authFinished
  dsimp only
  split
  · exact goesOn_reportError o
  · rename_i hres
    exact Or.inl ⟨(reserveBuffer_some hres).1, nofun⟩

/-- The greeting of the server is there. -/
theorem goesOn_receivedHello (o : BSocksClient) : GoesOn o o.receivedHello := by
  unfold BSocksClient.receivedHello
  split
  · exact goesOn_reportError o
  split
  · exact goesOn_reportError o
  · exact goesOn_authFinished o
  split
  · exact goesOn_reportError o
  dsimp only
  split
  · exact goesOn_reportError o
  · rename_i hres
    exact Or.inl ⟨(reserveBuffer_some hres).1, nofun⟩

/-- The header of its reply is there. -/
theorem goesOn_receivedReplyHeader (o : BSocksClient) : GoesOn o o.receivedReplyHeader := by
  unfold BSocksClient.receivedReplyHeader
  split
  · exact goesOn_reportError o
  split
  · exact goesOn_reportError o
  split
  · exact goesOn_reportError o
  · exact Or.inl ⟨rfl, nofun⟩

/-- Its answer to the password is there. -/
theorem goesOn_receivedPasswordReply (o : BSocksClient) : GoesOn o o.receivedPasswordReply := by
  unfold BSocksClient.receivedPasswordReply
  split
  · exact goesOn_reportError o
  split
  · exact goesOn_reportError o
  · exact goesOn_authFinished o

/-- What was being sent is sent. -/
theorem goesOn_sendHandlerDone {o : BSocksClient} (h : o.state ≠ .up) : GoesOn o o.sendHandlerDone := by
  unfold BSocksClient.sendHandlerDone
  split
  · split
    · exact goesOn_reportError o
    · rename_i hres
      exact Or.inl ⟨(reserveBuffer_some hres).1, nofun⟩
  · split
    · exact goesOn_reportError o
    · rename_i hres
      exact Or.inl ⟨(reserveBuffer_some hres).1, nofun⟩
  · split
    · exact goesOn_reportError o
    · rename_i hres
      exact Or.inl ⟨(reserveBuffer_some hres).1, nofun⟩
  · exact Or.inl ⟨rfl, h⟩

/-- A SOCKS client that is up waits for no more bytes, and only one that is up reported it. -/
def UpOnce (o : BSocksClient) : Prop :=
  o.ended = false → (o.state = .up → o.recvPending = false) ∧ (.up ∈ o.reported → o.state = .up)

/-- What one step reports: nothing, or one event that a session lets come. -/
def ReportsOne (o o' : BSocksClient) : Prop :=
  o'.reported = o.reported ∨
    ∃ event, o'.reported = o.reported ++ [event] ∧ (event = .up → .up ∉ o.reported) ∧ (event ≠ .up → o'.ended = true)

/-- What goes on reports at most one event, and `UP` at most once. -/
theorem GoesOn.reports {o o₁ o' : BSocksClient} (h : GoesOn o₁ o') (hsame : o₁.reported = o.reported) (hup : .up ∉ o.reported) :
    ReportsOne o o' ∧ UpOnce o' := by
  rcases h with ⟨hrep, hstate⟩ | ⟨hrep, hend⟩
  · refine ⟨Or.inl (hrep.trans hsame), fun _ => ⟨fun hn => absurd hn hstate, fun hn => absurd ?_ hup⟩⟩
    rwa [hrep, hsame] at hn
  · refine ⟨Or.inr ⟨.error, by rw [hrep, hsame], nofun, fun _ => hend⟩, fun hn => ?_⟩
    rw [hend] at hn
    cases hn

/-- So does every step. -/
theorem UpOnce.step {o o' : BSocksClient} (h : UpOnce o) {e : BSocksClient.Event} (hstep : o.step e = some o') :
    ReportsOne o o' ∧ UpOnce o' := by
  unfold BSocksClient.step at hstep
  obtain ⟨hend, hstep⟩ := Option.ite_none_left_eq_some.mp hstep
  obtain ⟨hpend, hup⟩ := h (Bool.eq_false_of_not_eq_true hend)
  cases e with
  | connected isError initOk =>
    obtain ⟨hs, ⟨⟩⟩ := Option.ite_none_right_eq_some.mp hstep
    refine (goesOn_connectorHandler o isError initOk).reports rfl fun hn => ?_
    rw [hup hn] at hs
    cases hs
  | sender e =>
    obtain ⟨hs, hr⟩ := Option.ite_none_right_eq_some.mp hstep
    obtain ⟨r, -, rfl⟩ := Option.map_eq_some_iff.mp hr
    exact ⟨Or.inl rfl, fun _ => ⟨hpend, hup⟩⟩
  | runSendDone =>
    obtain ⟨hs, hr⟩ := Option.ite_none_right_eq_some.mp hstep
    obtain ⟨s, -, rfl⟩ := Option.map_eq_some_iff.mp hr
    have hnot : o.state ≠ .up := (of_decide_eq_true hs).2
    exact (goesOn_sendHandlerDone (by exact hnot)).reports rfl fun hn => hnot (hup hn)
  | received data =>
    obtain ⟨⟨hp, -⟩, ⟨⟩⟩ := Option.ite_none_right_eq_some.mp hstep
    have hnot : o.state ≠ .up := fun hn => by
      rw [hpend hn] at hp
      cases hp
    have hno : SocksEvent.up ∉ o.reported := fun hn => hnot (hup hn)
    unfold BSocksClient.recvHandlerDone
    dsimp only
    split
    · exact ⟨Or.inl rfl, fun _ => ⟨fun hn => absurd hn hnot, fun hn => absurd hn hno⟩⟩
    split
    · exact (goesOn_receivedHello _).reports rfl hno
    · exact (goesOn_receivedReplyHeader _).reports rfl hno
    · exact (goesOn_receivedPasswordReply _).reports rfl hno
    · exact ⟨Or.inr ⟨.up, rfl, fun _ => hno, fun hn => absurd rfl hn⟩, fun _ => ⟨fun _ => rfl, fun _ => rfl⟩⟩
    · exact ⟨Or.inl rfl, fun _ => ⟨fun hn => absurd hn hnot, fun hn => absurd hn hno⟩⟩
  | connection recvClosed =>
    obtain ⟨-, ⟨⟩⟩ := Option.ite_none_left_eq_some.mp hstep
    unfold BSocksClient.connectionHandler
    split
    · exact ⟨Or.inr ⟨.errorClosed, rfl, nofun, fun _ => rfl⟩, nofun⟩
    · exact ⟨Or.inr ⟨.error, rfl, nofun, fun _ => rfl⟩, nofun⟩

end UdpGwSessionAux

/-- A SOCKS client reports as a session lets it: in every state it can reach, a step calls the handler at most once, with `UP` only if
it was not up before, and after an error there is no step. -/
theorem socks_client_reports {heap : Heap} {authInfo : List AuthInfo} {destAddr : BAddr} {o : BSocksClient}
    (h : (socksSystem heap authInfo destAddr).Reach o) {e : BSocksClient.Event} :
    (∀ o', o.step e = some o' → ReportsOne o o') ∧ (o.ended = true → o.step e = none) := by
  have hinv : UpOnce o := by
    refine h.invariant UpOnce ?_ (fun _ _ _ hup hstep => (hup.step hstep).2)
    rintro o rfl
    exact fun _ => ⟨nofun, nofun⟩
  refine ⟨fun o' hstep => (hinv.step hstep).1, fun hend => ?_⟩
  unfold BSocksClient.step
  exact if_pos hend

end PsiphonAndroid
