import PsiphonAndroid.UdpGw.Tables

/-!
# What an event does to the client

Every event has one of five effects: nothing of the tables changes; a datagram is submitted on the connection that has its pair;
the least recently used connection is taken over for a new pair; a connection is created; a packet of the server is accepted. The
effects say what happens to the list, to the bindings and to the outside, and nothing about the buffers.
-/

namespace PsiphonAndroid

open Lib

/-- The flags `UdpGwClient_SubmitPacket` starts with. -/
def submitFlags (isDns : Bool) : UInt8 := if isDns then udpgwClientFlagDns else 0

theorem submitFlags_ipv6 (isDns : Bool) : hasFlag (submitFlags isDns) udpgwClientFlagIpv6 = false := by
  cases isDns <;> rfl

theorem submitFlags_keepalive (isDns : Bool) : hasFlag (submitFlags isDns) udpgwClientFlagKeepalive = false := by
  cases isDns <;> rfl

namespace UdpGwClient

/-- The effects of an event. -/
inductive Effect (o : UdpGwClient) (e : UdpGwEvent) (o' : UdpGwClient) (acts : List UdpGwAct) : Prop
  /-- No connection is used: where the event is a submit, the connection for its pair could not be made. -/
  | quiet (hs : SameTables o o')
      (hnone : ∀ l r isDns data mallocOk flowOk, e = .submit l r isDns data mallocOk flowOk → o.findConnectionByConaddr ⟨l, r⟩ = none)
      (hacts : acts = [])
  /-- A connection has the pair of the submit. -/
  | sent (n : Nat) (l r : BAddr) (isDns : Bool) (data : Bytes) (mallocOk flowOk : Bool)
      (he : e = .submit l r isDns data mallocOk flowOk) (hd : data.length ≤ o.udpMtu)
      (hn : n ∈ o.connectionsList) (hp : (o.mem n).conaddr = ⟨l, r⟩) (hs : SameTables (o.moveToFront n) o')
      (hacts : acts = if (o.mem n).outHave then [.enqueue ⟨submitFlags isDns, (o.mem n).conid, ⟨l, r⟩, data⟩] else [])
  /-- The table is full: the first of the list gets the pair of the submit. -/
  | rebound (n : Nat) (l r : BAddr) (isDns : Bool) (data : Bytes) (mallocOk flowOk : Bool)
      (he : e = .submit l r isDns data mallocOk flowOk) (hd : data.length ≤ o.udpMtu)
      (hnone : o.findConnectionByConaddr ⟨l, r⟩ = none)
      (hfull : o.numConnections = o.maxConnections) (hhead : o.connectionsList.head? = some n)
      (hl : o'.connectionsList = moveToEnd o.connectionsList n) (hb : o'.binding n = ((o.mem n).conid, ⟨l, r⟩))
      (hb' : ∀ m ∈ o.connectionsList, m ≠ n → o'.binding m = o.binding m)
      (hacts : acts = .bind (o.mem n).conid ⟨l, r⟩ :: if (o.mem n).outHave then
        [.enqueue ⟨submitFlags isDns ||| udpgwClientFlagRebind, (o.mem n).conid, ⟨l, r⟩, data⟩] else [])
  /-- A connection is made for the pair of the submit. -/
  | created (n : Nat) (conid : UInt16) (l r : BAddr) (isDns : Bool) (data : Bytes) (mallocOk flowOk : Bool)
      (he : e = .submit l r isDns data mallocOk flowOk) (hd : data.length ≤ o.udpMtu) (hn : n ∉ o.connectionsList)
      (hid : ∀ m ∈ o.connectionsList, (o.mem m).conid ≠ conid)
      (hl : o'.connectionsList = o.connectionsList ++ [n]) (hb : o'.binding n = (conid, ⟨l, r⟩))
      (hb' : ∀ m ∈ o.connectionsList, o'.binding m = o.binding m)
      (hacts : acts = [.bind conid ⟨l, r⟩, .enqueue ⟨udpgwClientFlagRebind ||| submitFlags isDns, conid, ⟨l, r⟩, data⟩])
  /-- A packet of the server names a connection and its remote address. -/
  | accepted (n : Nat) (packet : Bytes) (flags : UInt8) (rest data : Bytes)
      (he : e = .receive packet) (hhead : parseHeader packet = some (flags, (o.mem n).conid, rest))
      (haddr : parseAddr flags rest = some ((o.mem n).conaddr.remoteAddr, data)) (hn : n ∈ o.connectionsList)
      (hs : SameTables (o.moveToFront n) o')
      (hacts : acts = [.received (o.mem n).conaddr.localAddr (o.mem n).conaddr.remoteAddr data])

variable {o : UdpGwClient}

theorem executeJobs_nil (h : o.pending = []) : o.executeJobs = .ok (o, []) := by
  unfold executeJobs
  rw [h]
  cases o
  cases h
  rfl

/-- An event that schedules nothing. -/
theorem andThen_executeJobs {r : Outcome} {o' : UdpGwClient} {acts : List UdpGwAct} (hr : r = .ok (o', acts))
    (hp : o'.pending = []) : andThen r executeJobs = .ok (o', acts) := by
  rw [hr, andThen, executeJobs_nil hp]
  dsimp only
  rw [List.append_nil]

/-- The jobs of a new connection: its buffer offers a place, and the first packet is sent with the flag. -/
theorem executeJobs_created (h : Tables o) {n : Nat} {conaddr : ConAddr} {flags : UInt8} {data : Bytes} {conid : UInt16}
    (hm : o.mem n = ⟨conaddr, flags, data, conid, false⟩) (hd : data.length ≤ o.udpMtu)
    (hp : o.pending = [.outputHandlerRecv n, .connectionFirstJobHandler n]) :
    ∃ o', o.executeJobs = .ok (o', [.enqueue ⟨udpgwClientFlagRebind ||| flags, conid, conaddr, data⟩]) ∧ SameTables o o' ∧
      o'.pending = [] := by
  let o0 : UdpGwClient := { o with pending := [] }
  let o1 : UdpGwClient := o0.setOutHave n true
  have hs0 : SameTables o o0 := ⟨rfl, rfl, rfl, rfl, rfl, rfl, rfl, fun _ _ => rfl, id, Nat.le_refl _⟩
  have hs1 : SameTables o o1 := hs0.trans (sameTables_setOutHave o0 n true)
  have hm1 : o1.mem n = ⟨conaddr, flags, data, conid, true⟩ := by
    refine (Function.update_self _ _ _).trans ?_
    dsimp only [o0]
    rw [hm]
  obtain ⟨o2, hsend, hs2, hp2⟩ := connectionSend_spec (hs1.tables h) hd n (udpgwClientFlagRebind ||| flags)
  rw [hm1] at hsend
  have hrecv : o0.outputHandlerRecv n = .ok (o1, []) := by
    unfold outputHandlerRecv
    exact if_neg (by dsimp only [o0]; rw [hm]; exact Bool.false_ne_true)
  have hfirst : o1.connectionFirstJobHandler n = o1.connectionSend n (udpgwClientFlagRebind ||| flags) data := by
    unfold connectionFirstJobHandler
    rw [hm1]
  refine ⟨o2, ?_, hs1.trans hs2, hp2⟩
  unfold executeJobs
  rw [hp]
  change executeAll o0 _ = _
  simp only [executeAll, executeJob, hrecv, hfirst, hsend, andThen]
  rfl

/-- A submit on the connection that has its pair. -/
theorem submit_found (h : Tables o) (hpend : o.pending = []) {l r : BAddr} {data : Bytes} (hl : l.IsIp) (hr : r.IsIp)
    (hd : data.length ≤ o.udpMtu) {n : Nat} (hf : o.findConnectionByConaddr ⟨l, r⟩ = some n) (isDns mallocOk flowOk : Bool) :
    ∃ o', o.submitPacket l r isDns data mallocOk flowOk = .ok (o',
        if (o.mem n).outHave then [.enqueue ⟨submitFlags isDns, (o.mem n).conid, ⟨l, r⟩, data⟩] else []) ∧
      SameTables (o.moveToFront n) o' ∧ o'.pending = [] := by
  obtain ⟨hn, hpair⟩ := h.of_findConaddr hf
  obtain ⟨o', hsend, hs, hp⟩ := connectionSend_spec (tables_moveToFront h hn) hd n (submitFlags isDns)
  refine ⟨o', ?_, hs, hp.trans hpend⟩
  unfold submitPacket
  rw [if_neg (not_not.mpr ⟨hl, hr, hd⟩)]
  dsimp only
  rw [hf, ← hpair]
  exact hsend

/-- A submit that takes the least recently used connection over. -/
theorem submit_rebound (h : Tables o) (hpend : o.pending = []) {l r : BAddr} {data : Bytes} (hl : l.IsIp) (hr : r.IsIp)
    (hd : data.length ≤ o.udpMtu) (hf : o.findConnectionByConaddr ⟨l, r⟩ = none) (hfull : o.numConnections = o.maxConnections)
    {n : Nat} (hhead : o.connectionsList.head? = some n) (isDns mallocOk flowOk : Bool) :
    ∃ o' acts, o.submitPacket l r isDns data mallocOk flowOk = .ok (o', acts) ∧ Tables o' ∧ o'.pending = [] ∧
      o'.udpMtu = o.udpMtu ∧ o'.maxConnections = o.maxConnections ∧
      Effect o (.submit l r isDns data mallocOk flowOk) o' acts := by
  obtain ⟨rest, hlist⟩ : ∃ rest, o.connectionsList = n :: rest := List.head?_eq_some_iff.mp hhead
  have hip : (ConAddr.mk l r).remoteAddr.IsIp := hr
  obtain ⟨t, hreuse, htab⟩ := reuseConnection_spec h hip hf hlist
  have hn : n ∈ o.connectionsList := by rw [hlist]; exact List.mem_cons_self
  obtain ⟨o', hsend, hs, hp⟩ := connectionSend_spec (tables_moveToFront htab hn) hd n
    (submitFlags isDns ||| udpgwClientFlagRebind)
  have hself := reboundMem_self o n ⟨l, r⟩
  refine ⟨o', _, ?_, hs.tables (tables_moveToFront htab hn), hp.trans hpend, hs.udpMtu, hs.maxConnections,
    .rebound n l r isDns data mallocOk flowOk rfl hd hf hfull hhead hs.list ?_ ?_ rfl⟩
  · unfold submitPacket
    rw [if_neg (not_not.mpr ⟨hl, hr, hd⟩)]
    dsimp only
    rw [hf]
    dsimp only
    rw [if_pos hfull, hreuse]
    dsimp only [andThen]
    unfold submitFlags at hsend
    rw [hsend]
    simp only [moveToFront, hself]
    rfl
  · refine (hs.binding n ((mem_moveToEnd hn).mpr hn)).trans ?_
    unfold binding moveToFront
    dsimp only
    rw [hself]
  · intro m hm hne
    refine (hs.binding m ((mem_moveToEnd hn).mpr hm)).trans ?_
    unfold binding moveToFront
    dsimp only
    rw [reboundMem_ne o _ hne]

/-- A submit that makes a connection. -/
theorem submit_created (h : Tables o) (hpend : o.pending = []) {l r : BAddr} {data : Bytes} (hl : l.IsIp) (hr : r.IsIp)
    (hd : data.length ≤ o.udpMtu) (hf : o.findConnectionByConaddr ⟨l, r⟩ = none) (hroom : o.numConnections < o.maxConnections)
    (isDns : Bool) :
    ∃ o' acts, andThen (o.submitPacket l r isDns data true true) executeJobs = .ok (o', acts) ∧ Tables o' ∧ o'.pending = [] ∧
      o'.udpMtu = o.udpMtu ∧ o'.maxConnections = o.maxConnections ∧ Effect o (.submit l r isDns data true true) o' acts := by
  have hip : (ConAddr.mk l r).remoteAddr.IsIp := hr
  obtain ⟨o1, conid, hinit, htab, hmtu, hmax, hlist, hm, hother, hp⟩ :=
    connectionInit_spec h hroom hip hf hd (submitFlags isDns)
  rw [hpend] at hp
  obtain ⟨o', hjobs, hs, hp'⟩ := executeJobs_created htab hm (by rw [hmtu]; exact hd) hp
  have hsub : o.submitPacket l r isDns data true true = .ok (o1, [.bind conid ⟨l, r⟩]) := by
    unfold submitPacket
    rw [if_neg (not_not.mpr ⟨hl, hr, hd⟩)]
    dsimp only
    rw [hf]
    dsimp only
    rw [if_neg (Nat.ne_of_lt hroom)]
    exact hinit
  have hin : o.nextCon ∈ o1.connectionsList := by
    rw [hlist]
    exact List.mem_append_right _ (List.mem_singleton_self _)
  refine ⟨o', _, ?_, hs.tables htab, hp', hs.udpMtu.trans hmtu, hs.maxConnections.trans hmax,
    .created o.nextCon conid l r isDns data true true rfl hd (fun hmem => h.ne_nextCon hmem rfl)
      (fun m hmem => (hother m hmem).2) (hs.list.trans hlist) ?_ ?_ rfl⟩
  · rw [hsub, andThen, hjobs]
    rfl
  · rw [hs.binding _ hin]
    unfold binding
    rw [hm]
  · intro m hmem
    rw [hs.binding m (by rw [hlist]; exact List.mem_append_left _ hmem)]
    unfold binding
    rw [(hother m hmem).1]

/-- A submit, whatever the tables and the allocations are. -/
theorem submit_effect (h : Tables o) (hpend : o.pending = []) {l r : BAddr} {data : Bytes} (hl : l.IsIp) (hr : r.IsIp)
    (hd : data.length ≤ o.udpMtu) (isDns mallocOk flowOk : Bool) :
    ∃ o' acts, andThen (o.submitPacket l r isDns data mallocOk flowOk) executeJobs = .ok (o', acts) ∧ Tables o' ∧
      o'.pending = [] ∧ o'.udpMtu = o.udpMtu ∧ o'.maxConnections = o.maxConnections ∧
      Effect o (.submit l r isDns data mallocOk flowOk) o' acts := by
  cases hf : o.findConnectionByConaddr ⟨l, r⟩ with
  | some n =>
    obtain ⟨hn, hpair⟩ := h.of_findConaddr hf
    obtain ⟨o', hsub, hs, hp⟩ := submit_found h hpend hl hr hd hf isDns mallocOk flowOk
    exact ⟨o', _, andThen_executeJobs hsub hp, hs.tables (tables_moveToFront h hn), hp, hs.udpMtu, hs.maxConnections,
      .sent n l r isDns data mallocOk flowOk rfl hd hn hpair hs rfl⟩
  | none =>
    by_cases hfull : o.numConnections = o.maxConnections
    · have hne : o.connectionsList ≠ [] := by
        intro hnil
        have hnum := h.num
        rw [hfull, hnil] at hnum
        exact absurd hnum (Nat.ne_of_gt h.max_pos)
      obtain ⟨n, hhead⟩ := Option.isSome_iff_exists.mp (List.isSome_head?.mpr hne)
      obtain ⟨o', acts, hsub, htab, hp, hm⟩ := submit_rebound h hpend hl hr hd hf hfull hhead isDns mallocOk flowOk
      exact ⟨o', acts, andThen_executeJobs hsub hp, htab, hp, hm⟩
    · have hroom : o.numConnections < o.maxConnections := Nat.lt_of_le_of_ne h.num_le hfull
      by_cases hok : mallocOk = true ∧ flowOk = true
      · obtain ⟨rfl, rfl⟩ := hok
        exact submit_created h hpend hl hr hd hf hroom isDns
      · have hbad : mallocOk = false ∨ flowOk = false := by
          rw [not_and_or, Bool.not_eq_true, Bool.not_eq_true] at hok
          exact hok
        obtain ⟨o', hinit, hs, hp⟩ := connectionInit_failed h hroom hf hd (submitFlags isDns) hbad
        have hsub : o.submitPacket l r isDns data mallocOk flowOk = .ok (o', []) := by
          unfold submitPacket
          rw [if_neg (not_not.mpr ⟨hl, hr, hd⟩)]
          dsimp only
          rw [hf]
          dsimp only
          rw [if_neg hfull]
          exact hinit
        refine ⟨o', [], andThen_executeJobs hsub (hp.trans hpend), hs.tables h, hp.trans hpend, hs.udpMtu, hs.maxConnections,
          .quiet hs ?_ rfl⟩
        intro l' r' isDns' data' m' f' he
        injection he with h1 h2
        rw [← h1, ← h2]
        exact hf

/-- An event that uses no connection and does nothing to the outside. -/
theorem quiet_effect (h : Tables o) {e : UdpGwEvent} {o' : UdpGwClient} (hs : SameTables o o') (hp : o'.pending = o.pending)
    (he : ∀ l r isDns data mallocOk flowOk, e ≠ .submit l r isDns data mallocOk flowOk) :
    ∃ o'' acts, (.ok (o', []) : Outcome) = .ok (o'', acts) ∧ Tables o'' ∧ o''.pending = o.pending ∧ o''.udpMtu = o.udpMtu ∧
      o''.maxConnections = o.maxConnections ∧ Effect o e o'' acts :=
  ⟨o', [], rfl, hs.tables h, hp, hs.udpMtu, hs.maxConnections,
    .quiet hs (fun l r isDns data mallocOk flowOk hsub => absurd hsub (he l r isDns data mallocOk flowOk)) rfl⟩

theorem sameTables_haveServer (o : UdpGwClient) (b : Bool) : SameTables o { o with haveServer := b } :=
  ⟨rfl, rfl, rfl, rfl, rfl, rfl, rfl, fun _ _ => rfl, id, Nat.le_refl _⟩

/-- A packet of the server, whatever its bytes are. -/
theorem receive_effect (h : Tables o) (hserver : o.haveServer = true) {packet : Bytes} (hlen : packet.length ≤ o.udpgwMtu) :
    ∃ o' acts, o.recvInterfaceHandlerSend packet = .ok (o', acts) ∧ Tables o' ∧ o'.pending = o.pending ∧
      o'.udpMtu = o.udpMtu ∧ o'.maxConnections = o.maxConnections ∧ Effect o (.receive packet) o' acts := by
  have hquiet := quiet_effect h (e := .receive packet) (SameTables.refl o) rfl (by intro _ _ _ _ _ _ he; cases he)
  unfold recvInterfaceHandlerSend
  rw [if_neg (by rw [hserver]; decide), if_neg (Nat.not_lt.mpr hlen)]
  cases hhead : parseHeader packet with
  | none => exact hquiet
  | some p =>
    obtain ⟨flags, conid, rest⟩ := p
    dsimp only
    cases haddr : parseAddr flags rest with
    | none => exact hquiet
    | some q =>
      obtain ⟨remoteAddr, data⟩ := q
      dsimp only
      by_cases hdata : o.udpMtu < data.length
      · rw [if_pos hdata]
        exact hquiet
      · rw [if_neg hdata]
        cases hfind : o.findConnectionByConid conid with
        | none => exact hquiet
        | some n =>
          dsimp only
          by_cases hcmp : (o.mem n).conaddr.remoteAddr.compareOrder remoteAddr ≠ 0
          · rw [if_pos hcmp]
            exact hquiet
          · rw [if_neg hcmp]
            rw [ne_eq, not_not, BAddr.compareOrder_eq_zero_iff] at hcmp
            obtain ⟨hn, hid⟩ := h.of_findConid hfind
            exact ⟨_, _, rfl, tables_moveToFront h hn, rfl, rfl, rfl,
              .accepted n packet flags rest data rfl (by rw [hid]; exact hhead) (by rw [hcmp]; exact haddr) hn
                (SameTables.refl _) rfl⟩

/-- On tables in step no event faults; it leaves tables in step and has one of the effects. -/
theorem step_effect (h : Tables o) (hpend : o.pending = []) {e : UdpGwEvent} {r : Outcome} (hstep : o.step e = some r) :
    ∃ o' acts, r = .ok (o', acts) ∧ Tables o' ∧ o'.pending = [] ∧ o'.udpMtu = o.udpMtu ∧
      o'.maxConnections = o.maxConnections ∧ Effect o e o' acts := by
  rw [← hpend]
  cases e with
  | submit l r' isDns data mallocOk flowOk =>
    rw [step, Option.ite_none_right_eq_some] at hstep
    obtain ⟨⟨hl, hr, hd⟩, hstep⟩ := hstep
    obtain rfl := Option.some.inj hstep
    rw [hpend]
    exact submit_effect h hpend hl hr hd isDns mallocOk flowOk
  | receive data =>
    rw [step, Option.ite_none_right_eq_some] at hstep
    obtain ⟨⟨hserver, hlen⟩, hstep⟩ := hstep
    obtain rfl := Option.some.inj hstep
    exact receive_effect h hserver hlen
  | bufferReady n =>
    rw [step, Option.ite_none_right_eq_some] at hstep
    obtain ⟨⟨-, hout⟩, hstep⟩ := hstep
    obtain rfl := Option.some.inj hstep
    unfold outputHandlerRecv
    rw [if_neg (by rw [hout]; exact Bool.false_ne_true)]
    exact quiet_effect h (sameTables_setOutHave o n true) rfl (by intro _ _ _ _ _ _ he; cases he)
  | connect decoderOk =>
    rw [step, Option.ite_none_left_eq_some] at hstep
    obtain ⟨hserver, hstep⟩ := hstep
    obtain rfl := Option.some.inj hstep
    unfold connectServer
    rw [if_neg hserver]
    cases decoderOk with
    | false => exact quiet_effect h (SameTables.refl o) rfl (by intro _ _ _ _ _ _ he; cases he)
    | true => exact quiet_effect h (sameTables_haveServer o true) rfl (by intro _ _ _ _ _ _ he; cases he)
  | disconnect =>
    rw [step, Option.ite_none_right_eq_some] at hstep
    obtain ⟨hserver, hstep⟩ := hstep
    obtain rfl := Option.some.inj hstep
    unfold disconnectServer
    rw [if_neg (by rw [hserver]; decide)]
    exact quiet_effect h (sameTables_haveServer o false) rfl (by intro _ _ _ _ _ _ he; cases he)

/-! ## Consequences for the bindings -/

/-- The connection a submit takes over, and the pair it is bound to. -/
def takenOver (o : UdpGwClient) : UdpGwEvent → Option (Nat × ConAddr)
  | .submit l r _ _ _ _ =>
    if o.findConnectionByConaddr ⟨l, r⟩ = none ∧ o.numConnections = o.maxConnections then
      o.connectionsList.head?.map fun n => (n, ⟨l, r⟩)
    else none
  | _ => none

/-- The connections stay, with their ids. -/
theorem Effect.keeps {e : UdpGwEvent} {o' : UdpGwClient} {acts : List UdpGwAct} (heff : Effect o e o' acts) {n : Nat}
    (hn : n ∈ o.connectionsList) : n ∈ o'.connectionsList ∧ (o'.mem n).conid = (o.mem n).conid := by
  cases heff with
  | quiet hs hnone hacts => exact ⟨by rw [hs.list]; exact hn, hs.conid hn⟩
  | sent m l r isDns data mallocOk flowOk he hd hm hp hs hacts =>
    have hin : n ∈ (o.moveToFront m).connectionsList := (mem_moveToEnd hm).mpr hn
    exact ⟨by rw [hs.list]; exact hin, hs.conid hin⟩
  | rebound m l r isDns data mallocOk flowOk he hd hnone hfull hhead hl hb hb' hacts =>
    have hm : m ∈ o.connectionsList := List.mem_of_mem_head? hhead
    refine ⟨by rw [hl]; exact (mem_moveToEnd hm).mpr hn, ?_⟩
    by_cases hnm : n = m
    · subst hnm
      exact congrArg Prod.fst hb
    · exact congrArg Prod.fst (hb' n hn hnm)
  | created m conid l r isDns data mallocOk flowOk he hd hm hid hl hb hb' hacts =>
    exact ⟨by rw [hl]; exact List.mem_append_left _ hn, congrArg Prod.fst (hb' n hn)⟩
  | accepted m packet flags rest data he hhead haddr hm hs hacts =>
    have hin : n ∈ (o.moveToFront m).connectionsList := (mem_moveToEnd hm).mpr hn
    exact ⟨by rw [hs.list]; exact hin, hs.conid hin⟩

/-- A connection has the binding it had, or was taken over, or is new and so is its id. -/
theorem Effect.binding {e : UdpGwEvent} {o' : UdpGwClient} {acts : List UdpGwAct} (heff : Effect o e o' acts) {m : Nat}
    (hm : m ∈ o'.connectionsList) :
    (m ∈ o.connectionsList ∧ o'.binding m = o.binding m) ∨
      (∃ conaddr, o.takenOver e = some (m, conaddr) ∧ m ∈ o.connectionsList ∧ o'.binding m = ((o.mem m).conid, conaddr)) ∨
      ∀ k ∈ o.connectionsList, (o.mem k).conid ≠ (o'.mem m).conid := by
  cases heff with
  | quiet hs hnone hacts =>
    rw [hs.list] at hm
    exact Or.inl ⟨hm, hs.binding m hm⟩
  | sent n l r isDns data mallocOk flowOk he hd hn hp hs hacts =>
    rw [hs.list] at hm
    exact Or.inl ⟨(mem_moveToEnd hn).mp hm, hs.binding m hm⟩
  | rebound n l r isDns data mallocOk flowOk he hd hnone hfull hhead hl hb hb' hacts =>
    have hn : n ∈ o.connectionsList := List.mem_of_mem_head? hhead
    rw [hl, mem_moveToEnd hn] at hm
    by_cases hmn : m = n
    · subst hmn he
      refine Or.inr (Or.inl ⟨⟨l, r⟩, ?_, hm, hb⟩)
      rw [takenOver, if_pos ⟨hnone, hfull⟩, hhead]
      rfl
    · exact Or.inl ⟨hm, hb' m hm hmn⟩
  | created n conid l r isDns data mallocOk flowOk he hd hn hid hl hb hb' hacts =>
    rw [hl, List.mem_append, List.mem_singleton] at hm
    rcases hm with hm | rfl
    · exact Or.inl ⟨hm, hb' m hm⟩
    · refine Or.inr (Or.inr ?_)
      rw [show (o'.mem m).conid = conid from congrArg Prod.fst hb]
      exact hid
  | accepted n packet flags rest data he hhead haddr hn hs hacts =>
    rw [hs.list] at hm
    exact Or.inl ⟨(mem_moveToEnd hn).mp hm, hs.binding m hm⟩

end UdpGwClient

end PsiphonAndroid
