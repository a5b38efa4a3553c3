import PsiphonAndroid.UdpGw.Effects
import PsiphonAndroid.Lib.Transition

/-!
# The connection tables of the UDP gateway client

The client with a record of when each connection was last used. The record is kept beside the client, from the events and not
from the list: a submit uses the connection that has its pair afterwards, and a packet of the server that is handed to the user
uses the connection it names.
-/

namespace PsiphonAndroid

open Lib

/-- The client, the number of events so far, and for each connection the event that last used it. -/
structure TrackedClient where
  client : UdpGwClient
  clock : Nat
  lastUse : Nat → Nat

namespace TrackedClient

/-- The connection an event used, from the state after it and its acts. -/
def used (o : UdpGwClient) : UdpGwEvent → List UdpGwAct → Option Nat
  | .submit localAddr remoteAddr _ _ _ _, _ => o.findConnectionByConaddr ⟨localAddr, remoteAddr⟩
  | .receive data, _ :: _ => (parseHeader data).bind fun header => o.findConnectionByConid header.2.1
  | _, _ => none

/-- The record after an event. -/
def after (t : TrackedClient) (o : UdpGwClient) (e : UdpGwEvent) (acts : List UdpGwAct) : TrackedClient where
  client := o
  clock := t.clock + 1
  lastUse :=
    match used o e acts with
    | none => t.lastUse
    | some n => Function.update t.lastUse n t.clock

end TrackedClient

/-- The client from `UdpGwClient_Init` on, under every sequence of events; a fault ends the run. -/
def clientSystem (udpMtu maxConnections : Nat) : System (Except UdpGwFault TrackedClient) UdpGwEvent where
  init s := s = .ok ⟨UdpGwClient.init udpMtu maxConnections, 0, fun _ => 0⟩
  step s e :=
    match s with
    | .error _ => none
    | .ok t => (t.client.step e).map fun r =>
      match r with
      | .error f => .error f
      | .ok (o, acts) => .ok (t.after o e acts)

namespace ConnectionTablesAux

open UdpGwClient TrackedClient

/-- An event either uses no connection and leaves the list, or takes the connection it uses to the end of it. -/
theorem effect_used {o o' : UdpGwClient} {e : UdpGwEvent} {acts : List UdpGwAct} (h' : Tables o')
    (he : Effect o e o' acts) :
    (used o' e acts = none ∧ o'.connectionsList = o.connectionsList) ∨
      ∃ n, used o' e acts = some n ∧ o'.connectionsList = moveToEnd o.connectionsList n := by
  have hpair : ∀ {n l r}, n ∈ o'.connectionsList → (o'.mem n).conaddr = ⟨l, r⟩ → o'.findConnectionByConaddr ⟨l, r⟩ = some n := by
    intro n l r hn hp
    rw [← hp]
    exact h'.findConaddr_self hn
  cases he with
  | quiet hs hnone hacts =>
    refine Or.inl ⟨?_, hs.list⟩
    subst hacts
    cases e with
    | submit l r isDns data mallocOk flowOk =>
      have := hnone l r isDns data mallocOk flowOk rfl
      unfold used findConnectionByConaddr
      rw [hs.byConaddr]
      exact this
    | receive data => rfl
    | bufferReady n => rfl
    | connect decoderOk => rfl
    | disconnect => rfl
  | sent n l r isDns data mallocOk flowOk he hd hn hp hs hacts =>
    subst he
    have hin : n ∈ (o.moveToFront n).connectionsList := (mem_moveToEnd hn).mpr hn
    refine Or.inr ⟨n, hpair (by rw [hs.list]; exact hin) ?_, hs.list⟩
    rw [hs.conaddr hin]
    exact hp
  | rebound n l r isDns data mallocOk flowOk he hd hnone hfull hhead hl hb hb' hacts =>
    subst he
    have hn : n ∈ o.connectionsList := List.mem_of_mem_head? hhead
    refine Or.inr ⟨n, hpair (by rw [hl]; exact (mem_moveToEnd hn).mpr hn) ?_, hl⟩
    exact congrArg Prod.snd hb
  | created n conid l r isDns data mallocOk flowOk he hd hn hid hl hb hb' hacts =>
    subst he
    refine Or.inr ⟨n, hpair (by rw [hl]; exact List.mem_append_right _ (List.mem_singleton_self n)) ?_, ?_⟩
    · exact congrArg Prod.snd hb
    · rw [hl, moveToEnd, List.erase_of_not_mem hn]
  | accepted n packet flags rest data he hhead haddr hn hs hacts =>
    subst he hacts
    have hin : n ∈ (o.moveToFront n).connectionsList := (mem_moveToEnd hn).mpr hn
    refine Or.inr ⟨n, ?_, hs.list⟩
    change (parseHeader packet).bind _ = _
    rw [hhead, Option.bind_some]
    dsimp only
    rw [← show (o'.mem n).conid = (o.mem n).conid from hs.conid hin]
    exact h'.findConid_self (by rw [hs.list]; exact hin)

/-- What every reachable state of the tracked client satisfies. -/
structure Tracked (udpMtu maxConnections : Nat) (t : TrackedClient) : Prop where
  tables : Tables t.client
  pending : t.client.pending = []
  max_eq : t.client.maxConnections = min maxConnections 65536
  mtu_eq : t.client.udpMtu = udpMtu
  ordered : ByLastUse t.lastUse t.client.connectionsList
  past : ∀ n ∈ t.client.connectionsList, t.lastUse n < t.clock

theorem tracked_init {maxConnections : Nat} (udpMtu : Nat) (h : 0 < maxConnections) :
    Tracked udpMtu maxConnections ⟨UdpGwClient.init udpMtu maxConnections, 0, fun _ => 0⟩ where
  tables := tables_init udpMtu h
  pending := rfl
  max_eq := by
    unfold UdpGwClient.init
    dsimp only
    split <;> omega
  mtu_eq := rfl
  ordered := List.Pairwise.nil
  past := by intro n hn; exact absurd hn List.not_mem_nil

/-- An event keeps the list in the order of last use. -/
theorem tracked_after {udpMtu maxConnections : Nat} {t : TrackedClient} (h : Tracked udpMtu maxConnections t) {e : UdpGwEvent}
    {o' : UdpGwClient} {acts : List UdpGwAct} (htab : Tables o') (hp : o'.pending = []) (hmtu : o'.udpMtu = t.client.udpMtu)
    (hmax : o'.maxConnections = t.client.maxConnections) (he : Effect t.client e o' acts) :
    Tracked udpMtu maxConnections (t.after o' e acts) := by
  rcases effect_used htab he with ⟨hu, hl⟩ | ⟨n, hu, hl⟩
  · have hlast : (t.after o' e acts).lastUse = t.lastUse := by
      unfold after
      rw [hu]
    refine ⟨htab, hp, hmax.trans h.max_eq, hmtu.trans h.mtu_eq, ?_, ?_⟩
    · rw [hlast]
      exact hl ▸ h.ordered
    · rw [hlast]
      intro n hn
      exact Nat.lt_succ_of_lt (h.past n (hl ▸ hn))
  · have hlast : (t.after o' e acts).lastUse = Function.update t.lastUse n t.clock := by
      unfold after
      rw [hu]
    refine ⟨htab, hp, hmax.trans h.max_eq, hmtu.trans h.mtu_eq, ?_, ?_⟩
    · rw [hlast]
      exact hl ▸ h.ordered.touch h.past h.tables.nodup n
    · rw [hlast]
      intro m hm
      by_cases hmn : m = n
      · rw [hmn, Function.update_self]
        exact Nat.lt_succ_self _
      · have hm' : m ∈ t.client.connectionsList := by
          have : m ∈ moveToEnd t.client.connectionsList n := hl ▸ hm
          rw [moveToEnd, List.mem_append, List.mem_singleton] at this
          exact List.mem_of_mem_erase (this.resolve_right hmn)
        rw [Function.update_of_ne hmn]
        exact Nat.lt_succ_of_lt (h.past m hm')

/-- Every reachable state is free of faults and in order. -/
theorem tracked_reach {udpMtu maxConnections : Nat} (hmax : 0 < maxConnections) {s : Except UdpGwFault TrackedClient}
    (hs : (clientSystem udpMtu maxConnections).Reach s) : ∃ t, s = .ok t ∧ Tracked udpMtu maxConnections t := by
  refine hs.invariant (fun s => ∃ t, s = .ok t ∧ Tracked udpMtu maxConnections t) ?_ ?_
  · rintro s rfl
    exact ⟨_, rfl, tracked_init udpMtu hmax⟩
  · rintro s e s' ⟨t, rfl, ht⟩ hstep
    unfold clientSystem at hstep
    dsimp only at hstep
    rw [Option.map_eq_some_iff] at hstep
    obtain ⟨r, hr, rfl⟩ := hstep
    obtain ⟨o', acts, rfl, htab, hp, hmtu, hm, he⟩ := step_effect ht.tables ht.pending hr
    exact ⟨_, rfl, tracked_after ht htab hp hmtu hm he⟩

/-- Where `connection_init` returns at all, the conditions it asserts hold. -/
theorem connectionInit_ok {o o' : UdpGwClient} {conaddr : ConAddr} {flags : UInt8} {data : Bytes} {mallocOk flowOk : Bool}
    {acts : List UdpGwAct} (h : o.connectionInit conaddr flags data mallocOk flowOk = .ok (o', acts)) :
    o.numConnections < o.maxConnections ∧ o.findConnectionByConaddr conaddr = none ∧ data.length ≤ o.udpMtu := by
  unfold connectionInit at h
  split at h
  · cases h
  · rename_i hroom
    split at h
    · cases h
    · rename_i hnone
      split at h
      · cases h
      · rename_i hd
        exact ⟨not_not.mp hroom, Option.not_isSome_iff_eq_none.mp hnone, Nat.le_of_not_lt hd⟩

/-- The pairs and ids of the connections of a state that is no fault, the one used longest ago first. -/
def pairsAndIds : Except UdpGwFault TrackedClient → List (ConAddr × UInt16)
  | .error _ => []
  | .ok t => t.client.connectionsList.map fun n => ((t.client.mem n).conaddr, (t.client.mem n).conid)

end ConnectionTablesAux

open ConnectionTablesAux UdpGwClient

/-- The connection tables, for every `max_connections` and every sequence of submits (with any allocation failing), packets of the
server, buffers with room again, connects and disconnects. No reachable state is a fault, and in each:
1. the two trees and the list hold the same connections, and each of them once;
2. no two connections have one pair, and no two have one id; ids are below `max_connections` and 65536;
3. the count is their number and at most `max_connections`;
4. the list is in the order of last use, and `reuse_connection`, called for a pair no connection has while the table is full,
   succeeds and takes a connection that no other was used before;
5. `find_unused_conid`, called while there is room, returns, and what it returns is an id no connection has;
6. a `connection_init` one of whose allocations fails leaves the three containers and the count as they were. -/
theorem connection_tables {udpMtu maxConnections : Nat} (hmax : 0 < maxConnections) {s : Except UdpGwFault TrackedClient}
    (hs : (clientSystem udpMtu maxConnections).Reach s) :
    ∃ t, s = .ok t ∧
      ((t.client.connectionsTreeByConaddr.entries.map Prod.snd).Perm t.client.connectionsList ∧
        (t.client.connectionsTreeByConid.entries.map Prod.snd).Perm t.client.connectionsList ∧
        t.client.connectionsList.Nodup) ∧
      ((t.client.connectionsList.map fun n => (t.client.mem n).conaddr).Nodup ∧
        (t.client.connectionsList.map fun n => (t.client.mem n).conid).Nodup ∧
        ∀ n ∈ t.client.connectionsList, (t.client.mem n).conid.toNat < min maxConnections 65536) ∧
      (t.client.numConnections = t.client.connectionsList.length ∧ t.client.numConnections ≤ maxConnections) ∧
      (ByLastUse t.lastUse t.client.connectionsList ∧
        ∀ conaddr : ConAddr, conaddr.remoteAddr.IsIp → t.client.findConnectionByConaddr conaddr = none →
          t.client.numConnections = t.client.maxConnections →
          ∃ o' n, t.client.reuseConnection conaddr = .ok (o', n) ∧ n ∈ t.client.connectionsList ∧
            (o'.mem n).conaddr = conaddr ∧ ∀ m ∈ t.client.connectionsList, t.lastUse n ≤ t.lastUse m) ∧
      (t.client.numConnections < t.client.maxConnections →
        ∃ o' conid, t.client.findUnusedConid = .ok (o', conid) ∧ conid.toNat < min maxConnections 65536 ∧
          ∀ n ∈ t.client.connectionsList, (t.client.mem n).conid ≠ conid) ∧
      (∀ conaddr flags data mallocOk flowOk o' acts,
        t.client.connectionInit conaddr flags data mallocOk flowOk = .ok (o', acts) → (mallocOk = false ∨ flowOk = false) →
          o'.connectionsTreeByConaddr = t.client.connectionsTreeByConaddr ∧
          o'.connectionsTreeByConid = t.client.connectionsTreeByConid ∧
          o'.connectionsList = t.client.connectionsList ∧ o'.numConnections = t.client.numConnections) := by
  obtain ⟨t, rfl, ht⟩ := tracked_reach hmax hs
  have h := ht.tables
  refine ⟨t, rfl, ⟨h.byConaddr.nodes, h.byConid.nodes, h.nodup⟩, ⟨?_, ?_, ?_⟩, ⟨h.num, ?_⟩, ⟨ht.ordered, ?_⟩, ?_, ?_⟩
  · exact h.nodup.map_on h.conaddr_inj
  · exact h.nodup.map_on h.conid_inj
  · intro n hn
    exact ht.max_eq ▸ h.conid_lt n hn
  · have hle := h.num_le
    rw [ht.max_eq] at hle
    exact Nat.le_trans hle (Nat.min_le_left _ _)
  · intro conaddr hip hnone hfull
    cases hlist : t.client.connectionsList with
    | nil =>
      have hnum := h.num
      rw [hfull, hlist] at hnum
      exact absurd hnum (Nat.ne_of_gt h.max_pos)
    | cons n rest =>
      obtain ⟨tree, hreuse, -⟩ := reuseConnection_spec h hip hnone hlist
      refine ⟨_, n, hreuse, List.mem_cons_self, ?_, ?_⟩
      · exact congrArg UdpGwConnection.conaddr (reboundMem_self t.client n conaddr)
      · exact ByLastUse.head_le (hlist ▸ ht.ordered)
  · intro hroom
    obtain ⟨k, hk, hrun, hfree⟩ := findUnusedConid_spec h hroom
    refine ⟨_, UInt16.ofNat k, hrun, ?_, h.findConid_none.mp hfree⟩
    rw [UInt16.toNat_ofNat_of_lt' (Nat.lt_of_lt_of_le hk h.max_le)]
    exact ht.max_eq ▸ hk
  · intro conaddr flags data mallocOk flowOk o' acts hinit hbad
    obtain ⟨hroom, hnone, hd⟩ := connectionInit_ok hinit
    obtain ⟨o'', hrun, hsame, -⟩ := connectionInit_failed h hroom hnone hd flags hbad
    rw [hrun] at hinit
    injection hinit with hinit
    injection hinit with ho _
    exact ho ▸ ⟨hsame.byConaddr, hsame.byConid, hsame.list, hsame.num⟩

/-- Two connections allowed. The second is given the id 1, as 0 is taken, at the second try; the first is used again, and a third pair
takes over the second. -/
theorem connection_tables_taken_over :
    ∃ t, (clientSystem 10 2).Reach (.ok t) ∧
      pairsAndIds (.ok t) = [(⟨.ipv4 1 1, .ipv4 9 53⟩, 0), (⟨.ipv4 3 3, .ipv4 9 53⟩, 1)] ∧
      (t.client.connectionsTreeByConaddr.entries.map Prod.snd).Perm t.client.connectionsList ∧
      t.client.numConnections ≤ 2 ∧ ByLastUse t.lastUse t.client.connectionsList := by
  let events : List UdpGwEvent :=
    [.submit (.ipv4 1 1) (.ipv4 9 53) true [7] true true, .submit (.ipv4 2 2) (.ipv4 9 53) true [8] true false,
      .submit (.ipv4 2 2) (.ipv4 9 53) true [8] true true, .submit (.ipv4 1 1) (.ipv4 9 53) true [9] true true,
      .submit (.ipv4 3 3) (.ipv4 9 53) true [10] true true]
  let s0 : Except UdpGwFault TrackedClient := .ok ⟨UdpGwClient.init 10 2, 0, fun _ => 0⟩
  have hpairs : ((clientSystem 10 2).exec s0 events).map pairsAndIds =
      some [(⟨.ipv4 1 1, .ipv4 9 53⟩, 0), (⟨.ipv4 3 3, .ipv4 9 53⟩, 1)] := by decide +kernel
  obtain ⟨s, hs, hlist⟩ := Option.map_eq_some_iff.mp hpairs
  have hreach : (clientSystem 10 2).Reach s := ⟨_, (System.Run.init rfl).exec hs⟩
  obtain ⟨t, rfl, ⟨hperm, -, -⟩, -, ⟨-, hle⟩, ⟨horder, -⟩, -⟩ := connection_tables (by decide) hreach
  exact ⟨t, hreach, hlist, hperm, hle, horder⟩

/-- `UdpGwClient_Free` empties the three containers. -/
theorem freeConnections_empty {o : UdpGwClient} (h : Tables o) :
    (freeConnections o.numConnections o).connectionsList = [] ∧
      (freeConnections o.numConnections o).connectionsTreeByConaddr.entries = [] ∧
      (freeConnections o.numConnections o).connectionsTreeByConid.entries = [] := by
  generalize hn : o.numConnections = fuel
  induction fuel generalizing o with
  | zero =>
    have hl : o.connectionsList = [] := List.eq_nil_of_length_eq_zero (h.num.symm.trans hn)
    have h1 := h.byConaddr
    have h2 := h.byConid
    rw [hl] at h1 h2
    exact ⟨hl, h1.eq_nil, h2.eq_nil⟩
  | succ fuel ih =>
    cases hl : o.connectionsList with
    | nil =>
      have := h.num
      rw [hl, hn] at this
      cases this
    | cons n rest =>
      have hmem : n ∈ o.connectionsList := by rw [hl]; exact List.mem_cons_self
      have := ih (tables_connectionFree h hmem) (by unfold connectionFree; dsimp only; rw [hn]; rfl)
      unfold freeConnections
      rw [hl]
      exact this

end PsiphonAndroid
