import PsiphonAndroid.UdpGw.Client

/-!
# The connection tables stay in step

`Tables` is the invariant of the three containers of `UdpGwClient` over the connections they share. Each operation has its own
statement here: on tables in step it does not fault, and what it leaves are tables in step again. `step_effect` puts them together:
every event has one of five effects on the list, the bindings and the outside.
-/

namespace PsiphonAndroid

open Lib

/-- The order on ids takes two ids as equal exactly when they are. -/
theorem uint16Comparator_eq_zero_iff (a b : UInt16) : uint16Comparator a b = 0 ↔ a = b := by
  unfold uint16Comparator
  rw [bCompare_eq_zero_iff, UInt16.toNat_inj]

/-- The order on pairs takes two pairs as equal exactly when they are. -/
theorem conaddrComparator_eq_zero_iff (a b : ConAddr) : conaddrComparator a b = 0 ↔ a = b := by
  have hr := BAddr.compareOrder_eq_zero_iff a.remoteAddr b.remoteAddr
  have hl := BAddr.compareOrder_eq_zero_iff a.localAddr b.localAddr
  have he : a = b ↔ a.localAddr = b.localAddr ∧ a.remoteAddr = b.remoteAddr := by
    cases a
    cases b
    simp
  unfold conaddrComparator
  dsimp only
  split
  · rename_i hne
    rw [ne_eq, hr] at hne
    exact ⟨fun h => absurd (hr.mp h) hne, fun h => absurd (he.mp h).2 hne⟩
  · rename_i heq
    rw [ne_eq, not_not, hr] at heq
    rw [hl, he]
    exact ⟨fun h => ⟨h, heq⟩, fun h => h.1⟩

namespace UdpGwClient

/-- The id and the pair a connection has. -/
def binding (o : UdpGwClient) (n : Nat) : UInt16 × ConAddr := ((o.mem n).conid, (o.mem n).conaddr)

/-- The two trees hold the connections of the list, each under the key it has now; ids and pairs are not shared; the count, the
ids and the search cursor are below the limit; and no connection is at an address `malloc` has yet to give. -/
structure Tables (o : UdpGwClient) : Prop where
  max_pos : 0 < o.maxConnections
  max_le : o.maxConnections ≤ 65536
  mtu : o.udpgwMtu = udpgwComputeMtu o.udpMtu
  nodup : o.connectionsList.Nodup
  byConaddr : o.connectionsTreeByConaddr.Holds (fun n => (o.mem n).conaddr) o.connectionsList
  byConid : o.connectionsTreeByConid.Holds (fun n => (o.mem n).conid) o.connectionsList
  conaddr_inj : ∀ n ∈ o.connectionsList, ∀ m ∈ o.connectionsList, (o.mem n).conaddr = (o.mem m).conaddr → n = m
  conid_inj : ∀ n ∈ o.connectionsList, ∀ m ∈ o.connectionsList, (o.mem n).conid = (o.mem m).conid → n = m
  conid_lt : ∀ n ∈ o.connectionsList, (o.mem n).conid.toNat < o.maxConnections
  remote_ip : ∀ n ∈ o.connectionsList, (o.mem n).conaddr.remoteAddr.IsIp
  num : o.numConnections = o.connectionsList.length
  num_le : o.numConnections ≤ o.maxConnections
  next_lt : o.nextConid < o.maxConnections
  fresh : ∀ n ∈ o.connectionsList, n < o.nextCon

/-- `o'` has the containers of `o` and the bindings of its connections; the cursor, the buffers and what concerns the server may
differ. -/
structure SameTables (o o' : UdpGwClient) : Prop where
  udpMtu : o'.udpMtu = o.udpMtu
  maxConnections : o'.maxConnections = o.maxConnections
  udpgwMtu : o'.udpgwMtu = o.udpgwMtu
  byConaddr : o'.connectionsTreeByConaddr = o.connectionsTreeByConaddr
  byConid : o'.connectionsTreeByConid = o.connectionsTreeByConid
  list : o'.connectionsList = o.connectionsList
  num : o'.numConnections = o.numConnections
  binding : ∀ n ∈ o.connectionsList, o'.binding n = o.binding n
  next : o.nextConid < o.maxConnections → o'.nextConid < o.maxConnections
  nextCon : o.nextCon ≤ o'.nextCon

theorem SameTables.refl (o : UdpGwClient) : SameTables o o :=
  ⟨rfl, rfl, rfl, rfl, rfl, rfl, rfl, fun _ _ => rfl, id, Nat.le_refl _⟩

theorem SameTables.trans {o o' o'' : UdpGwClient} (h : SameTables o o') (h' : SameTables o' o'') : SameTables o o'' where
  udpMtu := h'.udpMtu.trans h.udpMtu
  maxConnections := h'.maxConnections.trans h.maxConnections
  udpgwMtu := h'.udpgwMtu.trans h.udpgwMtu
  byConaddr := h'.byConaddr.trans h.byConaddr
  byConid := h'.byConid.trans h.byConid
  list := h'.list.trans h.list
  num := h'.num.trans h.num
  binding := fun n hn => (h'.binding n (by rwa [h.list])).trans (h.binding n hn)
  next := fun hn => by
    rw [← h.maxConnections]
    exact h'.next (by rw [h.maxConnections]; exact h.next hn)
  nextCon := Nat.le_trans h.nextCon h'.nextCon

theorem SameTables.conaddr {o o' : UdpGwClient} (h : SameTables o o') {n : Nat} (hn : n ∈ o.connectionsList) :
    (o'.mem n).conaddr = (o.mem n).conaddr := congrArg Prod.snd (h.binding n hn)

theorem SameTables.conid {o o' : UdpGwClient} (h : SameTables o o') {n : Nat} (hn : n ∈ o.connectionsList) :
    (o'.mem n).conid = (o.mem n).conid := congrArg Prod.fst (h.binding n hn)

/-- Tables in step stay so where the containers and the bindings are the same. -/
theorem SameTables.tables {o o' : UdpGwClient} (hs : SameTables o o') (h : Tables o) : Tables o' where
  max_pos := by rw [hs.maxConnections]; exact h.max_pos
  max_le := by rw [hs.maxConnections]; exact h.max_le
  mtu := by rw [hs.udpgwMtu, hs.udpMtu]; exact h.mtu
  nodup := by rw [hs.list]; exact h.nodup
  byConaddr := by
    rw [hs.byConaddr, hs.list]
    exact h.byConaddr.congr fun n hn => hs.conaddr hn
  byConid := by
    rw [hs.byConid, hs.list]
    exact h.byConid.congr fun n hn => hs.conid hn
  conaddr_inj := by
    rw [hs.list]
    intro n hn m hm he
    rw [hs.conaddr hn, hs.conaddr hm] at he
    exact h.conaddr_inj n hn m hm he
  conid_inj := by
    rw [hs.list]
    intro n hn m hm he
    rw [hs.conid hn, hs.conid hm] at he
    exact h.conid_inj n hn m hm he
  conid_lt := by
    rw [hs.list, hs.maxConnections]
    intro n hn
    rw [hs.conid hn]
    exact h.conid_lt n hn
  remote_ip := by
    rw [hs.list]
    intro n hn
    rw [hs.conaddr hn]
    exact h.remote_ip n hn
  num := by rw [hs.num, hs.list]; exact h.num
  num_le := by rw [hs.num, hs.maxConnections]; exact h.num_le
  next_lt := by rw [hs.maxConnections]; exact hs.next h.next_lt
  fresh := by
    rw [hs.list]
    intro n hn
    exact Nat.lt_of_lt_of_le (h.fresh n hn) hs.nextCon

/-- At the start there are no connections. -/
theorem tables_init {maxConnections : Nat} (udpMtu : Nat) (h : 0 < maxConnections) : Tables (init udpMtu maxConnections) where
  max_pos := by unfold init; dsimp only; split <;> omega
  max_le := by unfold init; dsimp only; split <;> omega
  mtu := rfl
  nodup := List.nodup_nil
  byConaddr := Index.holds_empty _
  byConid := Index.holds_empty _
  conaddr_inj := by intro n hn; exact absurd hn List.not_mem_nil
  conid_inj := by intro n hn; exact absurd hn List.not_mem_nil
  conid_lt := by intro n hn; exact absurd hn List.not_mem_nil
  remote_ip := by intro n hn; exact absurd hn List.not_mem_nil
  num := rfl
  num_le := Nat.zero_le _
  next_lt := by unfold init; dsimp only; split <;> omega
  fresh := by intro n hn; exact absurd hn List.not_mem_nil

/-! ## Lookups -/

variable {o : UdpGwClient}

theorem Tables.of_findConaddr (h : Tables o) {conaddr : ConAddr} {n : Nat} (hf : o.findConnectionByConaddr conaddr = some n) :
    n ∈ o.connectionsList ∧ (o.mem n).conaddr = conaddr := h.byConaddr.of_lookup conaddrComparator_eq_zero_iff hf

theorem Tables.findConaddr_none (h : Tables o) {conaddr : ConAddr} :
    o.findConnectionByConaddr conaddr = none ↔ ∀ n ∈ o.connectionsList, (o.mem n).conaddr ≠ conaddr :=
  h.byConaddr.lookup_none conaddrComparator_eq_zero_iff

theorem Tables.findConaddr_self (h : Tables o) {n : Nat} (hn : n ∈ o.connectionsList) :
    o.findConnectionByConaddr (o.mem n).conaddr = some n :=
  h.byConaddr.lookup_key conaddrComparator_eq_zero_iff h.conaddr_inj hn

theorem Tables.of_findConid (h : Tables o) {conid : UInt16} {n : Nat} (hf : o.findConnectionByConid conid = some n) :
    n ∈ o.connectionsList ∧ (o.mem n).conid = conid := h.byConid.of_lookup uint16Comparator_eq_zero_iff hf

theorem Tables.findConid_none (h : Tables o) {conid : UInt16} :
    o.findConnectionByConid conid = none ↔ ∀ n ∈ o.connectionsList, (o.mem n).conid ≠ conid :=
  h.byConid.lookup_none uint16Comparator_eq_zero_iff

theorem Tables.findConid_self (h : Tables o) {n : Nat} (hn : n ∈ o.connectionsList) :
    o.findConnectionByConid (o.mem n).conid = some n :=
  h.byConid.lookup_key uint16Comparator_eq_zero_iff h.conid_inj hn

/-! ## The search for an id -/

/-- Where the id `d` places after the cursor is free, the loop finds a free one in `d + 1` rounds. -/
theorem findUnusedConidLoop_spec (h : Tables o) {fuel d : Nat} (hd : d < fuel)
    (hfree : o.findConnectionByConid (UInt16.ofNat ((o.nextConid + d) % o.maxConnections)) = none) :
    ∃ k < o.maxConnections, findUnusedConidLoop fuel o = .ok ({ o with nextConid := k }, UInt16.ofNat k) ∧
      o.findConnectionByConid (UInt16.ofNat k) = none := by
  induction fuel generalizing o d with
  | zero => exact absurd hd (Nat.not_lt_zero d)
  | succ fuel ih =>
    unfold findUnusedConidLoop
    cases hl : o.findConnectionByConid (UInt16.ofNat o.nextConid) with
    | none => exact ⟨o.nextConid, h.next_lt, rfl, hl⟩
    | some n =>
      cases d with
      | zero =>
        rw [Nat.add_zero, Nat.mod_eq_of_lt h.next_lt, hl] at hfree
        cases hfree
      | succ d =>
        have hnext := circleNext_lt h.next_lt
        have hs : SameTables o { o with nextConid := circleNext o.maxConnections o.nextConid } :=
          { SameTables.refl o with next := fun _ => hnext }
        have hmod : (circleNext o.maxConnections o.nextConid + d) % o.maxConnections =
            (o.nextConid + (d + 1)) % o.maxConnections := by
          rw [circleNext_mod h.next_lt, Nat.mod_add_mod, Nat.add_assoc, Nat.add_comm 1 d]
        have hfree' := hfree
        rw [← hmod] at hfree'
        exact ih (d := d) (hs.tables h) (Nat.lt_of_succ_lt_succ hd) hfree'

/-- While there is room, `find_unused_conid` returns, and what it returns is below the limit and unused. -/
theorem findUnusedConid_spec (h : Tables o) (hroom : o.numConnections < o.maxConnections) :
    ∃ k < o.maxConnections, o.findUnusedConid = .ok ({ o with nextConid := k }, UInt16.ofNat k) ∧
      o.findConnectionByConid (UInt16.ofNat k) = none := by
  have hlen : (o.connectionsList.map fun n => (o.mem n).conid.toNat).length < o.maxConnections := by
    rw [List.length_map, ← h.num]
    exact hroom
  obtain ⟨j, hj, hnot⟩ := exists_unused hlen
  have hfree : o.findConnectionByConid (UInt16.ofNat j) = none := by
    rw [h.findConid_none]
    intro n hn he
    refine hnot (List.mem_map.mpr ⟨n, hn, ?_⟩)
    rw [he, UInt16.toNat_ofNat_of_lt']
    exact Nat.lt_of_lt_of_le hj h.max_le
  have hcur := h.next_lt
  have hdist : (o.nextConid + (j + o.maxConnections - o.nextConid) % o.maxConnections) % o.maxConnections = j := by
    rw [Nat.add_mod_mod, show o.nextConid + (j + o.maxConnections - o.nextConid) = j + o.maxConnections by omega,
      Nat.add_mod_right, Nat.mod_eq_of_lt hj]
  unfold findUnusedConid
  rw [if_pos hroom]
  exact findUnusedConidLoop_spec h (Nat.mod_lt _ h.max_pos) (by rw [hdist]; exact hfree)

/-! ## The operations -/

theorem sameTables_setOutHave (o : UdpGwClient) (n : Nat) (b : Bool) : SameTables o (o.setOutHave n b) where
  __ := SameTables.refl o
  binding := by
    intro m _
    unfold binding setOutHave
    by_cases hm : m = n
    · subst hm
      simp only [Function.update_self]
    · simp only [Function.update_of_ne hm]

/-- `connection_send` writes a frame with the connection's binding when the buffer has a place, and drops the datagram else. -/
theorem connectionSend_spec (h : Tables o) {data : Bytes} (hd : data.length ≤ o.udpMtu) (n : Nat) (flags : UInt8) :
    ∃ o', o.connectionSend n flags data =
        .ok (o', if (o.mem n).outHave then [.enqueue ⟨flags, (o.mem n).conid, (o.mem n).conaddr, data⟩] else []) ∧
      SameTables o o' ∧ o'.pending = o.pending := by
  unfold connectionSend
  rw [if_neg (Nat.not_lt.mpr hd)]
  cases hh : (o.mem n).outHave with
  | false => exact ⟨o, rfl, SameTables.refl o, rfl⟩
  | true =>
    have hl := length_udpgwPacket_le flags (o.mem n).conid (o.mem n).conaddr.remoteAddr hd
    rw [← h.mtu] at hl
    refine ⟨o.setOutHave n false, ?_, sameTables_setOutHave o n false, rfl⟩
    exact if_neg (Nat.not_lt.mpr hl)

/-- Moving a connection in the list keeps the tables. -/
theorem tables_moveToFront (h : Tables o) {n : Nat} (hn : n ∈ o.connectionsList) : Tables (o.moveToFront n) where
  max_pos := h.max_pos
  max_le := h.max_le
  mtu := h.mtu
  nodup := (moveToEnd_perm hn).nodup_iff.mpr h.nodup
  byConaddr := h.byConaddr.perm (moveToEnd_perm hn).symm
  byConid := h.byConid.perm (moveToEnd_perm hn).symm
  conaddr_inj := fun a ha b hb => h.conaddr_inj a ((mem_moveToEnd hn).mp ha) b ((mem_moveToEnd hn).mp hb)
  conid_inj := fun a ha b hb => h.conid_inj a ((mem_moveToEnd hn).mp ha) b ((mem_moveToEnd hn).mp hb)
  conid_lt := fun a ha => h.conid_lt a ((mem_moveToEnd hn).mp ha)
  remote_ip := fun a ha => h.remote_ip a ((mem_moveToEnd hn).mp ha)
  num := h.num.trans (moveToEnd_perm hn).length_eq.symm
  num_le := h.num_le
  next_lt := h.next_lt
  fresh := fun a ha => h.fresh a ((mem_moveToEnd hn).mp ha)

/-- The records after one connection was given another pair. -/
def reboundMem (o : UdpGwClient) (n : Nat) (conaddr : ConAddr) : Nat → UdpGwConnection :=
  Function.update o.mem n { o.mem n with conaddr := conaddr }

theorem reboundMem_self (o : UdpGwClient) (n : Nat) (conaddr : ConAddr) :
    o.reboundMem n conaddr n = { o.mem n with conaddr := conaddr } := Function.update_self _ _ _

theorem reboundMem_ne (o : UdpGwClient) {n m : Nat} (conaddr : ConAddr) (hm : m ≠ n) : o.reboundMem n conaddr m = o.mem m :=
  Function.update_of_ne hm _ _

theorem reboundMem_conid (o : UdpGwClient) (n : Nat) (conaddr : ConAddr) (m : Nat) :
    (o.reboundMem n conaddr m).conid = (o.mem m).conid := by
  by_cases hm : m = n
  · rw [hm, reboundMem_self]
  · rw [reboundMem_ne o conaddr hm]

/-- A pair that no connection has is given to one of them: pairs are still not shared. -/
theorem reboundMem_inj (h : Tables o) {conaddr : ConAddr} (hnew : ∀ n ∈ o.connectionsList, (o.mem n).conaddr ≠ conaddr) (n : Nat) :
    ∀ a ∈ o.connectionsList, ∀ b ∈ o.connectionsList,
      (o.reboundMem n conaddr a).conaddr = (o.reboundMem n conaddr b).conaddr → a = b := by
  intro a ha b hb he
  by_cases han : a = n
  · by_cases hbn : b = n
    · rw [han, hbn]
    · rw [han, reboundMem_self, reboundMem_ne o conaddr hbn] at he
      exact absurd he.symm (hnew b hb)
  · rw [reboundMem_ne o conaddr han] at he
    by_cases hbn : b = n
    · rw [hbn, reboundMem_self] at he
      exact absurd he (hnew a ha)
    · rw [reboundMem_ne o conaddr hbn] at he
      exact h.conaddr_inj a ha b hb he

/-- The tables with one connection's pair changed and a tree by pairs that has it under the new one. -/
theorem tables_rebound (h : Tables o) {conaddr : ConAddr} (hip : conaddr.remoteAddr.IsIp)
    (hnew : ∀ n ∈ o.connectionsList, (o.mem n).conaddr ≠ conaddr) (n : Nat) {t : Index ConAddr Nat}
    (ht : t.Holds (fun m => (o.reboundMem n conaddr m).conaddr) o.connectionsList) :
    Tables { o with
      connectionsTreeByConaddr := t
      mem := o.reboundMem n conaddr } where
  max_pos := h.max_pos
  max_le := h.max_le
  mtu := h.mtu
  nodup := h.nodup
  byConaddr := ht
  byConid := h.byConid.congr fun m _ => reboundMem_conid o n conaddr m
  conaddr_inj := reboundMem_inj h hnew n
  conid_inj := by
    intro a ha b hb he
    rw [reboundMem_conid, reboundMem_conid] at he
    exact h.conid_inj a ha b hb he
  conid_lt := by
    intro a ha
    rw [reboundMem_conid]
    exact h.conid_lt a ha
  remote_ip := by
    intro a ha
    dsimp only
    by_cases han : a = n
    · rw [han, reboundMem_self]
      exact hip
    · rw [reboundMem_ne o conaddr han]
      exact h.remote_ip a ha
  num := h.num
  num_le := h.num_le
  next_lt := h.next_lt
  fresh := h.fresh

/-- `reuse_connection` takes the first connection of the list over for a pair that no connection has. -/
theorem reuseConnection_spec (h : Tables o) {conaddr : ConAddr} (hip : conaddr.remoteAddr.IsIp)
    (hnone : o.findConnectionByConaddr conaddr = none) {n : Nat} {rest : List Nat} (hlist : o.connectionsList = n :: rest) :
    ∃ t, o.reuseConnection conaddr = .ok ({ o with
        connectionsTreeByConaddr := t
        mem := o.reboundMem n conaddr }, n) ∧
      Tables { o with
        connectionsTreeByConaddr := t
        mem := o.reboundMem n conaddr } := by
  have hn : n ∈ o.connectionsList := by rw [hlist]; exact List.mem_cons_self
  have hnew := h.findConaddr_none.mp hnone
  have herase : ∀ m ∈ o.connectionsList.erase n, m ≠ n ∧ m ∈ o.connectionsList := fun m hm => h.nodup.mem_erase_iff.mp hm
  have hremoved : (o.connectionsTreeByConaddr.remove n).Holds (fun m => (o.reboundMem n conaddr m).conaddr)
      (o.connectionsList.erase n) :=
    (h.byConaddr.remove h.nodup n).congr fun m hm => by rw [reboundMem_ne o conaddr (herase m hm).1]
  obtain ⟨t, ht, hholds⟩ := hremoved.insert (n := n) conaddrComparator_eq_zero_iff (by
    intro m hm
    rw [reboundMem_ne o conaddr (herase m hm).1, reboundMem_self]
    exact hnew m (herase m hm).2)
  refine ⟨t, ?_, tables_rebound h hip hnew n (hholds.perm (moveToEnd_perm hn))⟩
  have hpos : 0 < o.numConnections := by rw [h.num, hlist]; exact Nat.succ_pos _
  unfold reuseConnection
  rw [if_neg (by rw [hnone]; exact Bool.false_ne_true), if_neg (not_not.mpr hpos), hlist]
  unfold reboundMem at ht ⊢
  dsimp only
  rw [ht]

/-- A new record in the block `malloc` gives. -/
def allocated (o : UdpGwClient) (c : UdpGwConnection) : UdpGwClient :=
  { o with
    nextCon := o.nextCon + 1
    mem := Function.update o.mem o.nextCon c }

theorem allocated_self (o : UdpGwClient) (c : UdpGwConnection) : (o.allocated c).mem o.nextCon = c := Function.update_self _ _ _

theorem Tables.ne_nextCon (h : Tables o) {m : Nat} (hm : m ∈ o.connectionsList) : m ≠ o.nextCon := Nat.ne_of_lt (h.fresh m hm)

theorem Tables.allocated_mem (h : Tables o) (c : UdpGwConnection) {m : Nat} (hm : m ∈ o.connectionsList) :
    (o.allocated c).mem m = o.mem m := Function.update_of_ne (h.ne_nextCon hm) _ _

/-- A record no container knows changes nothing. -/
theorem Tables.same_allocated (h : Tables o) (c : UdpGwConnection) : SameTables o (o.allocated c) where
  __ := SameTables.refl o
  binding := by
    intro m hm
    unfold UdpGwClient.binding
    rw [h.allocated_mem c hm]
  nextCon := Nat.le_succ _

/-- A connection with a new pair and a new id can be put into the three containers. -/
theorem tables_created (h : Tables o) (hroom : o.numConnections < o.maxConnections) {n : Nat} (hn : n ∉ o.connectionsList)
    (hfresh : n < o.nextCon) (hip : (o.mem n).conaddr.remoteAddr.IsIp) (hlt : (o.mem n).conid.toNat < o.maxConnections)
    (hpair : ∀ m ∈ o.connectionsList, (o.mem m).conaddr ≠ (o.mem n).conaddr)
    (hid : ∀ m ∈ o.connectionsList, (o.mem m).conid ≠ (o.mem n).conid) (jobs : List UdpGwJob) :
    ∃ t1 t2, o.connectionsTreeByConaddr.insert conaddrComparator (o.mem n).conaddr n = some t1 ∧
      o.connectionsTreeByConid.insert uint16Comparator (o.mem n).conid n = some t2 ∧
      Tables { o with
        connectionsTreeByConaddr := t1
        connectionsTreeByConid := t2
        connectionsList := o.connectionsList ++ [n]
        numConnections := o.numConnections + 1
        pending := jobs } := by
  obtain ⟨t1, ht1, hh1⟩ := h.byConaddr.insert conaddrComparator_eq_zero_iff hpair
  obtain ⟨t2, ht2, hh2⟩ := h.byConid.insert uint16Comparator_eq_zero_iff hid
  have hall : ∀ {p : Nat → Prop}, (∀ m ∈ o.connectionsList, p m) → p n → ∀ m ∈ o.connectionsList ++ [n], p m := fun h1 h2 =>
    List.forall_mem_append.mpr ⟨h1, List.forall_mem_singleton.mpr h2⟩
  refine ⟨t1, t2, ht1, ht2, ?_⟩
  exact {
    max_pos := h.max_pos
    max_le := h.max_le
    mtu := h.mtu
    nodup := List.nodup_append.mpr ⟨h.nodup, List.nodup_singleton n, fun a ha b hb hab => by
      rw [List.mem_singleton] at hb
      exact hn (hb ▸ hab ▸ ha)⟩
    byConaddr := hh1
    byConid := hh2
    conaddr_inj := Index.inj_append h.conaddr_inj hpair
    conid_inj := Index.inj_append h.conid_inj hid
    conid_lt := hall h.conid_lt hlt
    remote_ip := hall h.remote_ip hip
    num := by
      dsimp only
      rw [List.length_append, List.length_singleton, h.num]
    num_le := hroom
    next_lt := h.next_lt
    fresh := hall h.fresh hfresh }

/-- Where it does not fail, `connection_init` makes a connection with a free id, not yet ready to send, and schedules its jobs. -/
theorem connectionInit_spec (h : Tables o) (hroom : o.numConnections < o.maxConnections) {conaddr : ConAddr}
    (hip : conaddr.remoteAddr.IsIp) (hnone : o.findConnectionByConaddr conaddr = none) {data : Bytes}
    (hd : data.length ≤ o.udpMtu) (flags : UInt8) :
    ∃ o' conid, o.connectionInit conaddr flags data true true = .ok (o', [.bind conid conaddr]) ∧ Tables o' ∧
      o'.udpMtu = o.udpMtu ∧ o'.maxConnections = o.maxConnections ∧
      o'.connectionsList = o.connectionsList ++ [o.nextCon] ∧ o'.mem o.nextCon = ⟨conaddr, flags, data, conid, false⟩ ∧
      (∀ m ∈ o.connectionsList, o'.mem m = o.mem m ∧ (o.mem m).conid ≠ conid) ∧
      o'.pending = .outputHandlerRecv o.nextCon :: .connectionFirstJobHandler o.nextCon :: o.pending := by
  obtain ⟨k, hk, hrun, hfree⟩ := findUnusedConid_spec h hroom
  have hid := h.findConid_none.mp hfree
  have hpair := h.findConaddr_none.mp hnone
  let o1 : UdpGwClient := { o with nextConid := k }
  have hs1 : SameTables o o1 := { SameTables.refl o with next := fun _ => hk }
  have h1 : Tables o1 := hs1.tables h
  let c : UdpGwConnection := ⟨conaddr, flags, data, UInt16.ofNat k, false⟩
  have h2 : Tables (o1.allocated c) := (h1.same_allocated c).tables h1
  have hc : (o1.allocated c).mem o.nextCon = c := allocated_self o1 c
  have hm : ∀ m ∈ o.connectionsList, (o1.allocated c).mem m = o.mem m := fun m hm => h1.allocated_mem c hm
  have hklt : (UInt16.ofNat k).toNat < o.maxConnections := by
    rw [UInt16.toNat_ofNat_of_lt' (Nat.lt_of_lt_of_le hk h.max_le)]
    exact hk
  obtain ⟨t1, t2, ht1, ht2, htab⟩ := tables_created (n := o.nextCon) h2 hroom (fun hin => h.ne_nextCon hin rfl) (Nat.lt_succ_self _)
    (by rw [hc]; exact hip) (by rw [hc]; exact hklt)
    (fun m hin => by rw [hc, hm m hin]; exact hpair m hin) (fun m hin => by rw [hc, hm m hin]; exact hid m hin)
    (.outputHandlerRecv o.nextCon :: .connectionFirstJobHandler o.nextCon :: o.pending)
  refine ⟨_, UInt16.ofNat k, ?_, htab, rfl, rfl, rfl, hc, fun m hin => ⟨hm m hin, hid m hin⟩, rfl⟩
  unfold connectionInit
  rw [if_neg (not_not.mpr hroom), if_neg (by rw [hnone]; exact Bool.false_ne_true), if_neg (Nat.not_lt.mpr hd),
    if_neg (by decide), hrun]
  dsimp only
  rw [if_neg (by decide)]
  unfold allocated at ht1 ht2
  dsimp only at ht1 ht2
  rw [ht1]
  dsimp only
  rw [ht2]
  rfl

/-- Where `malloc` or `PacketProtoFlow_Init` fails, `connection_init` leaves the containers as they are. -/
theorem connectionInit_failed (h : Tables o) (hroom : o.numConnections < o.maxConnections) {conaddr : ConAddr}
    (hnone : o.findConnectionByConaddr conaddr = none) {data : Bytes} (hd : data.length ≤ o.udpMtu) (flags : UInt8)
    {mallocOk flowOk : Bool} (hf : mallocOk = false ∨ flowOk = false) :
    ∃ o', o.connectionInit conaddr flags data mallocOk flowOk = .ok (o', []) ∧ SameTables o o' ∧ o'.pending = o.pending := by
  unfold connectionInit
  rw [if_neg (not_not.mpr hroom), if_neg (by rw [hnone]; exact Bool.false_ne_true), if_neg (Nat.not_lt.mpr hd)]
  cases mallocOk with
  | false => exact ⟨o, rfl, SameTables.refl o, rfl⟩
  | true =>
    obtain rfl : flowOk = false := hf.resolve_left Bool.noConfusion
    obtain ⟨k, hk, hrun, -⟩ := findUnusedConid_spec h hroom
    rw [hrun]
    have hs1 : SameTables o { o with nextConid := k } := { SameTables.refl o with next := fun _ => hk }
    exact ⟨_, rfl, hs1.trans ((hs1.tables h).same_allocated _), rfl⟩

/-- `connection_free` takes a connection out of the three containers. -/
theorem tables_connectionFree (h : Tables o) {n : Nat} (hn : n ∈ o.connectionsList) : Tables (o.connectionFree n) where
  max_pos := h.max_pos
  max_le := h.max_le
  mtu := h.mtu
  nodup := h.nodup.erase n
  byConaddr := h.byConaddr.remove h.nodup n
  byConid := h.byConid.remove h.nodup n
  conaddr_inj := fun a ha b hb => h.conaddr_inj a (List.mem_of_mem_erase ha) b (List.mem_of_mem_erase hb)
  conid_inj := fun a ha b hb => h.conid_inj a (List.mem_of_mem_erase ha) b (List.mem_of_mem_erase hb)
  conid_lt := fun a ha => h.conid_lt a (List.mem_of_mem_erase ha)
  remote_ip := fun a ha => h.remote_ip a (List.mem_of_mem_erase ha)
  num := by
    unfold connectionFree
    rw [List.length_erase_of_mem hn, h.num]
  num_le := Nat.le_trans (Nat.sub_le _ _) h.num_le
  next_lt := h.next_lt
  fresh := fun a ha => h.fresh a (List.mem_of_mem_erase ha)

end UdpGwClient

end PsiphonAndroid
