import Mathlib
import PsiphonAndroid.Theorems.ConnectionTables
import PsiphonAndroid.UdpGw.Trees

/-!
# The connection tables in their trees

The client of `UdpGwClient.c` together with the memory of its two AVL trees. Every event makes the calls on the trees that
`connection_init` and `reuse_connection` make, with the keys the connections have at that moment; a connection that `malloc` has
given is a block of a memory of `m + 1` blocks.
-/

namespace PsiphonAndroid

open Lib

/-! ## Calls on the tables -/

/-- A call on other addresses. -/
def AvlCall.map {P Q K : Type} (f : P → Q) : AvlCall P K → AvlCall Q K
  | .insert n v => .insert (f n) v
  | .remove n => .remove (f n)

/-- The calls on a tree, one after another. -/
def AvlTable.run {P K : Type} [DecidableEq P] [Fintype P] (cmp : K → K → Int) (s : AvlTable P K) (calls : List (AvlCall P K)) :
    AvlTable P K := calls.foldl (AvlTable.step cmp) s

/-- The block of a connection. -/
def blockOf (m n : Nat) : Fin (m + 1) := Fin.ofNat (m + 1) n

namespace ConnectionTreesAux

/-- What a call does to the table. -/
def apply {K N : Type} [DecidableEq N] (cmp : K → K → Int) (t : Index K N) : AvlCall N K → Index K N
  | .insert n v => (t.insert cmp v n).getD t
  | .remove n => t.remove n

/-- Every call keeps the rules where it comes. -/
def AllowedAll {K N : Type} [DecidableEq N] (cmp : K → K → Int) : Index K N → List (AvlCall N K) → Prop
  | _, [] => True
  | t, .insert n v :: calls => n ∉ t.entries.map Prod.snd ∧ AllowedAll cmp (apply cmp t (.insert n v)) calls
  | t, .remove n :: calls => n ∈ t.entries.map Prod.snd ∧ AllowedAll cmp (apply cmp t (.remove n)) calls

/-- The node of a call. -/
def node {K N : Type} : AvlCall N K → N
  | .insert n _ => n
  | .remove n => n

/-- The table of the same entries at other addresses. -/
def mapNodes {K N N' : Type} (f : N → N') (t : Index K N) : Index K N' := ⟨t.entries.map fun e => (e.1, f e.2)⟩

variable {K : Type} {cmp : K → K → Int} {m : Nat}

/-- Looking up finds the same entry at its other address. -/
theorem lookup_mapNodes {N N' : Type} (f : N → N') (t : Index K N) (k : K) :
    (mapNodes f t).lookup cmp k = (t.lookup cmp k).map f := by
  simp only [Index.lookup, mapNodes, List.find?_map, Option.map_map]
  rfl

/-- Inserting at other addresses. -/
theorem insert_mapNodes {N N' : Type} (f : N → N') (t : Index K N) (k : K) (n : N) :
    (mapNodes f t).insert cmp k (f n) = (t.insert cmp k n).map (mapNodes f) := by
  rw [Index.insert, Index.insert, lookup_mapNodes]
  cases t.lookup cmp k with
  | none => simp [mapNodes]
  | some c => rfl

/-- Connections within the memory have different blocks. -/
theorem blockOf_inj {a b : Nat} (ha : a ≤ m) (hb : b ≤ m) (h : blockOf m a = blockOf m b) : a = b := by
  have := congrArg Fin.val h
  simp only [blockOf, Fin.val_ofNat] at this
  rwa [Nat.mod_eq_of_lt (by omega), Nat.mod_eq_of_lt (by omega)] at this

/-- Removing at other addresses, as long as these are different. -/
theorem remove_mapNodes {t : Index K Nat} {n : Nat} (ht : ∀ c ∈ t.entries.map Prod.snd, c ≤ m) (hn : n ≤ m) :
    (mapNodes (blockOf m) t).remove (blockOf m n) = mapNodes (blockOf m) (t.remove n) := by
  simp only [Index.remove, mapNodes, List.filter_map, Index.mk.injEq]
  congr 1
  refine List.filter_congr fun e he => ?_
  have hiff : blockOf m e.2 = blockOf m n ↔ e.2 = n :=
    ⟨blockOf_inj (ht _ (List.mem_map.2 ⟨e, he, rfl⟩)) hn, fun h => by rw [h]⟩
  simp [hiff]

/-- A connection is in the table where its block is. -/
theorem mem_mapNodes {t : Index K Nat} {n : Nat} (ht : ∀ c ∈ t.entries.map Prod.snd, c ≤ m) (hn : n ≤ m) :
    blockOf m n ∈ (mapNodes (blockOf m) t).entries.map Prod.snd ↔ n ∈ t.entries.map Prod.snd := by
  simp only [mapNodes, List.map_map, List.mem_map, Function.comp_apply]
  constructor
  · rintro ⟨e, he, hb⟩
    exact ⟨e, he, blockOf_inj (ht _ (List.mem_map.2 ⟨e, he, rfl⟩)) hn hb⟩
  · rintro ⟨e, he, rfl⟩
    exact ⟨e, he, rfl⟩

/-- A call on a connection within the memory stays within it. -/
theorem bounded_apply {t : Index K Nat} (ht : ∀ c ∈ t.entries.map Prod.snd, c ≤ m) (call : AvlCall Nat K) (hn : node call ≤ m) :
    ∀ c ∈ (apply cmp t call).entries.map Prod.snd, c ≤ m := by
  intro c hc
  cases call with
  | insert n v =>
    simp only [apply, Index.insert] at hc
    cases hl : t.lookup cmp v with
    | none =>
      rw [hl] at hc
      simp only [Option.getD_some, List.map_append, List.mem_append, List.map_cons, List.map_nil, List.mem_singleton] at hc
      rcases hc with hc | rfl
      · exact ht c hc
      · exact hn
    | some d =>
      rw [hl] at hc
      exact ht c hc
  | remove n =>
    simp only [apply, Index.remove, List.mem_map, List.mem_filter] at hc
    obtain ⟨e, ⟨he, -⟩, rfl⟩ := hc
    exact ht _ (List.mem_map.2 ⟨e, he, rfl⟩)

/-- A call that keeps the rules of the table keeps those of the tree, and the tree follows the table. -/
theorem call_follows {a : AvlTable (Fin (m + 1)) K} {t : Index K Nat} {call : AvlCall Nat K} {calls : List (AvlCall Nat K)}
    (hi : a.index = mapNodes (blockOf m) t) (ht : ∀ c ∈ t.entries.map Prod.snd, c ≤ m) (hn : node call ≤ m)
    (hok : AllowedAll cmp t (call :: calls)) :
    a.Allowed (call.map (blockOf m)) ∧ (a.step cmp (call.map (blockOf m))).index = mapNodes (blockOf m) (apply cmp t call) ∧
      AllowedAll cmp (apply cmp t call) calls := by
  cases call with
  | insert n v =>
    replace hn : n ≤ m := hn
    refine ⟨?_, ?_, hok.2⟩
    · show blockOf m n ∉ a.index.entries.map Prod.snd
      rw [hi, mem_mapNodes ht hn]
      exact hok.1
    · show (a.index.insert cmp v (blockOf m n)).getD a.index = _
      rw [hi, insert_mapNodes, apply]
      cases t.insert cmp v n <;> rfl
  | remove n =>
    replace hn : n ≤ m := hn
    refine ⟨?_, ?_, hok.2⟩
    · show blockOf m n ∈ a.index.entries.map Prod.snd
      rw [hi, mem_mapNodes ht hn]
      exact hok.1
    · show a.index.remove (blockOf m n) = _
      rw [hi, remove_mapNodes ht hn]
      rfl

/-- The trees follow the tables through calls that keep the rules. -/
theorem run_sound (hc : Comparator cmp) {a : AvlTable (Fin (m + 1)) K} {t : Index K Nat} {calls : List (AvlCall Nat K)}
    (hs : a.Sound cmp) (hi : a.index = mapNodes (blockOf m) t) (ht : ∀ c ∈ t.entries.map Prod.snd, c ≤ m)
    (hb : ∀ c ∈ calls, node c ≤ m) (hok : AllowedAll cmp t calls) :
    (a.run cmp (calls.map (AvlCall.map (blockOf m)))).Sound cmp ∧
      (a.run cmp (calls.map (AvlCall.map (blockOf m)))).index = mapNodes (blockOf m) (calls.foldl (apply cmp) t) ∧
      (AvlTable.system cmp).execWhere AvlTable.Allowed a (calls.map (AvlCall.map (blockOf m))) =
        some (a.run cmp (calls.map (AvlCall.map (blockOf m)))) := by
  induction calls generalizing a t with
  | nil => exact ⟨hs, hi, rfl⟩
  | cons call calls ih =>
    have hn : node call ≤ m := hb call (by simp)
    obtain ⟨hstep, hidx, hok'⟩ := call_follows hi ht hn hok
    obtain ⟨r1, r2, r3⟩ := ih (AvlTable.sound_step hc hs _ hstep) hidx (bounded_apply ht _ hn) (fun c hc' => hb c (by simp [hc'])) hok'
    exact ⟨r1, r2, (if_pos hstep).trans r3⟩

end ConnectionTreesAux

/-! ## The calls of an event -/

namespace UdpGwClient

/-- The calls an event makes on `connections_tree_by_conaddr`: `reuse_connection` takes the first connection of the list out and puts
it back under the new pair, and `connection_init` puts a new connection in. -/
def callsByConaddr (o : UdpGwClient) : UdpGwEvent → List (AvlCall Nat ConAddr)
  | .submit localAddr remoteAddr _ _ mallocOk flowOk =>
    if (o.findConnectionByConaddr ⟨localAddr, remoteAddr⟩).isSome then []
    else if o.numConnections = o.maxConnections then
      o.connectionsList.head?.toList.flatMap fun con => [.remove con, .insert con ⟨localAddr, remoteAddr⟩]
    else if mallocOk && flowOk then [.insert o.nextCon ⟨localAddr, remoteAddr⟩] else []
  | _ => []

/-- The calls an event makes on `connections_tree_by_conid`: only a new connection gets an id. -/
def callsByConid (o : UdpGwClient) : UdpGwEvent → List (AvlCall Nat UInt16)
  | .submit localAddr remoteAddr _ _ mallocOk flowOk =>
    if (o.findConnectionByConaddr ⟨localAddr, remoteAddr⟩).isSome then []
    else if o.numConnections = o.maxConnections then []
    else if mallocOk && flowOk then o.findUnusedConid.toOption.toList.map fun r => .insert o.nextCon r.2 else []
  | _ => []

/-- The two tables, and the block `malloc` gives next. -/
def keys (o : UdpGwClient) : Index ConAddr Nat × Index UInt16 Nat × Nat :=
  (o.connectionsTreeByConaddr, o.connectionsTreeByConid, o.nextCon)

variable {o o' : UdpGwClient} {acts : List UdpGwAct}

/-- Sending a frame leaves the tables alone. -/
theorem keys_connectionSend {n : Nat} {flags : UInt8} {data : Bytes} (h : o.connectionSend n flags data = .ok (o', acts)) :
    o'.keys = o.keys := by
  unfold connectionSend at h
  split at h
  · cases h
  · split at h
    · cases h
      rfl
    · dsimp only at h
      split at h
      · cases h
      · cases h
        rfl

/-- A buffer with room again leaves the tables alone. -/
theorem keys_outputHandlerRecv {n : Nat} (h : o.outputHandlerRecv n = .ok (o', acts)) : o'.keys = o.keys := by
  unfold outputHandlerRecv at h
  split at h
  · cases h
  · cases h
    rfl

/-- The pending jobs leave the tables alone. -/
theorem keys_executeAll {jobs : List UdpGwJob} (h : executeAll o jobs = .ok (o', acts)) : o'.keys = o.keys := by
  induction jobs generalizing o acts with
  | nil =>
    cases h
    rfl
  | cons job jobs ih =>
    unfold executeAll andThen at h
    split at h
    · cases h
    · rename_i o1 acts1 h1
      split at h
      · cases h
      · rename_i o2 acts2 h2
        cases h
        refine (ih h2).trans ?_
        cases job with
        | outputHandlerRecv n => exact keys_outputHandlerRecv h1
        | connectionFirstJobHandler n => exact keys_connectionSend h1

/-- So they do when all of them are run. -/
theorem keys_executeJobs (h : o.executeJobs = .ok (o', acts)) : o'.keys = o.keys := by
  unfold executeJobs at h
  exact (keys_executeAll h).trans rfl

/-- Running the scheduled jobs after a call leaves the tables as the call left them. -/
theorem keys_andThen {r : Outcome} {f : UdpGwClient → Outcome} (h : andThen r f = .ok (o', acts))
    (hf : ∀ {o1 o2 a}, f o1 = .ok (o2, a) → o2.keys = o1.keys) : ∃ o1 acts1, r = .ok (o1, acts1) ∧ o'.keys = o1.keys := by
  unfold andThen at h
  split at h
  · cases h
  · rename_i o1 acts1
    split at h
    · cases h
    · rename_i o2 acts2 h2
      cases h
      exact ⟨o1, acts1, rfl, hf h2⟩

/-- The search for an id only counts on. -/
theorem keys_findUnusedConidLoop {fuel : Nat} {conid : UInt16} (h : findUnusedConidLoop fuel o = .ok (o', conid)) :
    o'.keys = o.keys := by
  induction fuel generalizing o with
  | zero => cases h
  | succ fuel ih =>
    rw [findUnusedConidLoop] at h
    split at h
    · cases h
      rfl
    · exact (ih h).trans rfl

/-- So does the whole search. -/
theorem keys_findUnusedConid {conid : UInt16} (h : o.findUnusedConid = .ok (o', conid)) : o'.keys = o.keys := by
  unfold findUnusedConid at h
  split at h
  · exact keys_findUnusedConidLoop h
  · cases h

/-- `reuse_connection` takes the first connection of the list out of the tree and puts it back under the new pair. -/
theorem keys_reuseConnection {conaddr : ConAddr} {n : Nat} (h : o.reuseConnection conaddr = .ok (o', n)) :
    o.connectionsList.head? = some n ∧
      ∃ t, (o.connectionsTreeByConaddr.remove n).insert conaddrComparator conaddr n = some t ∧
        o'.keys = (t, o.connectionsTreeByConid, o.nextCon) := by
  unfold reuseConnection at h
  split at h
  · cases h
  · split at h
    · cases h
    · split at h
      · cases h
      · rename_i con rest hl
        dsimp only at h
        split at h
        · cases h
        · rename_i t ht
          cases h
          rw [Function.update_self] at ht
          exact ⟨by rw [hl]; rfl, t, ht, rfl⟩

/-- `connection_init` puts a connection in where nothing fails, and leaves the tables else. -/
theorem keys_connectionInit {conaddr : ConAddr} {flags : UInt8} {data : Bytes} {mallocOk flowOk : Bool}
    (h : o.connectionInit conaddr flags data mallocOk flowOk = .ok (o', acts)) :
    (mallocOk && flowOk) = true ∧ (∃ o1 conid t1 t2, o.findUnusedConid = .ok (o1, conid) ∧
        o.connectionsTreeByConaddr.insert conaddrComparator conaddr o.nextCon = some t1 ∧
        o.connectionsTreeByConid.insert uint16Comparator conid o.nextCon = some t2 ∧ o'.keys = (t1, t2, o.nextCon + 1)) ∨
      (mallocOk && flowOk) = false ∧ ∃ k, o.nextCon ≤ k ∧ o'.keys = (o.connectionsTreeByConaddr, o.connectionsTreeByConid, k) := by
  unfold connectionInit at h
  split at h
  · cases h
  · split at h
    · cases h
    · split at h
      · cases h
      · cases mallocOk with
        | false =>
          cases h
          exact .inr ⟨rfl, _, Nat.le_refl _, rfl⟩
        | true =>
          rw [if_neg (by decide)] at h
          split at h
          · cases h
          · rename_i o1 conid hfree
            have hk := keys_findUnusedConid hfree
            obtain ⟨k1, k2, k3⟩ : o1.connectionsTreeByConaddr = o.connectionsTreeByConaddr ∧
                o1.connectionsTreeByConid = o.connectionsTreeByConid ∧ o1.nextCon = o.nextCon := by
              simpa [keys] using hk
            dsimp only at h
            cases flowOk with
            | false =>
              cases h
              exact .inr ⟨rfl, o1.nextCon + 1, by omega, by simp [keys, k1, k2]⟩
            | true =>
              rw [if_neg (by decide)] at h
              split at h
              · cases h
              · rename_i t1 ht1
                split at h
                · cases h
                · rename_i t2 ht2
                  cases h
                  rw [Function.update_self] at ht1 ht2
                  dsimp only at ht1 ht2
                  rw [k1, k3] at ht1
                  rw [k2, k3] at ht2
                  exact .inl ⟨rfl, o1, conid, t1, t2, hfree, ht1, ht2, by simp [keys, k3]⟩

end UdpGwClient

namespace ConnectionTreesAux

open UdpGwClient

/-- The tables of `o'` are those of `o` after the calls of the event, which keep the rules. -/
structure Followed (o : UdpGwClient) (e : UdpGwEvent) (o' : UdpGwClient) : Prop where
  conaddr : o'.connectionsTreeByConaddr = (o.callsByConaddr e).foldl (apply conaddrComparator) o.connectionsTreeByConaddr
  conid : o'.connectionsTreeByConid = (o.callsByConid e).foldl (apply uint16Comparator) o.connectionsTreeByConid
  nextCon : o.nextCon ≤ o'.nextCon
  allowedConaddr : AllowedAll conaddrComparator o.connectionsTreeByConaddr (o.callsByConaddr e)
  allowedConid : AllowedAll uint16Comparator o.connectionsTreeByConid (o.callsByConid e)
  boundConaddr : ∀ c ∈ o.callsByConaddr e, node c < o'.nextCon
  boundConid : ∀ c ∈ o.callsByConid e, node c < o'.nextCon

variable {o o' : UdpGwClient} {e : UdpGwEvent} {acts : List UdpGwAct}

/-- An event without calls. -/
theorem followed_quiet {k : Nat} (hk : o'.keys = (o.connectionsTreeByConaddr, o.connectionsTreeByConid, k)) (hle : o.nextCon ≤ k)
    (h1 : o.callsByConaddr e = []) (h2 : o.callsByConid e = []) : Followed o e o' := by
  obtain ⟨k1, k2, k3⟩ : o'.connectionsTreeByConaddr = o.connectionsTreeByConaddr ∧
      o'.connectionsTreeByConid = o.connectionsTreeByConid ∧ o'.nextCon = k := by simpa [keys] using hk
  refine ⟨?_, ?_, by omega, ?_, ?_, ?_, ?_⟩
  · rw [h1]
    exact k1
  · rw [h2]
    exact k2
  · rw [h1]
    trivial
  · rw [h2]
    trivial
  · rw [h1]
    simp
  · rw [h2]
    simp

/-- A packet of the server leaves the tables alone. -/
theorem keys_receive {data : Bytes} (h : o.recvInterfaceHandlerSend data = .ok (o', acts)) : o'.keys = o.keys := by
  unfold recvInterfaceHandlerSend at h
  split at h
  · cases h
  · split at h
    · cases h
    · split at h
      · cases h
        rfl
      · split at h
        · cases h
          rfl
        · split at h
          · cases h
            rfl
          · split at h
            · cases h
              rfl
            · split at h
              · cases h
                rfl
              · cases h
                rfl

/-- A submit. -/
theorem followed_submit (h : Tables o) {l r : BAddr} {isDns : Bool} {data : Bytes} {mallocOk flowOk : Bool} {o1 : UdpGwClient}
    (hs : o.submitPacket l r isDns data mallocOk flowOk = .ok (o1, acts)) (hk : o'.keys = o1.keys) :
    Followed o (.submit l r isDns data mallocOk flowOk) o' := by
  have hnodes : ∀ c, c ∈ o.connectionsTreeByConaddr.entries.map Prod.snd ↔ c ∈ o.connectionsList := fun c => h.byConaddr.nodes.mem_iff
  have hids : ∀ c, c ∈ o.connectionsTreeByConid.entries.map Prod.snd ↔ c ∈ o.connectionsList := fun c => h.byConid.nodes.mem_iff
  unfold submitPacket at hs
  split at hs
  · cases hs
  · dsimp only at hs
    split at hs
    · rename_i con hf
      have hk' : o'.keys = o.keys := hk.trans ((keys_connectionSend hs).trans rfl)
      exact followed_quiet hk' (Nat.le_refl _) (by simp [callsByConaddr, hf]) (by simp [callsByConid, hf])
    · rename_i hf
      split at hs
      · rename_i hfull
        split at hs
        · cases hs
        · rename_i o2 con hreuse
          obtain ⟨hhead, t, ht, hk2⟩ := keys_reuseConnection hreuse
          obtain ⟨o3, acts3, h3, hk3⟩ := keys_andThen hs fun hsend => (keys_connectionSend hsend).trans rfl
          cases h3
          have hk' := hk.trans (hk3.trans hk2)
          obtain ⟨k1, k2, k3⟩ : o'.connectionsTreeByConaddr = t ∧ o'.connectionsTreeByConid = o.connectionsTreeByConid ∧
              o'.nextCon = o.nextCon := by simpa [keys] using hk'
          have hin : con ∈ o.connectionsList := List.mem_of_mem_head? hhead
          have hlt := h.fresh con hin
          have hcalls : o.callsByConaddr (.submit l r isDns data mallocOk flowOk) = [.remove con, .insert con ⟨l, r⟩] := by
            simp [callsByConaddr, hf, hfull, hhead]
          have hnone : o.callsByConid (.submit l r isDns data mallocOk flowOk) = [] := by simp [callsByConid, hf, hfull]
          refine ⟨?_, ?_, by omega, ?_, ?_, ?_, ?_⟩
          · rw [hcalls, k1]
            simp [apply, ht]
          · rw [hnone]
            exact k2
          · rw [hcalls]
            refine ⟨(hnodes con).2 hin, ?_, trivial⟩
            simp [apply, Index.remove]
          · rw [hnone]
            trivial
          · rw [hcalls]
            simp [node, k3, hlt]
          · rw [hnone]
            simp
      · rename_i hroom
        rcases keys_connectionInit hs with ⟨hok, o2, conid, t1, t2, hfree, ht1, ht2, hk2⟩ | ⟨hfail, k, hle, hk2⟩
        · have hk' := hk.trans hk2
          obtain ⟨k1, k2, k3⟩ : o'.connectionsTreeByConaddr = t1 ∧ o'.connectionsTreeByConid = t2 ∧ o'.nextCon = o.nextCon + 1 := by
            simpa [keys] using hk'
          have hout : o.nextCon ∉ o.connectionsList := fun hin => Nat.lt_irrefl _ (h.fresh _ hin)
          have hcalls : o.callsByConaddr (.submit l r isDns data mallocOk flowOk) = [.insert o.nextCon ⟨l, r⟩] := by
            simp only [callsByConaddr, hf, hroom, hok, Option.isSome_none, Bool.false_eq_true, if_false, if_true]
          have hcalls' : o.callsByConid (.submit l r isDns data mallocOk flowOk) = [.insert o.nextCon conid] := by
            simp only [callsByConid, hf, hroom, hok, hfree, Option.isSome_none, Bool.false_eq_true, if_false, if_true]
            rfl
          refine ⟨?_, ?_, by omega, ?_, ?_, ?_, ?_⟩
          · rw [hcalls, k1]
            simp [apply, ht1]
          · rw [hcalls', k2]
            simp [apply, ht2]
          · rw [hcalls]
            exact ⟨fun hin => hout ((hnodes _).1 hin), trivial⟩
          · rw [hcalls']
            exact ⟨fun hin => hout ((hids _).1 hin), trivial⟩
          · rw [hcalls]
            simp [node, k3]
          · rw [hcalls']
            simp [node, k3]
        · refine followed_quiet (hk.trans hk2) hle ?_ ?_
          · simp only [callsByConaddr, hf, hroom, hfail, Option.isSome_none, Bool.false_eq_true, if_false]
          · simp only [callsByConid, hf, hroom, hfail, Option.isSome_none, Bool.false_eq_true, if_false]

/-- Every event. -/
theorem followed_step (h : Tables o) (hr : o.step e = some (.ok (o', acts))) : Followed o e o' := by
  cases e with
  | submit l r isDns data mallocOk flowOk =>
    rw [step, Option.ite_none_right_eq_some] at hr
    obtain ⟨o1, acts1, hs, hk⟩ := keys_andThen (Option.some.inj hr.2) fun hj => keys_executeJobs hj
    exact followed_submit h hs hk
  | receive data =>
    rw [step, Option.ite_none_right_eq_some] at hr
    exact followed_quiet (keys_receive (Option.some.inj hr.2)) (Nat.le_refl _) rfl rfl
  | bufferReady n =>
    rw [step, Option.ite_none_right_eq_some] at hr
    exact followed_quiet (keys_outputHandlerRecv (Option.some.inj hr.2)) (Nat.le_refl _) rfl rfl
  | connect decoderOk =>
    simp only [step, connectServer] at hr
    split at hr
    · cases hr
    · cases decoderOk with
      | false =>
        cases hr
        exact followed_quiet rfl (Nat.le_refl _) rfl rfl
      | true =>
        cases hr
        exact followed_quiet rfl (Nat.le_refl _) rfl rfl
  | disconnect =>
    simp only [step, disconnectServer] at hr
    split at hr
    · rename_i hserver
      rw [hserver] at hr
      cases hr
      exact followed_quiet rfl (Nat.le_refl _) rfl rfl
    · cases hr

end ConnectionTreesAux

/-! ## The client with its trees -/

/-- The client and the memory of its two trees. -/
structure ClientWithTrees (m : Nat) where
  client : Except UdpGwFault TrackedClient
  byConaddr : AvlTable (Fin (m + 1)) ConAddr
  byConid : AvlTable (Fin (m + 1)) UInt16

/-- The client under every sequence of events, with the calls on its trees. -/
def treeClientSystem (m udpMtu maxConnections : Nat) : System (ClientWithTrees m) UdpGwEvent where
  init s := (clientSystem udpMtu maxConnections).init s.client ∧ (AvlTable.system conaddrComparator).init s.byConaddr ∧
    (AvlTable.system uint16Comparator).init s.byConid
  step s e :=
    match s.client with
    | .error _ => none
    | .ok t => ((clientSystem udpMtu maxConnections).step (.ok t) e).map fun client =>
      { client := client
        byConaddr := s.byConaddr.run conaddrComparator ((t.client.callsByConaddr e).map (AvlCall.map (blockOf m)))
        byConid := s.byConid.run uint16Comparator ((t.client.callsByConid e).map (AvlCall.map (blockOf m))) }

/-- Each call that the event makes on a tree comes where the tree's callers may make it, and the calls lead to the trees of `s'`. -/
def ClientWithTrees.CallsAllowed {m : Nat} (s : ClientWithTrees m) (t : TrackedClient) (e : UdpGwEvent) (s' : ClientWithTrees m) : Prop :=
  (AvlTable.system conaddrComparator).execWhere AvlTable.Allowed s.byConaddr
    ((t.client.callsByConaddr e).map (AvlCall.map (blockOf m))) = some s'.byConaddr ∧
  (AvlTable.system uint16Comparator).execWhere AvlTable.Allowed s.byConid
    ((t.client.callsByConid e).map (AvlCall.map (blockOf m))) = some s'.byConid

namespace ConnectionTreesAux

open UdpGwClient ConnectionTablesAux

/-- A tree stands for a table of the client, at the blocks of the connections. -/
def Mirrors {K : Type} (m : Nat) (cmp : K → K → Int) (a : AvlTable (Fin (m + 1)) K) (t : Index K Nat) : Prop :=
  a.Sound cmp ∧ a.index = mapNodes (blockOf m) t

/-- A tree that stands for a table passes its check and finds what the table has. -/
theorem Mirrors.agrees {K : Type} {m : Nat} {cmp : K → K → Int} {a : AvlTable (Fin (m + 1)) K} {t : Index K Nat}
    (h : Mirrors m cmp a t) (hc : Comparator cmp) :
    ∃ o, a.tree = some o ∧ o.verify cmp = true ∧ ∀ k, o.lookupExact cmp k = some ((t.lookup cmp k).map (blockOf m)) := by
  obtain ⟨⟨o, b, ho, hb⟩, hi⟩ := h
  refine ⟨o, ho, BAVL.verify_spec hc hb.tree hb.ascending, fun k => ?_⟩
  rw [hb.lookupExact hc, hi, lookup_mapNodes]

/-- What holds of every reachable state. -/
def Inv (m udpMtu maxConnections : Nat) (s : ClientWithTrees m) : Prop :=
  ∃ t, s.client = .ok t ∧ Tracked udpMtu maxConnections t ∧ (t.client.nextCon ≤ m + 1 →
    Mirrors m conaddrComparator s.byConaddr t.client.connectionsTreeByConaddr ∧
      Mirrors m uint16Comparator s.byConid t.client.connectionsTreeByConid)

/-- An event keeps the invariant, and its calls keep the rules of the trees. -/
theorem inv_step {m udpMtu maxConnections : Nat} {s s' : ClientWithTrees m} {e : UdpGwEvent} (h : Inv m udpMtu maxConnections s)
    (hstep : (treeClientSystem m udpMtu maxConnections).step s e = some s') :
    Inv m udpMtu maxConnections s' ∧ ∀ t t', s.client = .ok t → s'.client = .ok t' → t'.client.nextCon ≤ m + 1 →
      s.CallsAllowed t e s' := by
  obtain ⟨t, ht, htr, hm⟩ := h
  simp only [treeClientSystem, ht, Option.map_eq_some_iff] at hstep
  obtain ⟨client, hclient, rfl⟩ := hstep
  unfold clientSystem at hclient
  dsimp only at hclient
  rw [Option.map_eq_some_iff] at hclient
  obtain ⟨r, hr, rfl⟩ := hclient
  obtain ⟨o', acts, rfl, htab, hp, hmtu, hmax, he⟩ := step_effect htr.tables htr.pending hr
  have hf := followed_step htr.tables hr
  suffices hboth : o'.nextCon ≤ m + 1 →
      (Mirrors m conaddrComparator (s.byConaddr.run _ _) o'.connectionsTreeByConaddr ∧
        Mirrors m uint16Comparator (s.byConid.run _ _) o'.connectionsTreeByConid) ∧ s.CallsAllowed t e ⟨_, _, _⟩ by
    refine ⟨⟨t.after o' e acts, rfl, tracked_after htr htab hp hmtu hmax he, fun hle => (hboth hle).1⟩, ?_⟩
    rintro t1 t2 h1 h2 hle
    obtain rfl := Except.ok.inj (ht.symm.trans h1)
    obtain rfl := Except.ok.inj h2
    exact (hboth hle).2
  intro hle
  obtain ⟨⟨s1, i1⟩, s2, i2⟩ := hm (Nat.le_trans hf.nextCon hle)
  have hb : ∀ c ∈ t.client.connectionsList, c ≤ m := fun c hc => by
    have := htr.tables.fresh c hc
    have := hf.nextCon
    omega
  have hb1 : ∀ c ∈ t.client.connectionsTreeByConaddr.entries.map Prod.snd, c ≤ m := fun c hc =>
    hb c (htr.tables.byConaddr.nodes.mem_iff.1 hc)
  have hb2 : ∀ c ∈ t.client.connectionsTreeByConid.entries.map Prod.snd, c ≤ m := fun c hc =>
    hb c (htr.tables.byConid.nodes.mem_iff.1 hc)
  have r1 := run_sound conaddrComparator_comparator s1 i1 hb1 (fun c hc => by have := hf.boundConaddr c hc; omega) hf.allowedConaddr
  have r2 := run_sound uint16Comparator_comparator s2 i2 hb2 (fun c hc => by have := hf.boundConid c hc; omega) hf.allowedConid
  exact ⟨⟨⟨r1.1, r1.2.1.trans (congrArg _ hf.conaddr.symm)⟩, r2.1, r2.2.1.trans (congrArg _ hf.conid.symm)⟩, r1.2.2, r2.2.2⟩

/-- Two empty trees stand for the tables of a new client. -/
theorem inv_init {m udpMtu maxConnections : Nat} (hmax : 0 < maxConnections) {s : ClientWithTrees m}
    (h : (treeClientSystem m udpMtu maxConnections).init s) : Inv m udpMtu maxConnections s := by
  obtain ⟨h1, h2, h3⟩ := h
  refine ⟨_, h1, tracked_init udpMtu hmax, fun _ => ⟨⟨AvlTable.sound_init h2, ?_⟩, AvlTable.sound_init h3, ?_⟩⟩
  · obtain ⟨o, ho⟩ := h2
    rw [ho]
    rfl
  · obtain ⟨o, ho⟩ := h3
    rw [ho]
    rfl

end ConnectionTreesAux

open ConnectionTreesAux

/-- In every run of the client, for every `max_connections` and every sequence of submits (with any allocation failing), packets of
the server, buffers with room again, connects and disconnects, as long as the connections made so far have their own blocks:
1. both trees have come through all calls of `connection_init` and `reuse_connection`, they pass `BAVL_Verify`, and
   `BAVL_LookupExact` finds in them for every pair and for every id the connection that the tables have;
2. every call that the next event makes keeps the trees' rules: what it inserts is not in the tree, and what it removes is. -/
theorem connection_trees_follow {m udpMtu maxConnections : Nat} (hmax : 0 < maxConnections) {es : List UdpGwEvent}
    {s : ClientWithTrees m} (h : (treeClientSystem m udpMtu maxConnections).Run es s) :
    ∃ t, s.client = .ok t ∧
      (∀ e s' t', (treeClientSystem m udpMtu maxConnections).step s e = some s' → s'.client = .ok t' → t'.client.nextCon ≤ m + 1 →
        s.CallsAllowed t e s') ∧ (t.client.nextCon ≤ m + 1 →
      (∃ o, s.byConaddr.tree = some o ∧ o.verify conaddrComparator = true ∧ ∀ conaddr,
        o.lookupExact conaddrComparator conaddr = some ((t.client.findConnectionByConaddr conaddr).map (blockOf m))) ∧
      ∃ o, s.byConid.tree = some o ∧ o.verify uint16Comparator = true ∧ ∀ conid,
        o.lookupExact uint16Comparator conid = some ((t.client.findConnectionByConid conid).map (blockOf m))) := by
  have hinv : Inv m udpMtu maxConnections s := by
    refine h.invariant (fun _ s => Inv m udpMtu maxConnections s) (fun s hs => inv_init hmax hs) ?_
    intro es s e s' hs hstep
    exact (inv_step hs hstep).1
  obtain ⟨t, ht, -, hm⟩ := id hinv
  refine ⟨t, ht, fun e s' t' hstep ht' hle => (inv_step hinv hstep).2 t t' ht ht' hle, fun hle => ?_⟩
  obtain ⟨h1, h2⟩ := hm hle
  exact ⟨h1.agrees conaddrComparator_comparator, h2.agrees uint16Comparator_comparator⟩

namespace ConnectionTreesAux

/-- A client for one connection, before its first event. -/
def firstTrees : ClientWithTrees 1 where
  client := .ok ⟨UdpGwClient.init 100 1, 0, fun _ => 0⟩
  byConaddr := ⟨some (BAVL.init ⟨none, fun _ => ⟨none, fun _ => none, 0⟩, fun _ => ⟨.none, .none⟩⟩), .empty⟩
  byConid := ⟨some (BAVL.init ⟨none, fun _ => ⟨none, fun _ => none, 0⟩, fun _ => 0⟩), .empty⟩

/-- A connection is made. -/
def firstSubmit : UdpGwEvent := .submit (.ipv4 1 10) (.ipv4 2 53) true [7] true true

/-- It is taken over for a second pair. -/
def secondSubmit : UdpGwEvent := .submit (.ipv4 1 11) (.ipv4 2 53) true [8] true true

/-- The blocks given so far. -/
def blocksGiven (s : ClientWithTrees 1) : Option Nat := s.client.toOption.map fun t => t.client.nextCon

end ConnectionTreesAux

/-- The two submits, with one block for the connection: the second takes it out of its tree and puts it back. -/
theorem twoSubmits_follow : ∃ s1 t1 s t, (treeClientSystem 1 100 1).Run [firstSubmit] s1 ∧ s1.client = .ok t1 ∧
    (treeClientSystem 1 100 1).step s1 secondSubmit = some s ∧ s.client = .ok t ∧ s1.CallsAllowed t1 secondSubmit s ∧
    ∃ o, s.byConaddr.tree = some o ∧ o.verify conaddrComparator = true ∧ ∀ conaddr,
      o.lookupExact conaddrComparator conaddr = some ((t.client.findConnectionByConaddr conaddr).map (blockOf 1)) := by
  have he : ((treeClientSystem 1 100 1).exec firstTrees [firstSubmit, secondSubmit]).bind blocksGiven = some 1 := by decide +kernel
  rw [Option.bind_eq_some_iff] at he
  obtain ⟨s, hs, hn⟩ := he
  rw [System.exec, Option.bind_eq_some_iff] at hs
  obtain ⟨s1, h1, hs⟩ := hs
  rw [System.exec, Option.bind_eq_some_iff] at hs
  obtain ⟨_, h2, hs⟩ := hs
  obtain rfl := Option.some.inj hs
  have h0 : (treeClientSystem 1 100 1).Run [] firstTrees := .init ⟨rfl, ⟨_, rfl⟩, ⟨_, rfl⟩⟩
  have hrun1 : (treeClientSystem 1 100 1).Run [firstSubmit] s1 := h0.step h1
  have hrun : (treeClientSystem 1 100 1).Run [firstSubmit, secondSubmit] _ := hrun1.step h2
  obtain ⟨t1, ht1, hcalls, -⟩ := connection_trees_follow (by decide) hrun1
  obtain ⟨t, ht, -, hall⟩ := connection_trees_follow (by decide) hrun
  have hle : t.client.nextCon ≤ 1 + 1 := by
    simp only [blocksGiven, ht, Except.toOption, Option.map_some, Option.some.injEq] at hn
    omega
  exact ⟨s1, t1, _, t, hrun1, ht1, h2, ht, hcalls secondSubmit _ t h2 ht hle, (hall hle).1⟩

end PsiphonAndroid
