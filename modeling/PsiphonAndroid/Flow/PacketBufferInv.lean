import PsiphonAndroid.Flow.PacketBuffer

/-!
# The layout of the packet buffer

Where the packets lie. Either they are one run of blocks, with room for a packet of the MTU behind it, or they are a run up to `wrap` and
a run from the first block on, and `wrap` is where there was no such room any more. In both cases every packet starts where there was
room for one of the MTU, so there is always room for one behind the last packet, up to the packets themselves.
-/

namespace PsiphonAndroid

open Lib

namespace ChunkBuffer2

variable {w : Nat} {mem mem' : Memory}

/-! ## Integers -/

theorem toSize_of_lt {x : Int} (hw : 32 ≤ w) (h0 : 0 ≤ x) (h : x < 2 ^ 32) : toSize w x = x := by
  have hpow : (2 : Int) ^ 32 ≤ 2 ^ w := pow_le_pow_right₀ (by decide) hw
  exact Int.emod_eq_of_lt h0 (lt_of_lt_of_le h hpow)

theorem toInt_of_lt {x : Int} (h0 : 0 ≤ x) (h : x < 2 ^ 31) : toInt x = x :=
  Int.bmod_eq_of_le (by omega) (by omega)

theorem bdivideUp_four (a : Int) : bdivideUp a 4 = (a + 3) / 4 := by
  unfold bdivideUp
  split <;> omega

/-- The blocks of some bytes. -/
theorem blockLen_eq {len : Int} (hw : 32 ≤ w) (h0 : 0 ≤ len) (h : len < 2 ^ 31) : blockLen w len = (len + 3) / 4 := by
  unfold blockLen
  rw [toSize_of_lt hw h0 (by omega), bdivideUp_four, toInt_of_lt (by omega) (by omega)]

/-! ## Runs of packets -/

/-- The blocks of a packet, with its header. -/
def packetBlocks (d : List UInt8) : Int := 1 + ((d.length : Int) + 3) / 4

/-- The packet is at a block. -/
def Stored (mem : Memory) (a : Int) (d : List UInt8) : Prop :=
  mem.load32 (4 * a) = d.length ∧ mem.read (4 * (a + 1)) d.length = d

/-- The packets lie one after another from one block to another. -/
def Chain (mem : Memory) : Int → List (List UInt8) → Int → Prop
  | a, [], e => a = e
  | a, d :: ds, e => Stored mem a d ∧ Chain mem (a + packetBlocks d) ds e

/-- The packets of a run, with their blocks. -/
def placed : Int → List (List UInt8) → List (Int × List UInt8)
  | _, [] => []
  | a, d :: ds => (a, d) :: placed (a + packetBlocks d) ds

theorem packetBlocks_pos (d : List UInt8) : 1 ≤ packetBlocks d := by
  unfold packetBlocks
  omega

/-- A packet depends on the bytes of its blocks. -/
theorem Stored.congr {a : Int} {d : List UInt8} (h : Stored mem a d)
    (heq : ∀ x, 4 * a ≤ x → x < 4 * (a + packetBlocks d) → mem' x = mem x) : Stored mem' a d := by
  unfold packetBlocks at heq
  refine ⟨?_, ?_⟩
  · rw [Memory.load32_congr fun x h1 h2 => heq x h1 (by omega)]
    exact h.1
  · rw [Memory.read_congr fun x h1 h2 => heq x (by omega) (by omega)]
    exact h.2

theorem Chain.le {a e : Int} {ds : List (List UInt8)} (h : Chain mem a ds e) : a ≤ e := by
  induction ds generalizing a with
  | nil => exact Int.le_of_eq h
  | cons d ds ih =>
    have hle := ih h.2
    have hpos := packetBlocks_pos d
    omega

/-- A run depends on the bytes of its blocks. -/
theorem Chain.congr {a e : Int} {ds : List (List UInt8)} (h : Chain mem a ds e)
    (heq : ∀ x, 4 * a ≤ x → x < 4 * e → mem' x = mem x) : Chain mem' a ds e := by
  induction ds generalizing a with
  | nil => exact h
  | cons d ds ih =>
    have hle := h.2.le
    have hpos := packetBlocks_pos d
    exact ⟨h.1.congr fun x h1 h2 => heq x h1 (by omega), ih h.2 fun x h1 h2 => heq x (by omega) h2⟩

/-- A packet behind a run. -/
theorem Chain.snoc {a e : Int} {ds : List (List UInt8)} {d : List UInt8} (h : Chain mem a ds e) (hd : Stored mem e d) :
    Chain mem a (ds ++ [d]) (e + packetBlocks d) := by
  induction ds generalizing a with
  | nil =>
    obtain rfl : a = e := h
    exact ⟨hd, rfl⟩
  | cons d' ds ih => exact ⟨h.1, ih h.2⟩

/-- The blocks of a run of packets of limited size. -/
theorem Chain.length_le {a e c : Int} {ds : List (List UInt8)} (h : Chain mem a ds e) (hc : ∀ d ∈ ds, packetBlocks d ≤ c) :
    e - a ≤ c * ds.length := by
  induction ds generalizing a with
  | nil =>
    obtain rfl : a = e := h
    simp
  | cons d ds ih =>
    have hrest := ih h.2 fun d' hd' => hc d' (List.mem_cons_of_mem _ hd')
    have hd := hc d List.mem_cons_self
    rw [List.length_cons, Nat.cast_add, Nat.cast_one, mul_add, mul_one]
    omega

theorem placed_append (a : Int) (ds : List (List UInt8)) (d : List UInt8) {e : Int} (h : Chain mem a ds e) :
    placed a (ds ++ [d]) = placed a ds ++ [(e, d)] := by
  induction ds generalizing a with
  | nil =>
    obtain rfl : a = e := h
    rfl
  | cons d' ds ih =>
    rw [List.cons_append, placed, placed, ih _ h.2]
    rfl

/-- The packets of a run are in their places, inside the run. -/
theorem Chain.mem_placed {a e : Int} {ds : List (List UInt8)} (h : Chain mem a ds e) {q : Int × List UInt8} (hq : q ∈ placed a ds) :
    Stored mem q.1 q.2 ∧ a ≤ q.1 ∧ q.1 + packetBlocks q.2 ≤ e := by
  induction ds generalizing a with
  | nil => cases hq
  | cons d ds ih =>
    have hpos := packetBlocks_pos d
    have hle := h.2.le
    rcases List.mem_cons.mp hq with rfl | hq
    · exact ⟨h.1, Int.le_refl _, hle⟩
    · obtain ⟨hstored, h1, h2⟩ := ih h.2 hq
      exact ⟨hstored, by omega, h2⟩

theorem map_placed (a : Int) (ds : List (List UInt8)) : (placed a ds).map Prod.snd = ds := by
  induction ds generalizing a with
  | nil => rfl
  | cons d ds ih => rw [placed, List.map_cons, ih]

/-- The blocks of two packets are apart. -/
def Apart (q q' : Int × List UInt8) : Prop := q.1 + packetBlocks q.2 ≤ q'.1 ∨ q'.1 + packetBlocks q'.2 ≤ q.1

theorem Chain.pairwise {a e : Int} {ds : List (List UInt8)} (h : Chain mem a ds e) : (placed a ds).Pairwise Apart := by
  induction ds generalizing a with
  | nil => exact List.Pairwise.nil
  | cons d ds ih =>
    refine List.Pairwise.cons ?_ (ih h.2)
    exact fun q hq => Or.inl (h.2.mem_placed hq).2.1

/-! ## The layout -/

/-- The places of the packets: one run that ends at `e`, or a run up to `wrap` and one that ends at `e`. -/
inductive Layout (mem : Memory) (size wrap start used mtu : Int) : List (List UInt8) → List (List UInt8) → Int → Prop
  | straight {front : List (List UInt8)} {e : Int} : Chain mem start front e → 0 ≤ start → e = start + used → wrap = size →
      e + 1 + mtu ≤ size → Layout mem size wrap start used mtu front [] e
  | wrapped {front back : List (List UInt8)} {e : Int} : front ≠ [] → Chain mem start front wrap → Chain mem 0 back e → 0 ≤ start →
      used = wrap - start + e → e ≤ start → size < wrap + 1 + mtu → wrap ≤ size →
      (∀ q ∈ placed start front, q.1 + 1 + mtu ≤ size) → Layout mem size wrap start used mtu front back e

/-- The layout of a buffer. -/
abbrev Laid (b : ChunkBuffer2) (front back : List (List UInt8)) (e : Int) : Prop :=
  Layout b.buffer b.size b.wrap b.start b.used b.mtu front back e

/-- The fixed fields of a buffer for `num` packets of at most `mtu` bytes, of a size whose bytes are an `int`. -/
structure Fixed (mtu num : Int) (b : ChunkBuffer2) : Prop where
  mtu_nonneg : 0 ≤ mtu
  mtu_lt : mtu < 2 ^ 31
  num_pos : 0 < num
  mtu_eq : b.mtu = (mtu + 3) / 4
  size_eq : b.size = (1 + b.mtu) * (num + 1)
  size_le : b.size ≤ 2 ^ 29

variable {b : ChunkBuffer2} {front back : List (List UInt8)} {e mtu num : Int}

/-- A run that is not empty takes a block. -/
theorem Chain.lt {a : Int} {ds : List (List UInt8)} (h : Chain mem a ds e) (hne : ds ≠ []) : a < e := by
  cases ds with
  | nil => exact absurd rfl hne
  | cons d ds =>
    have hle := h.2.le
    have hpos := packetBlocks_pos d
    omega

/-- Where the packets are one run, the free blocks are those behind it. -/
theorem free_straight (he : e = b.start + b.used) (hlt : e < b.wrap) : b.end_ = e ∧ b.free = b.size - e := by
  have hend : b.end_ = e := by
    unfold end_
    rw [if_neg (by omega), he]
  unfold free
  rw [hend, if_neg (by omega)]
  exact ⟨rfl, rfl⟩

/-- Where they wrap, the free blocks are those up to the first packet. -/
theorem free_wrapped (hused : b.used = b.wrap - b.start + e) (h0 : 0 ≤ e) : b.end_ = e ∧ b.free = b.start - e := by
  have hend : b.end_ = e := by
    unfold end_
    rw [if_pos (by omega), hused]
    omega
  unfold free
  rw [hend, if_pos (by omega)]
  exact ⟨rfl, rfl⟩

theorem Laid.end_eq (h : b.Laid front back e) (hmtu : 0 ≤ b.mtu) : b.end_ = e := by
  cases h with
  | straight hchain h0 he hwrap hroom => exact (free_straight he (by omega)).1
  | wrapped hne hfront hback h0 hused he hlow hhigh hstarts => exact (free_wrapped hused hback.le).1

/-- There is room for a packet of the MTU behind the last one, up to the end of the buffer. -/
theorem Laid.room (h : b.Laid front back e) : 0 ≤ e ∧ e + 1 + b.mtu ≤ b.size := by
  cases h with
  | straight hchain h0 he hwrap hroom =>
    have hle := hchain.le
    exact ⟨by omega, hroom⟩
  | wrapped hne hfront hback h0 hused he hlow hhigh hstarts =>
    have hstart : b.start + 1 + b.mtu ≤ b.size := by
      cases front with
      | nil => exact absurd rfl hne
      | cons d front => exact hstarts (b.start, d) List.mem_cons_self
    exact ⟨hback.le, by omega⟩

theorem Laid.assertBuffer (h : b.Laid front back e) (hmtu : 0 ≤ b.mtu) : b.AssertBuffer := by
  unfold AssertBuffer
  cases h with
  | straight hchain h0 he hwrap hroom =>
    have hle := hchain.le
    omega
  | wrapped hne hfront hback h0 hused he hlow hhigh hstarts =>
    have hlt := hfront.lt hne
    have hle := hback.le
    omega

/-- The free blocks: those behind the last packet up to the end of the buffer, or up to the first packet. -/
theorem Laid.free_eq (h : b.Laid front back e) (hmtu : 0 ≤ b.mtu) :
    (b.used < b.wrap - b.start ∧ b.free = b.size - e) ∨ (b.wrap - b.start ≤ b.used ∧ b.free = b.start - e) := by
  cases h with
  | straight hchain h0 he hwrap hroom => exact Or.inl ⟨by omega, (free_straight he (by omega)).2⟩
  | wrapped hne hfront hback h0 hused he hlow hhigh hstarts =>
    have hle := hback.le
    exact Or.inr ⟨by omega, (free_wrapped hused hle).2⟩

theorem Laid.free_le (h : b.Laid front back e) (hmtu : 0 ≤ b.mtu) : 0 ≤ b.free ∧ b.free ≤ b.size := by
  have hroom := h.room
  have hassert := h.assertBuffer hmtu
  unfold AssertBuffer at hassert
  cases h with
  | straight hchain h0 he hwrap hroom =>
    have hfree := (free_straight he (by omega)).2
    omega
  | wrapped hne hfront hback h0 hused he hlow hhigh hstarts =>
    have hfree := (free_wrapped hused hback.le).2
    omega

/-- Where few packets are stored, one of the MTU fits. -/
theorem Laid.free_of_few (h : b.Laid front back e) (hfix : Fixed mtu num b)
    (hsmall : ∀ d ∈ front ++ back, packetBlocks d ≤ 1 + b.mtu) (hfew : ((front ++ back).length : Int) < num) : 1 + b.mtu ≤ b.free := by
  have hmtu : 0 ≤ b.mtu := by
    have := hfix.mtu_eq
    have := hfix.mtu_nonneg
    omega
  cases h with
  | straight hchain h0 he hwrap hroom =>
    have hfree := (free_straight he (by omega)).2
    omega
  | wrapped hne hfront hback h0 hused he hlow hhigh hstarts =>
    have hfree := (free_wrapped hused hback.le).2
    have h1 := hfront.length_le fun d hd => hsmall d (List.mem_append_left _ hd)
    have h2 := hback.length_le fun d hd => hsmall d (List.mem_append_right _ hd)
    have hsum : (1 + b.mtu) * front.length + (1 + b.mtu) * back.length ≤ (1 + b.mtu) * (num - 1) := by
      rw [← mul_add]
      refine mul_le_mul_of_nonneg_left ?_ (by omega)
      rw [List.length_append, Nat.cast_add] at hfew
      omega
    have hsize : b.size = (1 + b.mtu) * (num - 1) + 2 * (1 + b.mtu) := by
      rw [hfix.size_eq]
      ring
    omega

/-! ## The input and the output -/

/-- The buffer behind `_ChunkBuffer2_update_input`. -/
def withInput (b : ChunkBuffer2) (e : Int) : ChunkBuffer2 :=
  { b with
    inputDest := if b.free > 0 then some (4 * (e + 1)) else none
    inputAvail := if b.free > 0 then 4 * (b.free - 1) else -1 }

/-- The buffer behind `_ChunkBuffer2_update_output`. -/
def withOutput (b : ChunkBuffer2) (packets : List (List UInt8)) : ChunkBuffer2 :=
  { b with
    outputDest := packets.head?.map fun _ => 4 * (b.start + 1)
    outputAvail := packets.head?.elim (-1) fun d => (d.length : Int) }

/-- The input is the free part of the buffer behind a header. -/
def InputOk (b : ChunkBuffer2) (e : Int) : Prop :=
  b.inputDest = (if b.free > 0 then some (4 * (e + 1)) else none) ∧ b.inputAvail = if b.free > 0 then 4 * (b.free - 1) else -1

/-- The output is the first packet. -/
def OutputOk (b : ChunkBuffer2) (packets : List (List UInt8)) : Prop :=
  b.outputDest = packets.head?.map (fun _ => 4 * (b.start + 1)) ∧ b.outputAvail = packets.head?.elim (-1) fun d => (d.length : Int)

theorem Fixed.mtu_ge (h : Fixed mtu num b) : 0 ≤ b.mtu := by
  have := h.mtu_eq
  have := h.mtu_nonneg
  omega

/-- A packet of at most the MTU. -/
theorem Fixed.packetBlocks_le (h : Fixed mtu num b) {d : List UInt8} (hd : (d.length : Int) ≤ mtu) : packetBlocks d ≤ 1 + b.mtu := by
  have := h.mtu_eq
  unfold packetBlocks
  omega

/-- The MTU fits in the input just where it does in blocks. -/
theorem InputOk.avail_iff (h : b.InputOk e) (hfix : Fixed mtu num b) : mtu ≤ b.inputAvail ↔ 1 + b.mtu ≤ b.free := by
  have := hfix.mtu_eq
  have := hfix.mtu_nonneg
  rw [h.2]
  split <;> omega

theorem Laid.freeBytes_eq (h : b.Laid front back e) (hfix : Fixed mtu num b) (hw : 32 ≤ w) (hfree : b.free > 0) :
    b.freeBytes w = 4 * (b.free - 1) := by
  have hle := (h.free_le hfix.mtu_ge).2
  have hsize := hfix.size_le
  have hblocks : toSize w (b.free - 1) = b.free - 1 := toSize_of_lt hw (by omega) (by omega)
  unfold freeBytes
  rw [hblocks, toSize_of_lt hw (by omega) (by omega)]
  omega

/-- `_ChunkBuffer2_update_input` makes the input what it is to be. -/
theorem Laid.updateInput_eq (h : b.Laid front back e) (hfix : Fixed mtu num b) (hw : 32 ≤ w) :
    b.updateInput w = b.withInput e := by
  have hroom := h.room
  have hle := (h.free_le hfix.mtu_ge).2
  have hsize := hfix.size_le
  unfold updateInput withInput
  rw [h.end_eq hfix.mtu_ge, if_neg (by omega)]
  split
  · rename_i hfree
    rw [h.freeBytes_eq hfix hw hfree, toInt_of_lt (by omega) (by omega)]
  · rfl

/-- The packets of a layout that has a first packet. -/
theorem Laid.first {d : List UInt8} {rest : List (List UInt8)} (h : b.Laid front back e) (hmtu : 0 ≤ b.mtu)
    (hfirst : front ++ back = d :: rest) :
    ∃ front', front = d :: front' ∧ rest = front' ++ back ∧ Stored b.buffer b.start d ∧ packetBlocks d ≤ b.used ∧
      packetBlocks d ≤ b.wrap - b.start := by
  have hfront : ∃ front', front = d :: front' := by
    cases h with
    | straight hchain h0 he hwrap hroom => exact ⟨rest, by rwa [List.append_nil] at hfirst⟩
    | wrapped hne hfront hback h0 hused he hlow hhigh hstarts =>
      cases front with
      | nil => exact absurd rfl hne
      | cons d' front =>
        rw [List.cons_append] at hfirst
        exact ⟨front, by rw [(List.cons.inj hfirst).1]⟩
  obtain ⟨front', rfl⟩ := hfront
  refine ⟨front', rfl, ((List.cons.inj hfirst).2).symm, ?_⟩
  cases h with
  | straight hchain h0 he hwrap hroom =>
    have hle := hchain.2.le
    exact ⟨hchain.1, by omega, by omega⟩
  | wrapped hne hfront hback h0 hused he hlow hhigh hstarts =>
    have hle := hfront.2.le
    have hle' := hback.le
    exact ⟨hfront.1, by omega, by omega⟩

/-- There is something in use just where there is a packet. -/
theorem Laid.used_pos_iff (h : b.Laid front back e) : b.used > 0 ↔ front ++ back ≠ [] := by
  cases h with
  | straight hchain h0 he hwrap hroom =>
    rw [List.append_nil]
    constructor
    · rintro hused rfl
      have : b.start = e := hchain
      omega
    · intro hne
      have := hchain.lt hne
      omega
  | wrapped hne hfront hback h0 hused he hlow hhigh hstarts =>
    have hlt := hfront.lt hne
    have hle := hback.le
    refine iff_of_true (by omega) fun hn => hne (List.append_eq_nil_iff.mp hn).1

theorem withOutput_of_ok {packets : List (List UInt8)} (h : b.OutputOk packets) : b.withOutput packets = b := by
  unfold withOutput
  rw [← h.1, ← h.2]

/-- What `_ChunkBuffer2_update_output` asserts. -/
theorem Laid.assertFirst (h : b.Laid front back e) (hfix : Fixed mtu num b) (hw : 32 ≤ w) {d : List UInt8}
    {rest : List (List UInt8)} (hfirst : front ++ back = d :: rest) (hd : (d.length : Int) ≤ mtu) :
    b.len b.start = d.length ∧ blockLen w (b.len b.start) = packetBlocks d - 1 ∧ b.AssertFirst w := by
  obtain ⟨front', -, -, hstored, hused, hwrap⟩ := h.first hfix.mtu_ge hfirst
  have hlt := hfix.mtu_lt
  have hlen : b.len b.start = d.length := hstored.1
  have hblocks : blockLen w (b.len b.start) = packetBlocks d - 1 := by
    rw [hlen, blockLen_eq hw (by omega) (by omega)]
    unfold packetBlocks
    omega
  refine ⟨hlen, hblocks, ?_, ?_, ?_⟩
  · rw [hlen]
    omega
  · rw [hblocks]
    omega
  · rw [hblocks]
    omega

/-- `_ChunkBuffer2_update_output` makes the output what it is to be. -/
theorem Laid.updateOutput_eq (h : b.Laid front back e) (hfix : Fixed mtu num b) (hw : 32 ≤ w)
    (hsmall : ∀ d ∈ front ++ back, (d.length : Int) ≤ mtu) :
    b.updateOutput w = .ok (b.withOutput (front ++ back)) := by
  have hused := h.used_pos_iff
  unfold updateOutput withOutput
  cases hpackets : front ++ back with
  | nil =>
    rw [hpackets] at hused
    rw [if_neg (by simpa using hused)]
    rfl
  | cons d rest =>
    rw [hpackets] at hused
    obtain ⟨hlen, -, hassert⟩ := h.assertFirst hfix hw hpackets (hsmall d (hpackets ▸ List.mem_cons_self))
    rw [if_pos (hused.mpr (List.cons_ne_nil _ _)), assertThat, if_pos hassert, hlen]
    rfl

/-- `_ChunkBuffer2_assert_io` holds. -/
theorem Laid.assertIo (h : b.Laid front back e) (hfix : Fixed mtu num b) (hw : 32 ≤ w)
    (hsmall : ∀ d ∈ front ++ back, (d.length : Int) ≤ mtu) (hin : b.InputOk e) (hout : b.OutputOk (front ++ back)) : b.AssertIo w := by
  have hroom := h.room
  have hused := h.used_pos_iff
  refine ⟨?_, ?_⟩
  · rw [h.end_eq hfix.mtu_ge, if_neg (by omega), hin.1, hin.2]
    split
    · rename_i hfree
      rw [h.freeBytes_eq hfix hw hfree]
      have hle := (h.free_le hfix.mtu_ge).2
      have hsize := hfix.size_le
      exact ⟨rfl, toSize_of_lt hw (by omega) (by omega)⟩
    · exact ⟨rfl, rfl⟩
  · rw [hout.1, hout.2]
    cases hpackets : front ++ back with
    | nil =>
      rw [hpackets] at hused
      rw [if_neg (by simpa using hused)]
      exact ⟨rfl, rfl⟩
    | cons d rest =>
      rw [hpackets] at hused
      obtain ⟨hlen, -, hassert⟩ := h.assertFirst hfix hw hpackets (hsmall d (hpackets ▸ List.mem_cons_self))
      rw [if_pos (hused.mpr (List.cons_ne_nil _ _)), hlen]
      exact ⟨hassert, rfl, rfl⟩

theorem assertThat_pos {p : Prop} [Decidable p] (h : p) : assertThat p = .ok () := if_pos h

theorem Fixed.congr {b' : ChunkBuffer2} (h : Fixed mtu num b) (hsize : b'.size = b.size) (hmtu : b'.mtu = b.mtu) : Fixed mtu num b' := by
  refine ⟨h.mtu_nonneg, h.mtu_lt, h.num_pos, ?_, ?_, ?_⟩
  · rw [hmtu]
    exact h.mtu_eq
  · rw [hsize, hmtu]
    exact h.size_eq
  · rw [hsize]
    exact h.size_le

/-! ## The buffer is made -/

/-- `ChunkBuffer2_Init`. -/
theorem init_spec (hw : 32 ≤ w) {size : Int} (hfix : Fixed mtu num ⟨mem, size, size, 0, 0, blockLen w mtu, none, 0, none, 0⟩) :
    ∃ b, init w mem size mtu = .ok b ∧ b.Laid [] [] 0 ∧ Fixed mtu num b ∧ b.InputOk 0 ∧ b.OutputOk [] := by
  generalize hb : (⟨mem, size, size, 0, 0, blockLen w mtu, none, 0, none, 0⟩ : ChunkBuffer2) = b at hfix
  have hsize : b.size = size := by rw [← hb]
  have hmtu := hfix.mtu_ge
  have hroom : 1 + b.mtu ≤ b.size := by
    have hnum := hfix.num_pos
    rw [hfix.size_eq]
    exact le_mul_of_one_le_right (by omega) (by omega)
  have hlaid : b.Laid [] [] 0 := by
    subst hb
    exact .straight rfl (Int.le_refl _) rfl rfl (by dsimp only at hroom ⊢; omega)
  have hlaid' : (b.withInput 0).Laid [] [] 0 := hlaid
  have hlaid'' : ((b.withInput 0).withOutput []).Laid [] [] 0 := hlaid
  refine ⟨(b.withInput 0).withOutput [], ?_, hlaid, hfix.congr rfl rfl, ⟨rfl, rfl⟩, ⟨rfl, rfl⟩⟩
  unfold init
  rw [assertThat_pos (by omega), assertThat_pos hfix.mtu_nonneg]
  simp only [bind, Except.bind, pure, Except.pure]
  rw [hb, assertThat_pos (hlaid.assertBuffer hmtu), hlaid.updateInput_eq hfix hw]
  dsimp only
  rw [hlaid'.updateOutput_eq (hfix.congr rfl rfl) hw nofun]
  dsimp only
  rw [List.append_nil, assertThat_pos (hlaid''.assertIo (hfix.congr rfl rfl) hw nofun ⟨rfl, rfl⟩ ⟨rfl, rfl⟩)]

/-! ## A packet is submitted -/

/-- The buffer with a packet behind the last one, before its input and output are updated. -/
def appended (b : ChunkBuffer2) (e : Int) (d : List UInt8) : ChunkBuffer2 :=
  let b := { b with buffer := b.buffer.store32 (4 * e) d.length, used := b.used + packetBlocks d }
  if b.used ≤ b.wrap - b.start ∧ b.mtu > b.size - (e + packetBlocks d) - 1 then { b with wrap := e + packetBlocks d } else b

theorem appended_size (b : ChunkBuffer2) (e : Int) (d : List UInt8) : (b.appended e d).size = b.size ∧ (b.appended e d).mtu = b.mtu ∧
    (b.appended e d).used = b.used + packetBlocks d ∧ (b.appended e d).start = b.start ∧
    (b.appended e d).outputDest = b.outputDest ∧ (b.appended e d).outputAvail = b.outputAvail := by
  unfold appended
  dsimp only
  split <;> exact ⟨rfl, rfl, rfl, rfl, rfl, rfl⟩

/-- The header is written where there is no packet. -/
theorem Chain.store {a e p v : Int} {ds : List (List UInt8)} (h : Chain mem a ds e) (hp : e ≤ p ∨ p < a) :
    Chain (mem.store32 (4 * p) v) a ds e :=
  h.congr fun _ h1 h2 => Memory.store32_of_ne (by omega)

theorem stored_store {d : List UInt8} (hd : mem.read (4 * (e + 1)) d.length = d) (hlen : (d.length : Int) < 2 ^ 31) :
    Stored (mem.store32 (4 * e) d.length) e d := by
  refine ⟨Memory.load32_store32 (by omega) hlen, ?_⟩
  rw [Memory.read_congr fun x h1 h2 => Memory.store32_of_ne (Or.inr (by omega))]
  exact hd

/-- Where the packets are after one is submitted. -/
theorem Laid.appended (h : b.Laid front back e) (hfix : Fixed mtu num b) (hfree : 1 + b.mtu ≤ b.free) {d : List UInt8}
    (hd : (d.length : Int) ≤ mtu) (hdata : b.buffer.read (4 * (e + 1)) d.length = d) :
    ∃ front' back' e', (b.appended e d).Laid front' back' e' ∧ front' ++ back' = front ++ back ++ [d] := by
  have hmtu := hfix.mtu_ge
  have hlt := hfix.mtu_lt
  have hblocks := hfix.packetBlocks_le hd
  have hpos := packetBlocks_pos d
  have hstored := stored_store hdata (by omega)
  unfold ChunkBuffer2.appended
  cases h with
  | straight hchain h0 he hwrap hroom =>
    have hle := hchain.le
    have hchain' := (hchain.store (Or.inl (Int.le_refl _))).snoc hstored
    by_cases hfit : e + packetBlocks d + 1 + b.mtu ≤ b.size
    · refine ⟨front ++ [d], [], e + packetBlocks d, ?_, by rw [List.append_nil, List.append_nil]⟩
      dsimp only
      rw [if_neg (by omega)]
      exact .straight hchain' h0 (by dsimp only; omega) hwrap hfit
    · refine ⟨front ++ [d], [], 0, ?_, by rw [List.append_nil, List.append_nil]⟩
      dsimp only
      rw [if_pos (by omega)]
      refine .wrapped (by simp) hchain' rfl h0 (by dsimp only; omega) h0 (by dsimp only; omega) (by dsimp only; omega) ?_
      intro q hq
      rw [placed_append b.start front d hchain] at hq
      rcases List.mem_append.mp hq with hq | hq
      · have hplaced := hchain.mem_placed hq
        have hqpos := packetBlocks_pos q.2
        dsimp only
        omega
      · rw [List.mem_singleton.mp hq]
        exact hroom
  | wrapped hne hfront hback h0 hused he hlow hhigh hstarts =>
    have hle := hback.le
    have hfree' := (free_wrapped hused hle).2
    have hroom : e + packetBlocks d ≤ b.start := by omega
    refine ⟨front, back ++ [d], e + packetBlocks d, ?_, (List.append_assoc _ _ _).symm⟩
    dsimp only
    rw [if_neg (by omega)]
    exact .wrapped hne (hfront.store (Or.inr (by omega))) ((hback.store (Or.inl (Int.le_refl _))).snoc hstored) h0
      (by dsimp only; omega) hroom hlow hhigh hstarts

/-- `ChunkBuffer2_SubmitPacket`: where the MTU fits, the packet is behind the others. -/
theorem submitPacket_spec (h : b.Laid front back e) (hfix : Fixed mtu num b) (hw : 32 ≤ w)
    (hsmall : ∀ d ∈ front ++ back, (d.length : Int) ≤ mtu) (hin : b.InputOk e) (hout : b.OutputOk (front ++ back))
    (havail : mtu ≤ b.inputAvail) {d : List UInt8} (hd : (d.length : Int) ≤ mtu)
    (hdata : b.buffer.read (4 * (e + 1)) d.length = d) :
    ∃ b' front' back' e', b.submitPacket w d.length = .ok b' ∧ b'.Laid front' back' e' ∧ front' ++ back' = front ++ back ++ [d] ∧
      Fixed mtu num b' ∧ b'.InputOk e' ∧ b'.OutputOk (front' ++ back') ∧ b'.start = b.start := by
  have hfree := (hin.avail_iff hfix).mp havail
  have hmtu := hfix.mtu_ge
  have hlt := hfix.mtu_lt
  have hblocks := hfix.packetBlocks_le hd
  have hblocklen : blockLen w d.length = packetBlocks d - 1 := by
    rw [blockLen_eq hw (by omega) (by omega)]
    unfold packetBlocks
    omega
  have hroom := h.room
  have hfree' := h.free_eq hmtu
  obtain ⟨front', back', e', hlaid, hpackets⟩ := h.appended hfix hfree hd hdata
  obtain ⟨hsize, hmtu', hused, hstart, hdest, havail'⟩ := appended_size b e d
  have hfix' : Fixed mtu num (b.appended e d) := hfix.congr hsize hmtu'
  have hsmall' : ∀ d' ∈ front' ++ back', (d'.length : Int) ≤ mtu := by
    rw [hpackets]
    intro d' hd'
    rcases List.mem_append.mp hd' with hd' | hd'
    · exact hsmall d' hd'
    · rw [List.mem_singleton.mp hd']
      exact hd
  -- The output changes just where there was no packet before.
  have houtput : (if ((b.appended e d).withInput e').used = packetBlocks d then ((b.appended e d).withInput e').updateOutput w
      else Except.ok ((b.appended e d).withInput e')) = .ok (((b.appended e d).withInput e').withOutput (front' ++ back')) := by
    have hlaid' : ((b.appended e d).withInput e').Laid front' back' e' := hlaid
    have hused' : ((b.appended e d).withInput e').used = b.used + packetBlocks d := hused
    by_cases hempty : front ++ back = []
    · have hzero : b.used = 0 := by
        have hassert := h.assertBuffer hmtu
        unfold AssertBuffer at hassert
        have hnot := mt h.used_pos_iff.mp (not_not.mpr hempty)
        omega
      rw [if_pos (by rw [hused']; omega)]
      exact hlaid'.updateOutput_eq (hfix'.congr rfl rfl) hw hsmall'
    · have hpos := h.used_pos_iff.mpr hempty
      have hhead : (front' ++ back').head? = (front ++ back).head? := by rw [hpackets, List.head?_append_of_ne_nil _ hempty]
      rw [if_neg (by rw [hused']; omega), withOutput_of_ok]
      refine ⟨?_, ?_⟩
      · change (b.appended e d).outputDest = (front' ++ back').head?.map fun _ => 4 * ((b.appended e d).start + 1)
        rw [hhead, hdest, hstart]
        exact hout.1
      · change (b.appended e d).outputAvail = _
        rw [hhead, havail']
        exact hout.2
  refine ⟨((b.appended e d).withInput e').withOutput (front' ++ back'), front', back', e', ?_, hlaid, hpackets, hfix'.congr rfl rfl,
    ⟨rfl, rfl⟩, ⟨rfl, rfl⟩, hstart⟩
  have hlaid' : (((b.appended e d).withInput e').withOutput (front' ++ back')).Laid front' back' e' := hlaid
  unfold submitPacket
  rw [assertThat_pos (by rw [hin.1, if_pos (by omega)]; rfl), assertThat_pos (by omega), assertThat_pos (by omega),
    assertThat_pos (h.assertBuffer hmtu), assertThat_pos (h.assertIo hfix hw hsmall hin hout)]
  simp only [bind, Except.bind, pure, Except.pure]
  rw [h.end_eq hmtu, hblocklen, assertThat_pos (by omega), assertThat_pos (by omega)]
  dsimp only
  have hnew : (if b.used + (1 + (packetBlocks d - 1)) ≤ b.wrap - b.start ∧ b.mtu > b.size - (e + 1 + (packetBlocks d - 1)) - 1 then
      { b with buffer := b.buffer.store32 (4 * e) d.length, used := b.used + (1 + (packetBlocks d - 1)), wrap := e + 1 + (packetBlocks d - 1) }
      else { b with buffer := b.buffer.store32 (4 * e) d.length, used := b.used + (1 + (packetBlocks d - 1)) }) = b.appended e d := by
    unfold ChunkBuffer2.appended
    rw [show 1 + (packetBlocks d - 1) = packetBlocks d by omega, show e + 1 + (packetBlocks d - 1) = e + packetBlocks d by omega]
  rw [hnew, assertThat_pos (hlaid.assertBuffer hfix'.mtu_ge), hlaid.updateInput_eq hfix' hw]
  dsimp only
  rw [show 1 + (packetBlocks d - 1) = packetBlocks d by omega]
  have hassert := hlaid'.assertIo (hfix'.congr rfl rfl) hw hsmall' ⟨rfl, rfl⟩ ⟨rfl, rfl⟩
  by_cases hfirst : ((b.appended e d).withInput e').used = packetBlocks d
  · rw [if_pos hfirst] at houtput ⊢
    rw [houtput]
    dsimp only
    rw [assertThat_pos hassert]
  · rw [if_neg hfirst] at houtput ⊢
    have hsame := Except.ok.inj houtput
    rw [← hsame] at hassert ⊢
    rw [assertThat_pos hassert]

/-! ## A packet is consumed -/

/-- The buffer without its first packet, before its input and output are updated. -/
def advanced (b : ChunkBuffer2) (d : List UInt8) : ChunkBuffer2 :=
  let b := { b with start := b.start + packetBlocks d, used := b.used - packetBlocks d }
  if b.start = b.wrap then { b with start := 0, wrap := b.size } else b

theorem advanced_size (b : ChunkBuffer2) (d : List UInt8) : (b.advanced d).size = b.size ∧ (b.advanced d).mtu = b.mtu ∧
    (b.advanced d).inputDest = b.inputDest ∧ (b.advanced d).inputAvail = b.inputAvail := by
  unfold advanced
  dsimp only
  split <;> exact ⟨rfl, rfl, rfl, rfl⟩

/-- Where the packets are after the first one is consumed. The end stays where it is. -/
theorem Laid.advanced {d : List UInt8} {rest : List (List UInt8)} (h : b.Laid front back e) (hmtu : 0 ≤ b.mtu)
    (hfirst : front ++ back = d :: rest) :
    ∃ front' back', (b.advanced d).Laid front' back' e ∧ front' ++ back' = rest ∧ b.free ≤ (b.advanced d).free ∧
      (b.used < b.wrap - b.start → (b.advanced d).free = b.free) := by
  obtain ⟨front', rfl, rfl, -, -, -⟩ := h.first hmtu hfirst
  have hpos := packetBlocks_pos d
  have hroom := h.room
  unfold ChunkBuffer2.advanced
  dsimp only
  cases h with
  | straight hchain h0 he hwrap hroom =>
    have hle := hchain.2.le
    have hfree := (free_straight he (by omega)).2
    rw [if_neg (by omega)]
    have hfree' : ({ b with start := b.start + packetBlocks d, used := b.used - packetBlocks d } : ChunkBuffer2).free = b.size - e :=
      (free_straight (by dsimp only; omega) (by dsimp only; omega)).2
    refine ⟨front', [], .straight hchain.2 (by dsimp only; omega) (by dsimp only; omega) hwrap hroom, rfl, ?_, ?_⟩
    · rw [hfree, hfree']
    · exact fun _ => hfree'.trans hfree.symm
  | wrapped hne hfront hback h0 hused he hlow hhigh hstarts =>
    have hback0 := hback.le
    have hfree := (free_wrapped hused hback0).2
    have hle := hfront.2.le
    by_cases hlast : b.start + packetBlocks d = b.wrap
    · -- The run up to `wrap` is consumed, and the other one is left.
      have hnil : front' = [] := by
        by_contra hn
        have := hfront.2.lt hn
        omega
      subst hnil
      rw [if_pos hlast]
      have hfree' : ({ b with start := 0, wrap := b.size, used := b.used - packetBlocks d } : ChunkBuffer2).free = b.size - e :=
        (free_straight (by dsimp only; omega) (by dsimp only; omega)).2
      refine ⟨back, [], .straight hback (Int.le_refl _) (by dsimp only; omega) rfl hroom.2, List.append_nil _, ?_, fun hn => ?_⟩
      · rw [hfree, hfree']
        omega
      · omega
    · have hne' : front' ≠ [] := by
        rintro rfl
        exact hlast hfront.2
      rw [if_neg hlast]
      have hfree' : ({ b with start := b.start + packetBlocks d, used := b.used - packetBlocks d } : ChunkBuffer2).free =
          b.start + packetBlocks d - e := (free_wrapped (by dsimp only; omega) hback0).2
      refine ⟨front', back, .wrapped hne' hfront.2 hback (by dsimp only; omega) (by dsimp only; omega) (by dsimp only; omega) hlow hhigh ?_,
        rfl, ?_, fun hn => ?_⟩
      · exact fun q hq => hstarts q (List.mem_cons_of_mem _ hq)
      · rw [hfree, hfree']
        omega
      · omega

/-- `ChunkBuffer2_ConsumePacket`: the first packet is gone, and the input grows. -/
theorem consumePacket_spec (h : b.Laid front back e) (hfix : Fixed mtu num b) (hw : 32 ≤ w)
    (hsmall : ∀ d ∈ front ++ back, (d.length : Int) ≤ mtu) (hin : b.InputOk e) (hout : b.OutputOk (front ++ back)) {d : List UInt8}
    {rest : List (List UInt8)} (hfirst : front ++ back = d :: rest) :
    ∃ b' front' back', b.consumePacket w = .ok b' ∧ b'.Laid front' back' e ∧ front' ++ back' = rest ∧ Fixed mtu num b' ∧
      b'.InputOk e ∧ b'.OutputOk rest ∧ b.free ≤ b'.free ∧ b'.buffer = b.buffer := by
  have hmtu := hfix.mtu_ge
  obtain ⟨front', back', hlaid, hrest, hfree, hsame⟩ := h.advanced hmtu hfirst
  obtain ⟨hsize, hmtu', hdest, havail⟩ := advanced_size b d
  have hfix' : Fixed mtu num (b.advanced d) := hfix.congr hsize hmtu'
  have hsmall' : ∀ d' ∈ front' ++ back', (d'.length : Int) ≤ mtu := by
    intro d' hd'
    rw [hrest] at hd'
    exact hsmall d' (hfirst ▸ List.mem_cons_of_mem _ hd')
  obtain ⟨-, -, -, -, hused, hwrap⟩ := h.first hmtu hfirst
  have hpos := packetBlocks_pos d
  have hassert : 1 ≤ b.wrap - b.start ∧ 1 ≤ b.used ∧ packetBlocks d - 1 ≤ b.wrap - b.start - 1 ∧ packetBlocks d - 1 ≤ b.used - 1 := by
    omega
  obtain ⟨-, hblocklen, -⟩ := h.assertFirst hfix hw hfirst (hsmall d (hfirst ▸ List.mem_cons_self))
  -- Where the packets do not wrap, the input is as it was.
  have hinput : (if b.used ≥ b.wrap - b.start then (b.advanced d).updateInput w else b.advanced d) = (b.advanced d).withInput e := by
    split
    · exact hlaid.updateInput_eq hfix' hw
    · rename_i hnot
      have hfree' := hsame (by omega)
      symm
      unfold withInput
      rw [hfree', ← hin.1, ← hin.2, ← hdest, ← havail]
  have hlaid' : ((b.advanced d).withInput e).Laid front' back' e := hlaid
  have hlaid'' : (((b.advanced d).withInput e).withOutput (front' ++ back')).Laid front' back' e := hlaid
  refine ⟨((b.advanced d).withInput e).withOutput (front' ++ back'), front', back', ?_, hlaid, hrest, hfix'.congr rfl rfl, ⟨rfl, rfl⟩,
    hrest ▸ ⟨rfl, rfl⟩, hfree, ?_⟩
  · unfold consumePacket
    rw [assertThat_pos (by rw [hout.1, hfirst]; rfl), assertThat_pos (h.assertBuffer hmtu),
      assertThat_pos (h.assertIo hfix hw hsmall hin hout), assertThat_pos hassert.1, assertThat_pos hassert.2.1]
    simp only [bind, Except.bind, pure, Except.pure]
    rw [hblocklen, assertThat_pos hassert.2.2.1, assertThat_pos hassert.2.2.2]
    dsimp only
    have hnew : (if b.start + (1 + (packetBlocks d - 1)) = b.wrap then
        { b with start := 0, used := b.used - (1 + (packetBlocks d - 1)), wrap := b.size }
        else { b with start := b.start + (1 + (packetBlocks d - 1)), used := b.used - (1 + (packetBlocks d - 1)) }) = b.advanced d := by
      unfold ChunkBuffer2.advanced
      rw [show 1 + (packetBlocks d - 1) = packetBlocks d by omega]
    rw [hnew, assertThat_pos (hlaid.assertBuffer hfix'.mtu_ge), hinput]
    dsimp only
    rw [hlaid'.updateOutput_eq (hfix'.congr rfl rfl) hw hsmall']
    dsimp only
    rw [assertThat_pos (hlaid''.assertIo (hfix'.congr rfl rfl) hw hsmall' ⟨rfl, rfl⟩ ⟨rfl, rfl⟩)]
  · change (b.advanced d).buffer = b.buffer
    unfold ChunkBuffer2.advanced
    dsimp only
    split <;> rfl

/-! ## The input is written to -/

/-- A write to the free blocks leaves the packets. -/
theorem Laid.write (h : b.Laid front back e) {a : Int} {data : List UInt8} (ha : 4 * e ≤ a)
    (hlen : a + data.length ≤ 4 * (e + b.free)) : ({ b with buffer := b.buffer.write a data } : ChunkBuffer2).Laid front back e := by
  have hbefore : ∀ x, x < 4 * e → b.buffer.write a data x = b.buffer x := fun x hx => Memory.write_of_lt (by omega)
  have hafter : ∀ x, 4 * (e + b.free) ≤ x → b.buffer.write a data x = b.buffer x := fun x hx => Memory.write_of_ge (by omega)
  cases h with
  | straight hchain h0 he hwrap hroom =>
    exact .straight (hchain.congr fun x _ hx => hbefore x hx) h0 he hwrap hroom
  | wrapped hne hfront hback h0 hused he hlow hhigh hstarts =>
    have hfree := (free_wrapped hused hback.le).2
    exact .wrapped hne (hfront.congr fun x hx _ => hafter x (by omega)) (hback.congr fun x _ hx => hbefore x hx) h0 hused he hlow hhigh hstarts

/-! ## The packets in their places -/

/-- The packets of a layout, with their blocks. -/
def packetsOf (b : ChunkBuffer2) (front back : List (List UInt8)) : List (Int × List UInt8) := placed b.start front ++ placed 0 back

theorem map_packetsOf : (b.packetsOf front back).map Prod.snd = front ++ back := by
  rw [packetsOf, List.map_append, map_placed, map_placed]

/-- The packets are inside the buffer, and not in its free blocks. -/
theorem Laid.mem_packetsOf (h : b.Laid front back e) (hmtu : 0 ≤ b.mtu) {q : Int × List UInt8} (hq : q ∈ b.packetsOf front back) :
    Stored b.buffer q.1 q.2 ∧ 0 ≤ q.1 ∧ q.1 + packetBlocks q.2 ≤ b.size ∧ (q.1 + packetBlocks q.2 ≤ e ∨ e + b.free ≤ q.1) := by
  cases h with
  | straight hchain h0 he hwrap hroom =>
    rw [packetsOf, placed, List.append_nil] at hq
    obtain ⟨hstored, h1, h2⟩ := hchain.mem_placed hq
    exact ⟨hstored, by omega, by omega, Or.inl h2⟩
  | wrapped hne hfront hback h0 hused he hlow hhigh hstarts =>
    have hfree := (free_wrapped hused hback.le).2
    have hlt := hfront.lt hne
    rcases List.mem_append.mp hq with hq | hq
    · obtain ⟨hstored, h1, h2⟩ := hfront.mem_placed hq
      exact ⟨hstored, by omega, by omega, Or.inr (by omega)⟩
    · obtain ⟨hstored, h1, h2⟩ := hback.mem_placed hq
      exact ⟨hstored, h1, by omega, Or.inl h2⟩

/-- The packets do not overlap. -/
theorem Laid.pairwise (h : b.Laid front back e) : (b.packetsOf front back).Pairwise Apart := by
  cases h with
  | straight hchain h0 he hwrap hroom =>
    rw [packetsOf, placed, List.append_nil]
    exact hchain.pairwise
  | wrapped hne hfront hback h0 hused he hlow hhigh hstarts =>
    refine List.pairwise_append.mpr ⟨hfront.pairwise, hback.pairwise, ?_⟩
    intro q hq q' hq'
    have h1 := (hfront.mem_placed hq).2.1
    have h2 := (hback.mem_placed hq').2.2
    exact Or.inr (by omega)

/-- The output is the first of the packets. -/
theorem Laid.output (h : b.Laid front back e) (hmtu : 0 ≤ b.mtu) (hout : b.OutputOk (front ++ back)) :
    (b.packetsOf front back).head?.map (fun q => (some (4 * (q.1 + 1)), (q.2.length : Int))) =
      if front ++ back = [] then none else some (b.outputDest, b.outputAvail) := by
  cases hpackets : front ++ back with
  | nil =>
    obtain ⟨rfl, rfl⟩ := List.append_eq_nil_iff.mp hpackets
    rfl
  | cons d rest =>
    obtain ⟨front', rfl, -⟩ := h.first hmtu hpackets
    rw [hpackets] at hout
    rw [if_neg (List.cons_ne_nil _ _), hout.1, hout.2]
    rfl

end ChunkBuffer2

end PsiphonAndroid
