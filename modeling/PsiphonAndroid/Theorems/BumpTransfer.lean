import PsiphonAndroid.Nfc.Bump

/-!
# The bump transfer

The reader and the card put together: after the select and the length, each read brings the next 253 bytes, and the reader ends with
what was exported. The length goes through a Java `short`, so this is so exactly for payloads below 32768 bytes.
-/

namespace PsiphonAndroid

open Lib

namespace BumpTransferAux

open BumpReader BumpHost

/-- A response with `A_OK` behind its data is a success. -/
theorem rApduSuccess_ok (data : Bytes) : rApduSuccess (data ++ aOk) = .ok true := by
  have hlen : (data ++ aOk).length = data.length + 2 := by rw [List.length_append]; rfl
  unfold rApduSuccess
  rw [if_neg (by omega), hlen, Nat.add_sub_cancel]
  have hdrop : slice (data ++ aOk) data.length 2 = aOk := by
    rw [slice, List.drop_left']
    · rfl
    · rfl
  rw [hdrop]
  rfl

theorem checked_ok (data : Bytes) (failed : ReaderEnd) (next : BumpReader) : checked (data ++ aOk) failed next = next := by
  unfold checked
  rw [rApduSuccess_ok]

/-- The length of the payload. -/
theorem length_usAscii (s : String) : (usAscii s).length = s.length := by
  rw [usAscii, List.length_map, String.length_toList]

theorem length_makePayload (s : String) : (makePayload s).length = s.length + 2 := by
  simp only [makePayload, List.length_append, List.length_cons, List.length_nil, length_usAscii]
  omega

/-- The header of the payload. -/
theorem slice_makePayload_header (s : String) :
    slice (makePayload s) 0 2 = [UInt8.ofNat ((s.length + 2) / 256), UInt8.ofNat (s.length + 2)] := by
  rw [makePayload, length_usAscii]
  rfl

/-- The data of the payload. -/
theorem slice_makePayload_data (s : String) (off len : Nat) : slice (makePayload s) (2 + off) len = slice (usAscii s) off len := by
  rw [slice, slice, makePayload, Nat.add_comm 2 off]
  rfl

/-- A READ BINARY inside the payload is answered. -/
theorem processCommandApdu_read {h : BumpHost} {s : String} (hsel : h.aidSelected = true)
    (hpl : h.payload.getD (makePayload s) = makePayload s) (off : Nat) (le : UInt8) (hoff : off < 65536)
    (hle : off + le.toNat ≤ s.length + 2) :
    h.processCommandApdu s [0x00, 0xB0, UInt8.ofNat (off / 256), UInt8.ofNat off, le] =
      (⟨true, some (makePayload s)⟩, some (slice (makePayload s) off le.toNat ++ aOk)) := by
  have hoffset : (UInt8.ofNat (off / 256)).toNat * 256 + (UInt8.ofNat off).toNat = off := by
    simp only [UInt8.toNat_ofNat']
    omega
  have hsel' : [0x00, 0xB0, UInt8.ofNat (off / 256), UInt8.ofNat off, le] ≠ selectAid := by
    intro hn
    cases congrArg List.length hn
  unfold processCommandApdu
  rw [if_neg hsel', if_pos ⟨hsel, rfl, rfl, rfl⟩]
  dsimp only
  rw [show ∀ a b c d e : UInt8, byteAt [a, b, c, d, e] 2 = c from fun _ _ _ _ _ => rfl,
    show ∀ a b c d e : UInt8, byteAt [a, b, c, d, e] 3 = d from fun _ _ _ _ _ => rfl,
    show ∀ a b c d e : UInt8, byteAt [a, b, c, d, e] 4 = e from fun _ _ _ _ _ => rfl, hpl, hoffset,
    if_pos (by rw [length_makePayload]; exact hle), hsel]

/-- One `transceive`, with the command and its answer. -/
theorem transceive_eq {x : BumpExchange} {s : String} {cmd : Bytes} {host : BumpHost} {answer : Option Bytes}
    (hcmd : x.reader.command = some cmd) (hans : x.host.processCommandApdu s cmd = (host, answer)) :
    x.transceive s = ⟨host, x.reader.respond answer, x.log ++ [(cmd, answer)]⟩ := by
  unfold BumpExchange.transceive
  rw [hcmd]
  dsimp only
  rw [hans]

/-- The exchange is as it should be after `n` commands: the card is ready to be read, and every command was answered. -/
structure Ready (s : String) (n : Nat) (x : BumpExchange) : Prop where
  host : x.host = ⟨true, some (makePayload s)⟩
  length : x.log.length = n
  answered : ∀ e ∈ x.log, e.2.isSome = true

/-- The select and the length. -/
theorem run_length (s : String) : Ready s 2 (BumpExchange.run s 2) ∧
    (BumpExchange.run s 2).reader = respond readingLength (some (slice (makePayload s) 0 2 ++ aOk)) := by
  have hselect : BumpExchange.run s 1 = ⟨⟨true, none⟩, .readingLength, [(selectAid, some aOk)]⟩ := rfl
  have hread := processCommandApdu_read (h := ⟨true, none⟩) (s := s) rfl rfl 0 2 (by omega)
    (Nat.le_add_left 2 s.length)
  rw [show (2 : UInt8).toNat = 2 from rfl] at hread
  have hrun := transceive_eq (x := ⟨⟨true, none⟩, .readingLength, [(selectAid, some aOk)]⟩) rfl hread
  rw [show BumpExchange.run s 2 = (BumpExchange.run s 1).transceive s from rfl, hselect, hrun]
  dsimp only
  refine ⟨⟨rfl, rfl, ?_⟩, rfl⟩
  rintro e (_ | ⟨_, _ | ⟨_, ⟨⟩⟩⟩)
  · rfl
  · rfl

/-- The length as the reader takes it: the `short` with the same bits. -/
theorem payloadLength_eq (s : String) (hlen : s.length + 2 ≤ 65535) :
    payloadLengthOf (slice (makePayload s) 0 2 ++ aOk) = ((s.length + 2 : Nat) : Int).bmod 65536 := by
  have hread : (readBe16 (slice (makePayload s) 0 2 ++ aOk) 0).toNat = s.length + 2 := by
    rw [slice_makePayload_header, readBe16_toNat]
    simp only [List.cons_append, byteAt_cons_zero, byteAt_cons_succ, UInt8.toNat_ofNat']
    omega
  exact congrArg (fun n : Nat => (n : Int).bmod 65536) hread

theorem respond_length (s : String) (hlen : s.length + 2 ≤ 32767) :
    respond readingLength (some (slice (makePayload s) 0 2 ++ aOk)) =
      loop (s.length + 2 : Nat) (List.replicate s.length 0) 2 := by
  have hshort : payloadLengthOf (slice (makePayload s) 0 2 ++ aOk) = (s.length + 2 : Nat) := by
    rw [payloadLength_eq s (by omega), Int.bmod_def]
    omega
  have hsize : (((s.length + 2 : Nat) : Int) - 2).toNat = s.length := by omega
  rw [respond, checked_ok, hshort, hsize]
  exact if_neg (by omega)

/-- A length of 32768 or more is a negative `short`. -/
theorem respond_length_negative (s : String) (hlen : s.length + 2 ≤ 65535) (hbig : 32767 < s.length + 2) :
    respond readingLength (some (slice (makePayload s) 0 2 ++ aOk)) = ended (.thrown .negativeArraySize) := by
  have hneg : payloadLengthOf (slice (makePayload s) 0 2 ++ aOk) - 2 < 0 := by
    rw [payloadLength_eq s hlen, Int.bmod_def]
    omega
  rw [respond, checked_ok]
  exact if_pos hneg

/-- The data the reader has after `m` bytes: the rest of the array is still zero. -/
def dataAt (s : String) (m : Nat) : Bytes := (usAscii s).take m ++ List.replicate (s.length - m) 0

theorem length_dataAt (s : String) {m : Nat} (hm : m ≤ s.length) : (dataAt s m).length = s.length := by
  rw [dataAt, List.length_append, List.length_take, List.length_replicate, length_usAscii]
  omega

/-- The next bytes are put behind those read before. -/
theorem memcpy_dataAt (s : String) {m le : Nat} (h : m + le ≤ s.length) :
    memcpy (dataAt s m) m (slice (usAscii s) m le) = dataAt s (m + le) := by
  have htake : ((usAscii s).take m).length = m := by
    rw [List.length_take, length_usAscii]
    omega
  have hslice : (slice (usAscii s) m le).length = le := length_slice_of_le (by rw [length_usAscii]; exact h)
  rw [memcpy, hslice, dataAt, List.take_left' htake, List.drop_append, htake, List.drop_of_length_le (by omega), List.nil_append,
    List.drop_replicate, dataAt, slice, List.take_add]
  congr 2
  omega

/-- One read of at most 253 bytes. -/
theorem transceive_read {s : String} (hlen : s.length + 2 ≤ 32767) {n m : Nat} {x : BumpExchange} (hx : Ready s n x)
    (hm : m < s.length) (hreader : x.reader = reading (s.length + 2 : Nat) (dataAt s m) (2 + m)) :
    Ready s (n + 1) (x.transceive s) ∧
      (x.transceive s).reader =
        loop (s.length + 2 : Nat) (dataAt s (min (m + 253) s.length)) (2 + min (m + 253) s.length) := by
  have hle : (clampIntToByte (((s.length + 2 : Nat) : Int) - (2 + m : Nat))).toNat = min 253 (s.length - m) := by
    unfold clampIntToByte
    split
    · rw [show (0xFD : UInt8).toNat = 253 from rfl]
      omega
    · rw [UInt8.toNat_ofNat']
      omega
  have hans := processCommandApdu_read (h := x.host) (s := s) (by rw [hx.host]) (by rw [hx.host]; rfl) (2 + m)
    (clampIntToByte (((s.length + 2 : Nat) : Int) - (2 + m : Nat))) (by omega)
    (by rw [hle]; omega)
  have hrun := transceive_eq (by rw [hreader]; rfl) hans
  rw [hle, slice_makePayload_data] at hrun
  rw [hrun]
  refine ⟨⟨rfl, ?_, ?_⟩, ?_⟩
  · rw [List.length_append, hx.length]
    rfl
  · intro e he
    rcases List.mem_append.mp he with he | he
    · exact hx.answered e he
    · rw [List.mem_singleton.mp he]
      rfl
  · have hslice : (slice (usAscii s) m (min 253 (s.length - m))).length = min 253 (s.length - m) :=
      length_slice_of_le (by rw [length_usAscii]; omega)
    have hdata : (slice (usAscii s) m (min 253 (s.length - m)) ++ aOk).length - 2 = min 253 (s.length - m) := by
      rw [List.length_append, hslice]
      rfl
    have hfront : slice (slice (usAscii s) m (min 253 (s.length - m)) ++ aOk) 0 (min 253 (s.length - m)) =
        slice (usAscii s) m (min 253 (s.length - m)) := by
      rw [slice, List.drop_zero, List.take_left' hslice]
    have hnext : m + min 253 (s.length - m) = min (m + 253) s.length := by omega
    dsimp only
    rw [hreader, respond, checked_ok]
    dsimp only
    rw [hdata, hfront, if_neg (by rw [length_dataAt s hm.le]; omega), Nat.add_sub_cancel_left,
      memcpy_dataAt s (by omega), Nat.add_assoc, hnext]

/-- The exchange after the select, the length and `j` reads. -/
theorem run_reads {s : String} (hlen : s.length + 2 ≤ 32767) (j : Nat) (hj : j ≤ (s.length + 252) / 253) :
    Ready s (2 + j) (BumpExchange.run s (2 + j)) ∧ (BumpExchange.run s (2 + j)).reader =
      loop (s.length + 2 : Nat) (dataAt s (min (253 * j) s.length)) (2 + min (253 * j) s.length) := by
  induction j with
  | zero =>
    obtain ⟨hready, hreader⟩ := run_length s
    refine ⟨hready, ?_⟩
    rw [Nat.add_zero, hreader, respond_length s hlen, Nat.mul_zero, Nat.zero_min, dataAt, List.take_zero, List.nil_append, Nat.sub_zero]
  | succ j ih =>
    obtain ⟨hready, hreader⟩ := ih (by omega)
    have hm : min (253 * j) s.length = 253 * j := by omega
    rw [hm] at hreader
    have hmore : ((2 + 253 * j : Nat) : Int) < (s.length + 2 : Nat) := by omega
    rw [loop, if_pos hmore] at hreader
    have hstep := transceive_read hlen hready (by omega) hreader
    rw [show 253 * (j + 1) = 253 * j + 253 from rfl]
    exact hstep

/-- An ended reader makes no more calls. -/
theorem run_ended {s : String} {n : Nat} {e : ReaderEnd} (h : (BumpExchange.run s n).reader = ended e) (j : Nat) :
    BumpExchange.run s (n + j) = BumpExchange.run s n := by
  induction j with
  | zero => rfl
  | succ j ih =>
    rw [← Nat.add_assoc, BumpExchange.run, ih]
    unfold BumpExchange.transceive
    rw [h]
    rfl

/-- A payload of 32768 bytes or more makes the reader throw at the length. -/
theorem run_negative {s : String} (hlen : s.length + 2 ≤ 65535) (hbig : 32767 < s.length + 2) (j : Nat) :
    (BumpExchange.run s (2 + j)).reader = ended (.thrown .negativeArraySize) := by
  have hend : (BumpExchange.run s 2).reader = ended (.thrown .negativeArraySize) :=
    (run_length s).2.trans (respond_length_negative s hlen hbig)
  rw [run_ended hend j, hend]

end BumpTransferAux

open BumpTransferAux

/-- The transfer of an exported string whose payload fits the 16-bit length: the select, the length and `⌈|s| / 253⌉` reads, every one
of them answered, end in the import of exactly the bytes of the string, if and only if the payload has at most 32767 bytes. -/
theorem bump_transfer_exact (s : String) (hascii : ∀ c ∈ s.toList, c.toNat < 128) (hlen : s.length + 2 ≤ 65535) :
    ((BumpExchange.run s (2 + (s.length + 252) / 253)).reader =
        .ended (.imported (s.toList.map fun c => UInt8.ofNat c.toNat)) ∧
      (BumpExchange.run s (2 + (s.length + 252) / 253)).log.length = 2 + (s.length + 252) / 253 ∧
      ∀ e ∈ (BumpExchange.run s (2 + (s.length + 252) / 253)).log, e.2.isSome = true) ↔ s.length + 2 ≤ 32767 := by
  have hbytes : usAscii s = s.toList.map fun c => UInt8.ofNat c.toNat :=
    List.map_congr_left fun c hc => if_pos (hascii c hc)
  constructor
  · rintro ⟨hend, -⟩
    by_contra hbig
    rw [run_negative hlen (by omega)] at hend
    cases hend
  · intro hsmall
    obtain ⟨hready, hreader⟩ := run_reads hsmall ((s.length + 252) / 253) (Nat.le_refl _)
    refine ⟨?_, hready.length, hready.answered⟩
    have hall : min (253 * ((s.length + 252) / 253)) s.length = s.length := by omega
    rw [hreader, hall, BumpReader.loop, if_neg (by omega), dataAt, Nat.sub_self, List.replicate_zero, List.append_nil,
      List.take_of_length_le (by rw [length_usAscii]), hbytes]

/-- Three hundred characters go over in two reads. -/
theorem bump_transfer_exact_two_reads : ∃ s : String, s.length = 300 ∧
    (BumpExchange.run s 4).reader = .ended (.imported (List.replicate 300 0x61)) ∧ (BumpExchange.run s 4).log.length = 4 := by
  have hlist : (String.ofList (List.replicate 300 'a')).toList = List.replicate 300 'a' := String.toList_ofList
  have hlen : (String.ofList (List.replicate 300 'a')).length = 300 := by
    rw [← String.length_toList, hlist, List.length_replicate]
  have hascii : ∀ c ∈ (String.ofList (List.replicate 300 'a')).toList, c.toNat < 128 := by
    intro c hc
    rw [hlist] at hc
    rw [List.eq_of_mem_replicate hc]
    decide
  obtain ⟨hend, hlog, -⟩ := (bump_transfer_exact _ hascii (by rw [hlen]; decide)).mpr (by rw [hlen]; decide)
  rw [hlen] at hend hlog
  rw [hlist, List.map_replicate] at hend
  exact ⟨_, hlen, hend, hlog⟩

/-- A string of 32766 characters is not transferred: the reader throws at its length. -/
theorem bump_long_string_throws : ∃ s : String, (∀ c ∈ s.toList, c.toNat < 128) ∧ s.length + 2 ≤ 65535 ∧
    ∀ j, (BumpExchange.run s (2 + j)).reader = .ended (.thrown .negativeArraySize) := by
  have hlist : (String.ofList (List.replicate 32766 'a')).toList = List.replicate 32766 'a' := String.toList_ofList
  have hlen : (String.ofList (List.replicate 32766 'a')).length = 32766 := by
    rw [← String.length_toList, hlist, List.length_replicate]
  refine ⟨_, ?_, ?_, run_negative (s := String.ofList (List.replicate 32766 'a')) ?_ ?_⟩
  · intro c hc
    rw [hlist] at hc
    rw [List.eq_of_mem_replicate hc]
    decide
  · omega
  · omega
  · omega

end PsiphonAndroid
