import Mathlib
import PsiphonAndroid.Lib.Bytes

/-!
# Chains of pbufs

A packet buffer of the IP stack is a chain of pbufs. Each has a piece of the payload (`payload` and `len`) and the length of
the chain from it on (`tot_len`), which every operation has to keep in step. The operations here are those the TCP input uses:
`pbuf_realloc` shortens a chain at its end, `pbuf_header` hides bytes at the front of one pbuf, `tcp_receive` hides bytes that
reach over several pbufs by emptying those it skips, and `pbuf_cat` puts two chains together. A failed `LWIP_ASSERT` ends the
program and is `none`.
-/

namespace PsiphonAndroid

open Lib

/-- One pbuf of a chain: its piece of the payload and `tot_len`. -/
structure Pbuf where
  payload : Bytes
  totLen : Nat
deriving DecidableEq

/-- The pbufs from one on, along `next`. -/
abbrev PbufChain : Type := List Pbuf

namespace PbufChain

/-- `tot_len` of the first pbuf. -/
def totLen : PbufChain → Nat
  | [] => 0
  | p :: _ => p.totLen

/-- The payload of the chain. -/
def bytes (c : PbufChain) : Bytes := (c.map (·.payload)).flatten

/-- `pbuf_realloc` from the pbuf `q` on: `remLen` bytes are to be kept, and every chain gets shorter by `shrink`. -/
def reallocFrom (shrink : Nat) : Nat → PbufChain → Option PbufChain
  | _, [] => none
  | remLen, q :: next =>
    if q.payload.length < remLen then
      (reallocFrom shrink (remLen - q.payload.length) next).map ({ q with totLen := q.totLen - shrink } :: ·)
    else
      some [⟨q.payload.take remLen, remLen⟩]

/-- `pbuf_realloc`: the first `newLen` bytes; a chain is never made longer. -/
def realloc (p : PbufChain) (newLen : Nat) : Option PbufChain :=
  if p.totLen ≤ newLen then some p else reallocFrom (p.totLen - newLen) newLen p

/-- `pbuf_header` with a negative increment: the first `off` bytes of the first pbuf are hidden. -/
def hideHeader (off : Nat) : PbufChain → Option PbufChain
  | [] => none
  | p :: next => if off ≤ p.payload.length then some (⟨p.payload.drop off, p.totLen - off⟩ :: next) else none

/-- The loop of `tcp_receive` over the pbufs whose payload is hidden as a whole. -/
def hideAcross (newTotLen : Nat) : Nat → PbufChain → Option PbufChain
  | _, [] => none
  | off, p :: next =>
    if p.payload.length < off then
      (hideAcross newTotLen (off - p.payload.length) next).map (⟨[], newTotLen⟩ :: ·)
    else
      hideHeader off (p :: next)

/-- The trimming of the first edge in `tcp_receive`: `off` bytes are hidden, over several pbufs where the first is too short. -/
def hide (off : Nat) : PbufChain → Option PbufChain
  | [] => none
  | p :: next =>
    if p.payload.length < off then
      if p.totLen < off then none else hideAcross (p.totLen - off) off (p :: next)
    else
      hideHeader off (p :: next)

/-- `pbuf_cat`: the second chain behind the first. -/
def cat (h t : PbufChain) : Option PbufChain :=
  match h with
  | [] => none
  | [p] => if p.totLen = p.payload.length then some ({ p with totLen := p.totLen + totLen t } :: t) else none
  | p :: h => (cat h t).map ({ p with totLen := p.totLen + totLen t } :: ·)

/-- A chain with a pbuf, and `tot_len` of every pbuf the length of the payload from it on. -/
def Lengths : PbufChain → Prop
  | [] => True
  | p :: next => p.totLen = p.payload.length + (bytes next).length ∧ Lengths next

/-- What an operation may assume of a chain, and has to keep. -/
structure WellFormed (c : PbufChain) : Prop where
  nonempty : c ≠ []
  lengths : Lengths c

instance decidableLengths : (c : PbufChain) → Decidable (Lengths c)
  | [] => inferInstanceAs (Decidable True)
  | _ :: next => @instDecidableAnd _ _ inferInstance (decidableLengths next)

instance (c : PbufChain) : Decidable (WellFormed c) :=
  decidable_of_iff (c ≠ [] ∧ Lengths c) ⟨fun h => ⟨h.1, h.2⟩, fun h => ⟨h.1, h.2⟩⟩

@[simp] theorem bytes_nil : bytes [] = [] := rfl

@[simp] theorem bytes_cons (p : Pbuf) (c : PbufChain) : bytes (p :: c) = p.payload ++ bytes c := by
  simp [bytes]

/-- `tot_len` of a chain is the length of its payload. -/
theorem totLen_eq {c : PbufChain} (h : Lengths c) : c.totLen = c.bytes.length := by
  cases c with
  | nil => rfl
  | cons p next => simpa [totLen] using h.1

/-- The pbufs kept by `pbuf_realloc` have the first `remLen` bytes. -/
theorem reallocFrom_spec {shrink remLen : Nat} {c : PbufChain} (h : Lengths c) (hlt : remLen < c.bytes.length)
    (hs : shrink = c.bytes.length - remLen) :
    ∃ c', reallocFrom shrink remLen c = some c' ∧ WellFormed c' ∧ c'.bytes = c.bytes.take remLen := by
  induction c generalizing remLen with
  | nil => simp at hlt
  | cons q next ih =>
    obtain ⟨hq, hn⟩ := h
    simp only [bytes_cons, List.length_append] at hlt hs
    rw [reallocFrom]
    by_cases hl : q.payload.length < remLen
    · obtain ⟨c', h1, h2, h3⟩ := @ih (remLen - q.payload.length) hn (by omega) (by omega)
      refine ⟨{ q with totLen := q.totLen - shrink } :: c', by rw [if_pos hl, h1]; rfl, ⟨by simp, ?_, h2.lengths⟩, ?_⟩
      · rw [h3, List.length_take]
        simp only
        omega
      · rw [bytes_cons, bytes_cons, h3, List.take_append, List.take_of_length_le (Nat.le_of_lt hl)]
    · refine ⟨_, if_neg hl, ⟨by simp, ?_⟩, ?_⟩
      · simp only [Lengths, bytes_nil, List.length_nil, List.length_take, and_true]
        omega
      · rw [bytes_cons, bytes_cons, bytes_nil, List.append_nil, List.take_append_of_le_length (by omega)]

/-- `pbuf_realloc` keeps the first `newLen` bytes. -/
theorem realloc_spec {c : PbufChain} (h : WellFormed c) (newLen : Nat) :
    ∃ c', c.realloc newLen = some c' ∧ WellFormed c' ∧ c'.bytes = c.bytes.take newLen := by
  have ht := totLen_eq h.lengths
  rw [realloc]
  by_cases hl : c.totLen ≤ newLen
  · exact ⟨c, if_pos hl, h, (List.take_of_length_le (by omega)).symm⟩
  · rw [if_neg hl]
    exact reallocFrom_spec h.lengths (by omega) (by omega)

/-- `pbuf_header` hides bytes of the first pbuf. -/
theorem hideHeader_spec {p : Pbuf} {next : PbufChain} (h : Lengths (p :: next)) {off : Nat} (hoff : off ≤ p.payload.length) :
    ∃ c', hideHeader off (p :: next) = some c' ∧ WellFormed c' ∧ c'.bytes = (bytes (p :: next)).drop off := by
  refine ⟨_, if_pos hoff, ⟨by simp, ?_, h.2⟩, ?_⟩
  · have := h.1
    simp only [List.length_drop]
    omega
  · rw [bytes_cons, bytes_cons, List.drop_append_of_le_length hoff]

/-- The loop over the pbufs that are emptied hides `off` bytes. -/
theorem hideAcross_spec {newTotLen off : Nat} {c : PbufChain} (h : Lengths c) (hc : c ≠ []) (hoff : off ≤ c.bytes.length)
    (hn : newTotLen = c.bytes.length - off) :
    ∃ c', hideAcross newTotLen off c = some c' ∧ WellFormed c' ∧ c'.bytes = c.bytes.drop off := by
  induction c generalizing off with
  | nil => exact absurd rfl hc
  | cons p next ih =>
    rw [hideAcross]
    by_cases hl : p.payload.length < off
    · simp only [bytes_cons, List.length_append] at hoff hn
      have hne : next ≠ [] := by
        rintro rfl
        simp only [bytes_nil, List.length_nil] at hoff
        omega
      obtain ⟨c', h1, h2, h3⟩ := @ih (off - p.payload.length) h.2 hne (by omega) (by omega)
      refine ⟨⟨[], newTotLen⟩ :: c', by rw [if_pos hl, h1]; rfl, ⟨by simp, ?_, h2.lengths⟩, ?_⟩
      · simp only [List.length_nil, h3, List.length_drop]
        omega
      · rw [bytes_cons, bytes_cons, h3, List.drop_append, List.drop_of_length_le (Nat.le_of_lt hl)]
    · rw [if_neg hl]
      exact hideHeader_spec h (by omega)

/-- Trimming the first edge hides the first `off` bytes, however they are spread over the pbufs. -/
theorem hide_spec {c : PbufChain} (h : WellFormed c) (off : Nat) (hoff : off ≤ c.bytes.length) :
    ∃ c', c.hide off = some c' ∧ WellFormed c' ∧ c'.bytes = c.bytes.drop off := by
  obtain ⟨hne, hlen⟩ := h
  cases c with
  | nil => exact absurd rfl hne
  | cons p next =>
    rw [hide]
    have ht : p.totLen = (bytes (p :: next)).length := totLen_eq hlen
    by_cases hl : p.payload.length < off
    · rw [if_pos hl, if_neg (by omega)]
      exact hideAcross_spec hlen hne hoff (by omega)
    · rw [if_neg hl]
      exact hideHeader_spec hlen (by omega)

/-- `pbuf_cat` puts the payloads one after the other. -/
theorem cat_spec {h t : PbufChain} (hh : WellFormed h) (ht : Lengths t) :
    ∃ c, h.cat t = some c ∧ WellFormed c ∧ c.bytes = h.bytes ++ t.bytes := by
  obtain ⟨hne, hlen⟩ := hh
  induction h with
  | nil => exact absurd rfl hne
  | cons p h ih =>
    have htot := totLen_eq ht
    obtain ⟨hp, hl⟩ := hlen
    cases h with
    | nil =>
      simp only [bytes_nil, List.length_nil, Nat.add_zero] at hp
      refine ⟨{ p with totLen := p.totLen + totLen t } :: t, by rw [cat, if_pos hp], ⟨by simp, ?_, ht⟩, by simp⟩
      simp only
      omega
    | cons q h =>
      obtain ⟨c, h1, h2, h3⟩ := ih (by simp) hl
      refine ⟨{ p with totLen := p.totLen + totLen t } :: c, by rw [cat, h1]; rfl; simp, ⟨by simp, ?_, h2.lengths⟩, ?_⟩
      · rw [h3, List.length_append]
        simp only
        omega
      · rw [bytes_cons, h3, bytes_cons p, List.append_assoc]

end PbufChain

end PsiphonAndroid
