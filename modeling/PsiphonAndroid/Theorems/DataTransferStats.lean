import Mathlib
import PsiphonAndroid.Stats.DataTransferStats

/-!
# The data transfer statistics as windows

Each list of buckets has `MAX_BUCKETS` entries, always. A call that finds `k` periods gone by shifts the buckets by `k + 1`: the
list is then the window that ends one period ahead. So the entries are the sums of the last aligned periods in every run in which
whatever is shifted within the window is empty.
-/

namespace PsiphonAndroid

open Lib

/-! ## The sums -/

/-- The number of the aligned period of a time. -/
def periodNumber (time period : Nat) : Int := (time / period : Nat)

/-- The bytes that were added in the aligned period with number `q`, in one direction. -/
def bytesIn (amount : Addition → BitVec 64) (added : List Addition) (period : Nat) (q : Int) : BitVec 64 :=
  ((added.filter fun a => periodNumber a.time period = q).map amount).sum

/-- The same in both directions. -/
def bucketIn (added : List Addition) (period : Nat) (q : Int) : Bucket :=
  ⟨bytesIn Addition.sent added period q, bytesIn Addition.received added period q⟩

/-- At `now`, where `k` periods have gone by, the newest `MAX_BUCKETS - k` buckets are empty. -/
def Buckets.FoundEmpty (b : Buckets) (now period : Nat) : Prop :=
  period ≤ now - b.lastStartTime → ∀ x ∈ b.buckets.drop ((now - b.lastStartTime) / period), x = .new

/-- A call that shifts buckets finds those empty that stay in the window. -/
def DataTransferStats.FoundEmpty (s : DataTransferStats) : StatsEvent → Prop
  | .addBytesSent now _ | .addBytesReceived now _ | .getSeries now =>
    s.slow.FoundEmpty now slowBucketPeriodMilliseconds ∧ s.fast.FoundEmpty now fastBucketPeriodMilliseconds
  | _ => True

namespace DataTransferStatsAux

theorem bytesIn_snoc (amount : Addition → BitVec 64) (added : List Addition) (a : Addition) (period : Nat) (q : Int) :
    bytesIn amount (added ++ [a]) period q =
      bytesIn amount added period q + if periodNumber a.time period = q then amount a else 0 := by
  unfold bytesIn
  rw [List.filter_append, List.map_append, List.sum_append]
  by_cases h : periodNumber a.time period = q
  · simp [h]
  · simp [h]

/-- A period in which nothing was added. -/
theorem bucketIn_eq_new {added : List Addition} {period : Nat} {q : Int} (h : ∀ a ∈ added, periodNumber a.time period ≠ q) :
    bucketIn added period q = .new := by
  have hnone : (added.filter fun a => periodNumber a.time period = q) = [] := by
    rw [List.filter_eq_nil_iff]
    intro a ha
    simp [h a ha]
  simp [bucketIn, bytesIn, hnone, Bucket.new]

/-! ## One list -/

/-- A list of buckets holds the sums up to the period of `t`. -/
structure Windows (b : Buckets) (added : List Addition) (period t : Nat) : Prop where
  aligned : b.lastStartTime = bucketStartTime t period
  entries : b.buckets = window maxBuckets (bucketIn added period) (periodNumber t period)
  past : ∀ a ∈ added, periodNumber a.time period ≤ periodNumber t period

variable {b b' : Buckets} {added : List Addition} {period t now : Nat}

theorem windows_reset (now period : Nat) : Windows (.reset now period) [] period now where
  aligned := rfl
  entries := by
    have hnew : window maxBuckets (bucketIn [] period) (periodNumber now period) =
        window maxBuckets (fun _ => .new) (periodNumber now period) := by
      refine window_congr fun i _ => ?_
      exact bucketIn_eq_new (by simp)
    rw [hnew]
    simp [Buckets.reset, newBuckets, window]
  past := by simp

/-- The number of periods gone by since the start of the list. -/
theorem Windows.gone (h : Windows b added period t) (now : Nat) : (now - b.lastStartTime) / period = now / period - t / period := by
  rw [h.aligned, bucketStartTime, Nat.sub_mul_div]

/-- Nothing was added after the period of the last bucket. -/
theorem Windows.future (h : Windows b added period t) {q : Int} (hq : periodNumber t period < q) : bucketIn added period q = .new := by
  refine bucketIn_eq_new fun a ha => ?_
  have := h.past a ha
  omega

/-- One turn of the loop moves the window on, where the next period is empty. -/
theorem shiftBucket_window {f : Int → Bucket} {q : Int} (h : f (q + 1) = .new) :
    shiftBucket (window maxBuckets f q) = window maxBuckets f (q + 1) := by
  have hslide := window_slide (maxBuckets - 1) f q
  rw [h] at hslide
  unfold shiftBucket
  dsimp only
  rw [if_pos (by simp), List.tail_append_of_ne_nil (by rw [← List.length_pos_iff, length_window]; decide)]
  exact hslide

theorem shiftBucket_iterate {f : Int → Bucket} {q : Int} (h : ∀ r, q < r → f r = .new) (n : Nat) :
    shiftBucket^[n] (window maxBuckets f q) = window maxBuckets f (q + n) := by
  induction n with
  | zero => simp
  | succ n ih =>
    rw [Function.iterate_succ_apply', ih, shiftBucket_window (h _ (by omega))]
    congr 1
    push_cast
    omega

/-- The window that ends one period ahead is empty, and so is the one that does not. -/
theorem Windows.empty (h : Windows b added period t) (hle : t / period ≤ now / period)
    (hempty : ∀ x ∈ b.buckets.drop (now / period - t / period), x = .new) {q : Int} (hq : periodNumber now period - maxBuckets < q) :
    bucketIn added period q = .new := by
  by_cases hfuture : periodNumber t period < q
  · exact h.future hfuture
  · obtain ⟨j, hj⟩ : ∃ j : Nat, q = periodNumber t period - j := ⟨(periodNumber t period - q).toNat, by omega⟩
    subst hj
    refine hempty _ ?_
    rw [h.entries]
    refine mem_drop_window ?_ _ _
    simp only [periodNumber] at hq
    omega

/-- `manageBuckets` that shifts what is empty. -/
theorem Windows.manage (h : Windows b added period t) (hp : 0 < period) (hle : t ≤ now) (hempty : b.FoundEmpty now period)
    (hm : b.manage now period = some b') : Windows b' added period now := by
  have hnumber : t / period ≤ now / period := Nat.div_le_div_right hle
  have hpast : ∀ a ∈ added, periodNumber a.time period ≤ periodNumber now period := by
    intro a ha
    have := h.past a ha
    simp only [periodNumber] at this ⊢
    omega
  have hgone := h.gone now
  unfold Buckets.manage at hm
  dsimp only at hm
  split at hm
  · rename_i hdiff
    have hnew : ∀ q, periodNumber now period - maxBuckets < q → bucketIn added period q = .new := by
      intro q hq
      exact h.empty hnumber (hgone ▸ hempty hdiff) hq
    unfold shiftBuckets at hm
    rw [Option.map_eq_some_iff] at hm
    obtain ⟨buckets, hshift, rfl⟩ := hm
    rw [Option.ite_none_right_eq_some] at hshift
    obtain ⟨-, ⟨⟩⟩ := hshift
    refine ⟨rfl, ?_, hpast⟩
    dsimp only
    rw [h.entries, shiftBucket_iterate fun r hr => h.future hr]
    refine window_congr fun i hi => ?_
    rw [hnew _ (by rw [hgone]; simp only [periodNumber]; omega), hnew _ (by omega)]
  · rename_i hdiff
    obtain rfl := Option.some.inj hm
    have hsame : now / period = t / period := by
      have := Nat.div_eq_of_lt (Nat.lt_of_not_le hdiff)
      omega
    refine ⟨?_, ?_, hpast⟩
    · rw [h.aligned, bucketStartTime, bucketStartTime, hsame]
    · rw [h.entries, periodNumber, periodNumber, hsame]

/-- Bytes are added to the last bucket. -/
theorem Windows.add (h : Windows b added period t) {a : Addition} (ha : a.time = t) :
    Windows (b.addToLast fun x => ⟨x.bytesSent + a.sent, x.bytesReceived + a.received⟩) (added ++ [a]) period t where
  aligned := h.aligned
  entries := by
    have hmodify := window_modify (maxBuckets - 1) (bucketIn added period) (periodNumber t period)
      fun x => ⟨x.bytesSent + a.sent, x.bytesReceived + a.received⟩
    simp only [Buckets.addToLast, h.entries, length_window]
    refine hmodify.trans (window_congr fun i _ => ?_)
    by_cases hi : i = 0
    · subst hi
      simp [bucketIn, bytesIn_snoc, ha]
    · rw [Function.update_of_ne (by omega)]
      have hne : periodNumber t period ≠ periodNumber t period - i := by omega
      simp [bucketIn, bytesIn_snoc, ha, hne]
  past := by
    intro x hx
    rcases List.mem_append.mp hx with hx | hx
    · exact h.past x hx
    · rw [List.mem_singleton.mp hx, ha]

/-! ## The statistics -/

/-- Both lists hold the sums up to the last reset or `manageBuckets`. -/
structure Inv (s : DataTransferStats) : Prop where
  slow : Windows s.slow s.added slowBucketPeriodMilliseconds s.managedAt
  fast : Windows s.fast s.added fastBucketPeriodMilliseconds s.managedAt
  time : s.managedAt ≤ s.clock

variable {s s' : DataTransferStats}

theorem inv_reset (s : DataTransferStats) {now : Nat} (hnow : now ≤ s.clock) : Inv (s.resetBytesTransferred now) where
  slow := windows_reset ..
  fast := windows_reset ..
  time := hnow

/-- What `manageBuckets` does. -/
theorem manageBuckets_cases (h : s.manageBuckets now = some s') :
    ∃ slow fast, s.slow.manage now slowBucketPeriodMilliseconds = some slow ∧
      s.fast.manage now fastBucketPeriodMilliseconds = some fast ∧ s' = { s with
        slow := slow
        fast := fast
        managedAt := now } := by
  unfold DataTransferStats.manageBuckets at h
  simp only [Option.bind_eq_bind, Option.bind_eq_some_iff] at h
  obtain ⟨slow, hslow, fast, hfast, ⟨⟩⟩ := h
  exact ⟨slow, fast, hslow, hfast, rfl⟩

theorem Inv.manageBuckets (h : Inv s) (hnow : s.managedAt ≤ now) (hclock : now ≤ s.clock)
    (hslow : s.slow.FoundEmpty now slowBucketPeriodMilliseconds) (hfast : s.fast.FoundEmpty now fastBucketPeriodMilliseconds)
    (hm : s.manageBuckets now = some s') : Inv s' ∧ s'.managedAt = now := by
  obtain ⟨slow, fast, hs, hf, rfl⟩ := manageBuckets_cases hm
  exact ⟨⟨h.slow.manage (by decide) hnow hslow hs, h.fast.manage (by decide) hnow hfast hf, hclock⟩, rfl⟩

/-- Bytes are added to both lists. -/
theorem Inv.add (h : Inv s) {a : Addition} (ha : a.time = s.managedAt) :
    Inv { s.addToBuckets fun x => ⟨x.bytesSent + a.sent, x.bytesReceived + a.received⟩ with added := s.added ++ [a] } where
  slow := h.slow.add ha
  fast := h.fast.add ha
  time := h.time

/-- One call that finds empty what it shifts. -/
theorem Inv.step {e : StatsEvent} (h : Inv s) (hempty : s.FoundEmpty e) (hs : s.step e = some s') : Inv s' := by
  unfold DataTransferStats.step at hs
  rw [Option.ite_none_right_eq_some] at hs
  obtain ⟨hclock, hcall⟩ := hs
  have htime := Nat.le_trans h.time hclock
  have hnow : Inv { s with clock := e.now } := ⟨h.slow, h.fast, htime⟩
  cases e with
  | startSession now =>
    obtain rfl := Option.some.inj hcall
    exact inv_reset _ (Nat.le_refl _)
  | startConnected now =>
    obtain rfl := Option.some.inj hcall
    exact ⟨h.slow, h.fast, htime⟩
  | stop now =>
    obtain rfl := Option.some.inj hcall
    exact inv_reset _ (Nat.le_refl _)
  | getSeries now => exact (hnow.manageBuckets htime (Nat.le_refl _) hempty.1 hempty.2 hcall).1
  | addBytesSent now bytes =>
    unfold DataTransferStats.call DataTransferStats.addBytesSent at hcall
    simp only [Option.bind_eq_bind, Option.bind_eq_some_iff] at hcall
    obtain ⟨s1, hm, ⟨⟩⟩ := hcall
    have htotal : Inv { s with
        clock := now
        totalBytesSent := s.totalBytesSent + bytes } := ⟨h.slow, h.fast, htime⟩
    obtain ⟨h1, hat⟩ := htotal.manageBuckets htime (Nat.le_refl _) hempty.1 hempty.2 hm
    have hadd := h1.add (a := ⟨now, bytes, 0⟩) hat.symm
    simpa using hadd
  | addBytesReceived now bytes =>
    unfold DataTransferStats.call DataTransferStats.addBytesReceived at hcall
    simp only [Option.bind_eq_bind, Option.bind_eq_some_iff] at hcall
    obtain ⟨s1, hm, ⟨⟩⟩ := hcall
    have htotal : Inv { s with
        clock := now
        totalBytesReceived := s.totalBytesReceived + bytes } := ⟨h.slow, h.fast, htime⟩
    obtain ⟨h1, hat⟩ := htotal.manageBuckets htime (Nat.le_refl _) hempty.1 hempty.2 hm
    have hadd := h1.add (a := ⟨now, 0, bytes⟩) hat.symm
    simpa using hadd

/-- Every run that finds empty what it shifts. -/
theorem inv_of_run {es : List StatsEvent} (h : dataTransferStats.RunWhere DataTransferStats.FoundEmpty es s) : Inv s := by
  refine h.invariant (fun _ s => Inv s) ?_ ?_
  · rintro s ⟨now, rfl⟩
    exact inv_reset _ (Nat.le_refl _)
  · intro _ s e s' hi hempty hs
    exact hi.step hempty hs

/-! ## The lengths -/

/-- One turn of the loop keeps the length. -/
theorem length_shiftBucket {buckets : List Bucket} (h : buckets.length = maxBuckets) : (shiftBucket buckets).length = maxBuckets := by
  simp [shiftBucket, h]

theorem length_iterate {buckets : List Bucket} (h : buckets.length = maxBuckets) (n : Nat) :
    (shiftBucket^[n] buckets).length = maxBuckets := by
  induction n with
  | zero => exact h
  | succ n ih =>
    rw [Function.iterate_succ_apply']
    exact length_shiftBucket ih

theorem length_manage (h : b.buckets.length = maxBuckets) (hm : b.manage now period = some b') : b'.buckets.length = maxBuckets := by
  unfold Buckets.manage shiftBuckets at hm
  dsimp only at hm
  split at hm
  · rw [Option.map_eq_some_iff] at hm
    obtain ⟨buckets, hshift, rfl⟩ := hm
    rw [Option.ite_none_right_eq_some] at hshift
    obtain ⟨-, ⟨⟩⟩ := hshift
    exact length_iterate h _
  · obtain rfl := Option.some.inj hm
    exact h

/-- Both lists are full. -/
def Full (s : DataTransferStats) : Prop := s.slow.buckets.length = maxBuckets ∧ s.fast.buckets.length = maxBuckets

theorem Full.manageBuckets (h : Full s) (hm : s.manageBuckets now = some s') : Full s' := by
  obtain ⟨slow, fast, hs, hf, rfl⟩ := manageBuckets_cases hm
  exact ⟨length_manage h.1 hs, length_manage h.2 hf⟩

theorem Full.addToBuckets (h : Full s) (add : Bucket → Bucket) : Full (s.addToBuckets add) := by
  simpa [Full, DataTransferStats.addToBuckets, Buckets.addToLast] using h

theorem Full.step {e : StatsEvent} (h : Full s) (hs : s.step e = some s') : Full s' := by
  unfold DataTransferStats.step at hs
  rw [Option.ite_none_right_eq_some] at hs
  obtain ⟨-, hcall⟩ := hs
  cases e with
  | startSession now | stop now =>
    obtain rfl := Option.some.inj hcall
    exact ⟨List.length_replicate, List.length_replicate⟩
  | startConnected now =>
    obtain rfl := Option.some.inj hcall
    exact h
  | getSeries now => exact Full.manageBuckets (by exact h) hcall
  | addBytesSent now bytes =>
    unfold DataTransferStats.call DataTransferStats.addBytesSent at hcall
    simp only [Option.bind_eq_bind, Option.bind_eq_some_iff] at hcall
    obtain ⟨s1, hm, ⟨⟩⟩ := hcall
    exact (Full.manageBuckets (by exact h) hm).addToBuckets _
  | addBytesReceived now bytes =>
    unfold DataTransferStats.call DataTransferStats.addBytesReceived at hcall
    simp only [Option.bind_eq_bind, Option.bind_eq_some_iff] at hcall
    obtain ⟨s1, hm, ⟨⟩⟩ := hcall
    exact (Full.manageBuckets (by exact h) hm).addToBuckets _

theorem full_of_reach (h : dataTransferStats.Reach s) : Full s := by
  refine h.invariant Full ?_ ?_
  · rintro s ⟨now, rfl⟩
    exact ⟨List.length_replicate, List.length_replicate⟩
  · intro s e s' hi hs
    exact hi.step hs

end DataTransferStatsAux

open DataTransferStatsAux

/-- The data transfer statistics, for every clock that does not go back:

1. in every run both lists have exactly `MAX_BUCKETS` entries;
2. in every run in which each call finds those buckets empty that it shifts within the window, the `i`-th entry from the end is,
   in each direction, the sum of the bytes added since the last reset in the aligned period `i` before that of the last reset or
   `manageBuckets`, whatever was read in between. -/
theorem buckets_are_windows (es : List StatsEvent) (s : DataTransferStats) :
    (dataTransferStats.Reach s → s.slow.buckets.length = maxBuckets ∧ s.fast.buckets.length = maxBuckets) ∧
    (dataTransferStats.RunWhere DataTransferStats.FoundEmpty es s → ∀ i < maxBuckets,
      s.slow.buckets.reverse[i]? =
        some (bucketIn s.added slowBucketPeriodMilliseconds (periodNumber s.managedAt slowBucketPeriodMilliseconds - i)) ∧
      s.fast.buckets.reverse[i]? =
        some (bucketIn s.added fastBucketPeriodMilliseconds (periodNumber s.managedAt fastBucketPeriodMilliseconds - i))) := by
  refine ⟨fun h => full_of_reach h, ?_⟩
  intro h i hi
  have hinv := inv_of_run h
  rw [hinv.slow.entries, hinv.fast.entries]
  exact ⟨getElem?_reverse_window hi .., getElem?_reverse_window hi ..⟩

namespace DataTransferStatsAux

instance (b : Buckets) (now period : Nat) : Decidable (b.FoundEmpty now period) :=
  inferInstanceAs (Decidable (period ≤ now - b.lastStartTime → ∀ x ∈ b.buckets.drop ((now - b.lastStartTime) / period), x = .new))

instance (s : DataTransferStats) : (e : StatsEvent) → Decidable (s.FoundEmpty e)
  | .addBytesSent now _ | .addBytesReceived now _ | .getSeries now =>
    inferInstanceAs (Decidable (s.slow.FoundEmpty now slowBucketPeriodMilliseconds ∧ s.fast.FoundEmpty now fastBucketPeriodMilliseconds))
  | .startSession _ | .startConnected _ | .stop _ => .isTrue trivial

/-- Bytes are sent when the first second is over, and received when all the buckets of that time are out of the fast window. -/
def overBoundaries : List StatsEvent := [.addBytesSent 1000 5, .getSeries 1999, .addBytesReceived 290000 7, .getSeries 290500]

end DataTransferStatsAux

/-- Both are in the first five minutes, and only the second is in the last of the fast buckets. -/
theorem buckets_are_windows_boundaries : ∃ s, dataTransferStats.RunWhere DataTransferStats.FoundEmpty overBoundaries s ∧
    s.managedAt = 290500 ∧ s.slow.buckets.reverse[0]? = some ⟨5, 7⟩ ∧ s.fast.buckets.reverse[0]? = some ⟨0, 7⟩ := by
  have h0 : dataTransferStats.RunWhere DataTransferStats.FoundEmpty [] (.new 0) := .init ⟨0, rfl⟩
  have hexec : (dataTransferStats.execWhere DataTransferStats.FoundEmpty (.new 0) overBoundaries).map
      (fun s => (s.managedAt, s.added)) = some (290500, [⟨1000, 5, 0⟩, ⟨290000, 0, 7⟩]) := by decide +kernel
  obtain ⟨s, hs, hend⟩ := Option.map_eq_some_iff.1 hexec
  have h := h0.execWhere hs
  obtain ⟨hmanaged, hadded⟩ := Prod.mk.inj hend
  obtain ⟨hslow, hfast⟩ := (buckets_are_windows _ s).2 h 0 (by decide)
  rw [hmanaged, hadded] at hslow hfast
  exact ⟨s, h, hmanaged, hslow.trans (by decide +kernel), hfast.trans (by decide +kernel)⟩

/-- Five bytes in the first second, read in the next one: the bucket of the first second is empty, and the bytes stand in the one
before it. -/
theorem bytes_are_shifted_too_far : ∃ s, dataTransferStats.Reach s ∧ s.managedAt = 1000 ∧
    bucketIn s.added fastBucketPeriodMilliseconds (periodNumber s.managedAt fastBucketPeriodMilliseconds - 1) = ⟨5, 0⟩ ∧
    s.fast.buckets.reverse[1]? = some ⟨0, 0⟩ ∧ s.fast.buckets.reverse[2]? = some ⟨5, 0⟩ := by
  have h0 : dataTransferStats.Run [] (.new 0) := .init ⟨0, rfl⟩
  have h1 := h0.step (e := .addBytesSent 0 5) rfl
  have h2 := h1.step (e := .getSeries 1000) rfl
  exact ⟨_, ⟨_, h2⟩, rfl, by decide +kernel, by decide +kernel, by decide +kernel⟩

end PsiphonAndroid
