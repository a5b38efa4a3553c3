import PsiphonAndroid.Lib.Transition
import PsiphonAndroid.Lib.Window
import Mathlib.Data.BitVec

/-!
# Data transfer statistics

`DataTransferStats`: how many bytes were sent and received in the last periods, in buckets of five minutes and of one second. The
buckets are shifted by whichever call comes next (`manageBuckets`), a call that adds bytes or one that reads a series. A Java `long`
is a `BitVec 64`, a time is the number of milliseconds that `elapsedRealtime` gives. Beside its fields an object carries the last time
it was called at, the time of the last reset or `manageBuckets`, and what was added since the last reset.
-/

namespace PsiphonAndroid

open Lib

/-- `SLOW_BUCKET_PERIOD_MILLISECONDS`. -/
abbrev slowBucketPeriodMilliseconds : Nat := 5 * 60 * 1000

/-- `FAST_BUCKET_PERIOD_MILLISECONDS`. -/
abbrev fastBucketPeriodMilliseconds : Nat := 1000

/-- `MAX_BUCKETS`. -/
abbrev maxBuckets : Nat := 24 * 60 / 5

/-- `Bucket`. -/
structure Bucket where
  bytesSent : BitVec 64
  bytesReceived : BitVec 64
  deriving DecidableEq

/-- `new Bucket()`. -/
def Bucket.new : Bucket := ⟨0, 0⟩

/-- A list of buckets and the start of the period of its last one: `m_slowBuckets` with `m_slowBucketsLastStartTime`, or
`m_fastBuckets` with `m_fastBucketsLastStartTime`. -/
structure Buckets where
  buckets : List Bucket
  lastStartTime : Nat
  deriving DecidableEq

/-- Bytes that were added, and when. -/
structure Addition where
  time : Nat
  sent : BitVec 64
  received : BitVec 64
  deriving DecidableEq

/-- The fields of `DataTransferStatsBase`; the last three are history. -/
structure DataTransferStats where
  connectedTime : Nat
  totalBytesSent : BitVec 64
  totalBytesReceived : BitVec 64
  slow : Buckets
  fast : Buckets
  clock : Nat
  managedAt : Nat
  added : List Addition

/-- `bucketStartTime`. -/
def bucketStartTime (now period : Nat) : Nat := period * (now / period)

/-- `newBuckets`. -/
def newBuckets : List Bucket := List.replicate maxBuckets .new

/-- One turn of the loop of `shiftBuckets`. -/
def shiftBucket (buckets : List Bucket) : List Bucket :=
  let buckets := buckets ++ [.new]
  if maxBuckets ≤ buckets.length then buckets.tail else buckets

/-- `shiftBuckets`. The counter is an `int`: the loop ends only if it has fewer than 2^31 turns. -/
def shiftBuckets (diff period : Nat) (buckets : List Bucket) : Option (List Bucket) :=
  if diff / period + 1 < 2 ^ 31 then some (shiftBucket^[diff / period + 1] buckets) else none

/-- `manageBuckets` for one of the lists. -/
def Buckets.manage (b : Buckets) (now period : Nat) : Option Buckets :=
  let diff := now - b.lastStartTime
  if period ≤ diff then (shiftBuckets diff period b.buckets).map fun buckets => ⟨buckets, bucketStartTime now period⟩
  else some b

/-- The buckets after a reset. -/
def Buckets.reset (now period : Nat) : Buckets := ⟨newBuckets, bucketStartTime now period⟩

/-- The change of the last bucket in `addSentToBuckets` and `addReceivedToBuckets`. -/
def Buckets.addToLast (b : Buckets) (add : Bucket → Bucket) : Buckets :=
  { b with buckets := b.buckets.modify (b.buckets.length - 1) add }

/-- A call. The four series are read the same way. -/
inductive StatsEvent where
  | startSession (now : Nat)
  | startConnected (now : Nat)
  | stop (now : Nat)
  | addBytesSent (now : Nat) (bytes : BitVec 64)
  | addBytesReceived (now : Nat) (bytes : BitVec 64)
  | getSeries (now : Nat)
  deriving DecidableEq

/-- The time of a call. -/
def StatsEvent.now : StatsEvent → Nat
  | .startSession now | .startConnected now | .stop now | .addBytesSent now _ | .addBytesReceived now _ | .getSeries now => now

namespace DataTransferStats

/-- `resetBytesTransferred`. -/
def resetBytesTransferred (s : DataTransferStats) (now : Nat) : DataTransferStats :=
  { s with
    slow := .reset now slowBucketPeriodMilliseconds
    fast := .reset now fastBucketPeriodMilliseconds
    managedAt := now
    added := [] }

/-- `stop`. -/
def stop (s : DataTransferStats) (now : Nat) : DataTransferStats := { s with connectedTime := 0 }.resetBytesTransferred now

/-- The constructor, which calls `stop`. -/
def new (now : Nat) : DataTransferStats :=
  stop ⟨0, 0, 0, ⟨[], 0⟩, ⟨[], 0⟩, now, now, []⟩ now

/-- `manageBuckets`. -/
def manageBuckets (s : DataTransferStats) (now : Nat) : Option DataTransferStats := do
  let slow ← s.slow.manage now slowBucketPeriodMilliseconds
  let fast ← s.fast.manage now fastBucketPeriodMilliseconds
  return { s with
    slow := slow
    fast := fast
    managedAt := now }

/-- `addSentToBuckets` or `addReceivedToBuckets`. -/
def addToBuckets (s : DataTransferStats) (add : Bucket → Bucket) : DataTransferStats :=
  { s with
    slow := s.slow.addToLast add
    fast := s.fast.addToLast add }

/-- `addBytesSent`. -/
def addBytesSent (s : DataTransferStats) (now : Nat) (bytes : BitVec 64) : Option DataTransferStats := do
  let s ← { s with totalBytesSent := s.totalBytesSent + bytes }.manageBuckets now
  return { s.addToBuckets fun b => { b with bytesSent := b.bytesSent + bytes } with added := s.added ++ [⟨now, bytes, 0⟩] }

/-- `addBytesReceived`. -/
def addBytesReceived (s : DataTransferStats) (now : Nat) (bytes : BitVec 64) : Option DataTransferStats := do
  let s ← { s with totalBytesReceived := s.totalBytesReceived + bytes }.manageBuckets now
  return { s.addToBuckets fun b => { b with bytesReceived := b.bytesReceived + bytes } with added := s.added ++ [⟨now, 0, bytes⟩] }

/-- One call; a call that does not return is no step. -/
def call (s : DataTransferStats) : StatsEvent → Option DataTransferStats
  | .startSession now => some (s.resetBytesTransferred now)
  | .startConnected now => some { s with connectedTime := now }
  | .stop now => some (s.stop now)
  | .addBytesSent now bytes => s.addBytesSent now bytes
  | .addBytesReceived now bytes => s.addBytesReceived now bytes
  | .getSeries now => s.manageBuckets now

/-- One call, at a time that is not before the last one. -/
def step (s : DataTransferStats) (e : StatsEvent) : Option DataTransferStats :=
  if s.clock ≤ e.now then { s with clock := e.now }.call e else none

end DataTransferStats

/-- The statistics under every sequence of calls and every clock that does not go back. -/
def dataTransferStats : System DataTransferStats StatsEvent where
  init s := ∃ now, s = .new now
  step := DataTransferStats.step

end PsiphonAndroid
