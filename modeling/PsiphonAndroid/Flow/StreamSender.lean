import PsiphonAndroid.Lib.Bytes
import PsiphonAndroid.Lib.Transition

/-!
# Flow interfaces and the stream sender

`flow/PacketPassInterface.h`, `flow/StreamPassInterface.h` and `flow/PacketStreamSender.c`. An interface joins a user and a
provider: the user's `Send` sets a job that hands the data to the provider, the provider's `Done` sets a job that tells the user.
Both jobs stay pending until the reactor runs them, so anything may happen in between. `PacketStreamSender` provides a packet
interface on top of a stream interface, which may take a packet in pieces.
-/

namespace PsiphonAndroid

open Lib

/-- `PPI_STATE_*` and `SPI_STATE_*`. -/
inductive IfState where
  | none
  | operationPending
  | busy
  | donePending
  deriving DecidableEq, Repr

/-- `PacketPassInterface`: its state, and the data of the operation job. -/
structure PacketPassInterface where
  state : IfState
  jobOperationData : Bytes
  deriving DecidableEq, Repr

namespace PacketPassInterface

/-- `PacketPassInterface_Init`. -/
def init : PacketPassInterface := { state := .none, jobOperationData := [] }

/-- `PacketPassInterface_Sender_Send`. -/
def senderSend (i : PacketPassInterface) (data : Bytes) : PacketPassInterface :=
  { i with jobOperationData := data, state := .operationPending }

/-- `PacketPassInterface_Done`. -/
def done (i : PacketPassInterface) : PacketPassInterface := { i with state := .donePending }

end PacketPassInterface

/-- `StreamPassInterface`: its state, the data of the operation job and the length of the done job. -/
structure StreamPassInterface where
  state : IfState
  jobOperationData : Bytes
  jobDoneLen : Nat
  deriving DecidableEq, Repr

namespace StreamPassInterface

/-- `StreamPassInterface_Init`. -/
def init : StreamPassInterface := { state := .none, jobOperationData := [], jobDoneLen := 0 }

/-- `StreamPassInterface_Sender_Send`. -/
def senderSend (i : StreamPassInterface) (data : Bytes) : StreamPassInterface :=
  { i with jobOperationData := data, state := .operationPending }

/-- `StreamPassInterface_Done`. -/
def done (i : StreamPassInterface) (dataLen : Nat) : StreamPassInterface :=
  { i with jobDoneLen := dataLen, state := .donePending }

end StreamPassInterface

/-- `PacketStreamSender`, with the stream interface it sends to; `inPacket` is `none` where the source has `in_len == -1`. -/
structure PacketStreamSender where
  input : PacketPassInterface
  output : StreamPassInterface
  inPacket : Option Bytes
  inUsed : Nat
  deriving DecidableEq, Repr

namespace PacketStreamSender

/-- `PacketStreamSender_Init` on a new stream interface. -/
def init : PacketStreamSender := { input := .init, output := .init, inPacket := none, inUsed := 0 }

/-- `send_data`. -/
def sendData (s : PacketStreamSender) : PacketStreamSender :=
  match s.inPacket with
  | none => s
  | some inp =>
    if s.inUsed < inp.length then { s with output := s.output.senderSend (inp.drop s.inUsed) }
    else { s with inPacket := none, input := s.input.done }

/-- `input_handler_send`. -/
def inputHandlerSend (s : PacketStreamSender) (data : Bytes) : PacketStreamSender :=
  sendData { s with inPacket := some data, inUsed := 0 }

/-- `output_handler_done`. -/
def outputHandlerDone (s : PacketStreamSender) (dataLen : Nat) : PacketStreamSender :=
  sendData { s with inUsed := s.inUsed + dataLen }

/-- The user's `PacketPassInterface_Sender_Send` on the sender's input. -/
def submit (s : PacketStreamSender) (data : Bytes) : PacketStreamSender := { s with input := s.input.senderSend data }

/-- What can happen between a `submit` and the report that the packet is done: the operation job of the input or of the output
runs, the stream takes `n` bytes, the done job of the output runs. -/
inductive Event where
  | runInput
  | runOutput
  | transfer (n : Nat)
  | runOutputDone
  deriving DecidableEq, Repr

/-- One event, with the bytes the stream takes in it. -/
def step (s : PacketStreamSender) : Event → Option (PacketStreamSender × Bytes)
  | .runInput =>
    if s.input.state = .operationPending then
      some (inputHandlerSend { s with input := { s.input with state := .busy } } s.input.jobOperationData, [])
    else none
  | .runOutput =>
    if s.output.state = .operationPending then some ({ s with output := { s.output with state := .busy } }, []) else none
  | .transfer n =>
    if s.output.state = .busy ∧ 0 < n ∧ n ≤ s.output.jobOperationData.length then
      some ({ s with output := s.output.done n }, s.output.jobOperationData.take n)
    else none
  | .runOutputDone =>
    if s.output.state = .donePending then
      some (outputHandlerDone { s with output := { s.output with state := .none } } s.output.jobDoneLen, [])
    else none

/-- The done job of the input runs, before the user's handler is called. -/
def runDone (s : PacketStreamSender) : Option PacketStreamSender :=
  if s.input.state = .donePending then some { s with input := { s.input with state := .none } } else none

/-- The sender has no packet. -/
structure Idle (s : PacketStreamSender) : Prop where
  input : s.input.state = .none
  packet : s.inPacket = none
  output : s.output.state = .none

/-- The sender has been given the packet `p`, of which the stream has taken `part`. -/
inductive Carries (s : PacketStreamSender) (p : Bytes) : Bytes → Prop where
  | queued (hi : s.input.state = .operationPending) (hd : s.input.jobOperationData = p) (hp : s.inPacket = none)
      (ho : s.output.state = .none) : Carries s p []
  | offered (hi : s.input.state = .busy) (hp : s.inPacket = some p)
      (ho : s.output.state = .operationPending ∨ s.output.state = .busy) (hd : s.output.jobOperationData = p.drop s.inUsed)
      (hl : s.inUsed < p.length) : Carries s p (p.take s.inUsed)
  | taken (hi : s.input.state = .busy) (hp : s.inPacket = some p) (ho : s.output.state = .donePending)
      (hn : 0 < s.output.jobDoneLen) (hl : s.inUsed + s.output.jobDoneLen ≤ p.length) :
      Carries s p (p.take (s.inUsed + s.output.jobDoneLen))
  | finished (hi : s.input.state = .donePending) (hp : s.inPacket = none) (ho : s.output.state = .none) : Carries s p p

theorem Idle.submit {s : PacketStreamSender} (h : s.Idle) (p : Bytes) : (s.submit p).Carries p [] :=
  .queued rfl rfl h.packet h.output

theorem idle_init : init.Idle := ⟨rfl, rfl, rfl⟩

/-- An idle sender takes no step of its own. -/
theorem Idle.step_eq_none {s : PacketStreamSender} (h : s.Idle) (e : Event) : s.step e = none := by
  cases e <;> simp [step, h.input, h.output]

/-- An idle sender has nothing to report. -/
theorem Idle.runDone_eq_none {s : PacketStreamSender} (h : s.Idle) : s.runDone = none := by
  simp [runDone, h.input]

/-- What `send_data` leaves: the rest of the packet is offered, or the packet is done. -/
theorem sendData_carries {s : PacketStreamSender} {p : Bytes} (hi : s.input.state = .busy) (hp : s.inPacket = some p)
    (ho : s.output.state = .none) (hl : s.inUsed ≤ p.length) : (sendData s).Carries p (p.take s.inUsed) := by
  unfold sendData
  simp only [hp]
  split
  · rename_i hlt
    exact .offered hi rfl (Or.inl rfl) rfl hlt
  · rename_i hge
    rw [List.take_of_length_le (by omega)]
    exact .finished rfl rfl ho

/-- The stream takes the packet from the front, byte by byte. -/
theorem step_carries {s s' : PacketStreamSender} {p part wire : Bytes} {e : Event} (h : s.Carries p part)
    (hs : s.step e = some (s', wire)) : s'.Carries p (part ++ wire) := by
  cases h with
  | queued hi hd hp ho =>
    cases e with
    | runInput =>
      rw [step, if_pos hi] at hs
      obtain ⟨rfl, rfl⟩ := Prod.mk.inj (Option.some.inj hs)
      rw [hd]
      exact sendData_carries rfl rfl ho (Nat.zero_le _)
    | _ => simp [step, ho] at hs
  | offered hi hp ho hd hl =>
    cases e with
    | runInput => simp [step, hi] at hs
    | runOutput =>
      simp only [step, Option.ite_none_right_eq_some] at hs
      obtain ⟨rfl, rfl⟩ := Prod.mk.inj (Option.some.inj hs.2)
      rw [List.append_nil]
      exact .offered hi hp (Or.inr rfl) hd hl
    | transfer n =>
      simp only [step, Option.ite_none_right_eq_some] at hs
      obtain ⟨⟨hb, hn, hnl⟩, hs⟩ := hs
      obtain ⟨rfl, rfl⟩ := Prod.mk.inj (Option.some.inj hs)
      rw [hd, List.length_drop] at hnl
      rw [hd, ← List.take_add]
      exact .taken hi hp rfl hn (by simp only [StreamPassInterface.done]; omega)
    | runOutputDone => rcases ho with ho | ho <;> simp [step, ho] at hs
  | taken hi hp ho hn hl =>
    cases e with
    | runOutputDone =>
      rw [step, if_pos ho] at hs
      obtain ⟨rfl, rfl⟩ := Prod.mk.inj (Option.some.inj hs)
      rw [List.append_nil]
      exact sendData_carries hi hp rfl hl
    | _ => simp [step, hi, ho] at hs
  | finished hi hp ho =>
    cases e <;> simp [step, hi, ho] at hs

/-- The part taken of the packet is a beginning of it. -/
theorem Carries.part_of {s : PacketStreamSender} {p part : Bytes} (h : s.Carries p part) : part <+: p := by
  cases h with
  | queued => exact List.nil_prefix
  | offered | taken => exact List.take_prefix _ _
  | finished => exact List.prefix_refl _

/-- A packet given to the sender is done, or something can happen to it. -/
theorem Carries.enabled {s : PacketStreamSender} {p part : Bytes} (h : s.Carries p part) :
    s.runDone ≠ none ∨ ∃ e, s.step e ≠ none := by
  cases h with
  | queued hi => exact Or.inr ⟨.runInput, by simp [step, hi]⟩
  | offered _ _ ho hd hl =>
    rcases ho with ho | ho
    · exact Or.inr ⟨.runOutput, by simp [step, ho]⟩
    · exact Or.inr ⟨.transfer 1, by simp [step, ho, hd]; omega⟩
  | taken _ _ ho => exact Or.inr ⟨.runOutputDone, by simp [step, ho]⟩
  | finished hi => exact Or.inl (by simp [runDone, hi])

/-- A packet reported done has been taken whole. -/
theorem Carries.of_done {s : PacketStreamSender} {p part : Bytes} (h : s.Carries p part) (hd : s.input.state = .donePending) :
    part = p := by
  cases h with
  | finished => rfl
  | queued hi | offered hi | taken hi => rw [hi] at hd; cases hd

/-- The done job of the input can run only when the packet has been taken whole, and leaves the sender idle. -/
theorem runDone_carries {s s' : PacketStreamSender} {p part : Bytes} (h : s.Carries p part) (hs : s.runDone = some s') :
    part = p ∧ s'.Idle := by
  simp only [runDone, Option.ite_none_right_eq_some, Option.some.injEq] at hs
  obtain ⟨hd, rfl⟩ := hs
  refine ⟨h.of_done hd, ?_⟩
  cases h with
  | finished _ hp ho => exact ⟨rfl, hp, ho⟩
  | queued hi | offered hi | taken hi => rw [hi] at hd; cases hd

/-- The events one after another, with all bytes the stream takes in them. -/
def run (s : PacketStreamSender) : List Event → Option (PacketStreamSender × Bytes)
  | [] => some (s, [])
  | e :: es => (s.step e).bind fun r => (run r.1 es).map fun r' => (r'.1, r.2 ++ r'.2)

theorem run_cons {s s1 s2 : PacketStreamSender} {e : Event} {es : List Event} {w1 w2 : Bytes}
    (h1 : s.step e = some (s1, w1)) (h2 : s1.run es = some (s2, w2)) : s.run (e :: es) = some (s2, w1 ++ w2) := by
  rw [run, h1, Option.bind_some, h2, Option.map_some]

theorem run_carries {s s' : PacketStreamSender} {p part wire : Bytes} {es : List Event} (h : s.Carries p part)
    (hr : s.run es = some (s', wire)) : s'.Carries p (part ++ wire) := by
  induction es generalizing s part wire with
  | nil =>
    obtain ⟨rfl, rfl⟩ := Prod.mk.inj (Option.some.inj hr)
    rwa [List.append_nil]
  | cons e es ih =>
    rw [run, Option.bind_eq_some_iff] at hr
    obtain ⟨⟨s1, w1⟩, h1, h2⟩ := hr
    rw [Option.map_eq_some_iff] at h2
    obtain ⟨⟨s2, w2⟩, h2, h3⟩ := h2
    obtain ⟨rfl, rfl⟩ := Prod.mk.inj h3
    rw [← List.append_assoc]
    exact ih (step_carries h h1) h2

/-- A packet whose last bytes have been taken is reported done once the jobs have run. -/
theorem finish_taken {s : PacketStreamSender} {p : Bytes} (hp : s.inPacket = some p)
    (ho : s.output.state = .donePending) (hl : s.inUsed + s.output.jobDoneLen = p.length) :
    ∃ es s' wire, s.run es = some (s', wire) ∧ s'.input.state = .donePending := by
  have hs : s.step .runOutputDone =
      some (outputHandlerDone { s with output := { s.output with state := .none } } s.output.jobDoneLen, []) := by
    rw [step, if_pos ho]
  refine ⟨[.runOutputDone], _, _, run_cons hs rfl, ?_⟩
  rw [outputHandlerDone, sendData]
  simp only [hp]
  rw [if_neg (by omega)]
  rfl

/-- An offered packet can be taken whole. -/
theorem finish_offered {s : PacketStreamSender} {p : Bytes} (hi : s.input.state = .busy) (hp : s.inPacket = some p)
    (ho : s.output.state = .operationPending ∨ s.output.state = .busy) (hd : s.output.jobOperationData = p.drop s.inUsed)
    (hl : s.inUsed < p.length) : ∃ es s' wire, s.run es = some (s', wire) ∧ s'.input.state = .donePending := by
  have hbusy : ∀ s : PacketStreamSender, s.input.state = .busy → s.inPacket = some p → s.output.state = .busy →
      s.output.jobOperationData = p.drop s.inUsed → s.inUsed < p.length →
      ∃ es s' wire, s.run es = some (s', wire) ∧ s'.input.state = .donePending := by
    intro s hi hp ho hd hl
    have hs : s.step (.transfer (p.length - s.inUsed)) = some ({ s with output := s.output.done (p.length - s.inUsed) },
        s.output.jobOperationData.take (p.length - s.inUsed)) := by
      rw [step, if_pos ⟨ho, by omega, by rw [hd, List.length_drop]⟩]
    obtain ⟨es, s', wire, hr, hd'⟩ := finish_taken (s := { s with output := s.output.done (p.length - s.inUsed) }) hp rfl
      (by simp only [StreamPassInterface.done]; omega)
    exact ⟨_, s', _, run_cons hs hr, hd'⟩
  rcases ho with ho | ho
  · have hs : s.step .runOutput = some ({ s with output := { s.output with state := .busy } }, []) := by
      rw [step, if_pos ho]
    obtain ⟨es, s', wire, hr, hd'⟩ := hbusy { s with output := { s.output with state := .busy } } hi hp rfl hd hl
    exact ⟨_, s', _, run_cons hs hr, hd'⟩
  · exact hbusy s hi hp ho hd hl

/-- From any point on, the packet can be taken whole and reported done. -/
theorem Carries.finishes {s : PacketStreamSender} {p part : Bytes} (h : s.Carries p part) :
    ∃ es s' wire, s.run es = some (s', wire) ∧ s'.input.state = .donePending := by
  have hsend : ∀ s : PacketStreamSender, s.input.state = .busy → s.inPacket = some p → s.output.state = .none →
      s.inUsed ≤ p.length → ∃ es s' wire, (sendData s).run es = some (s', wire) ∧ s'.input.state = .donePending := by
    intro s hi hp ho hl
    by_cases hlt : s.inUsed < p.length
    · have hs : sendData s = { s with output := s.output.senderSend (p.drop s.inUsed) } := by
        rw [sendData]
        simp only [hp, if_pos hlt]
      rw [hs]
      exact finish_offered hi hp (Or.inl rfl) rfl hlt
    · have hs : sendData s = { s with inPacket := none, input := s.input.done } := by
        rw [sendData]
        simp only [hp, if_neg hlt]
      rw [hs]
      exact ⟨[], _, _, rfl, rfl⟩
  cases h with
  | finished hi => exact ⟨[], s, [], rfl, hi⟩
  | offered hi hp ho hd hl => exact finish_offered hi hp ho hd hl
  | queued hi hd hp ho =>
    obtain ⟨es, s', wire, hr, hd'⟩ := hsend { s with input := { s.input with state := .busy }, inPacket := some p, inUsed := 0 }
      rfl rfl ho (Nat.zero_le _)
    refine ⟨.runInput :: es, s', [] ++ wire, run_cons ?_ hr, hd'⟩
    rw [step, if_pos hi, hd]
    rfl
  | taken hi hp ho hn hl =>
    obtain ⟨es, s', wire, hr, hd'⟩ := hsend { s with
      output := { s.output with state := .none }
      inUsed := s.inUsed + s.output.jobDoneLen } hi hp rfl hl
    refine ⟨.runOutputDone :: es, s', [] ++ wire, run_cons ?_ hr, hd'⟩
    rw [step, if_pos ho]
    rfl

end PacketStreamSender

end PsiphonAndroid
