import Mathlib.Logic.Basic
import Mathlib.Data.List.Basic

/-!
# Systems driven by events

A system has initial states and a step for every event; `step s e` is `none` when `e` cannot happen in `s`. Whatever the outside
world chooses (the size of a chunk, the outcome of an allocation) is part of the event, so a step is a function and a run is a
list of events. `Run` collects the runs, `Reach` the states they end in, and the rules below are the ways an invariant is shown.
-/

namespace Lib

/-- Initial states, and what each event does where it can happen. -/
structure System (S E : Type*) where
  init : S → Prop
  step : S → E → Option S

namespace System

variable {S E : Type*} {M : System S E}

/-- `M.Run es s`: the events `es`, in order, lead from an initial state to `s`. -/
inductive Run (M : System S E) : List E → S → Prop
  | init {s : S} : M.init s → Run M [] s
  | step {es : List E} {s s' : S} {e : E} : Run M es s → M.step s e = some s' → Run M (es ++ [e]) s'

/-- `M.RunWhere ok es s`: a run every event of which met `ok` in the state it happened in. -/
inductive RunWhere (M : System S E) (ok : S → E → Prop) : List E → S → Prop
  | init {s : S} : M.init s → RunWhere M ok [] s
  | step {es : List E} {s s' : S} {e : E} :
      RunWhere M ok es s → ok s e → M.step s e = some s' → RunWhere M ok (es ++ [e]) s'

/-- A state some run ends in. -/
def Reach (M : System S E) (s : S) : Prop := ∃ es, M.Run es s

/-- The events one after another from a given state. -/
def exec (M : System S E) : S → List E → Option S
  | s, [] => some s
  | s, e :: es => (M.step s e).bind fun s' => exec M s' es

theorem exec_append (s : S) (es es' : List E) : M.exec s (es ++ es') = (M.exec s es).bind fun s' => M.exec s' es' := by
  induction es generalizing s with
  | nil => rfl
  | cons e es ih =>
    rw [List.cons_append, exec, exec, Option.bind_assoc]
    congr 1
    funext s'
    exact ih s'

/-- What holds at first and is kept by every step holds of every run. -/
theorem Run.invariant (Inv : List E → S → Prop) (h0 : ∀ s, M.init s → Inv [] s)
    (hs : ∀ es s e s', Inv es s → M.step s e = some s' → Inv (es ++ [e]) s') {es : List E} {s : S} (h : M.Run es s) :
    Inv es s := by
  induction h with
  | init hi => exact h0 _ hi
  | step _ hstep ih => exact hs _ _ _ _ ih hstep

/-- The same under a condition on the steps. -/
theorem RunWhere.invariant {ok : S → E → Prop} (Inv : List E → S → Prop) (h0 : ∀ s, M.init s → Inv [] s)
    (hs : ∀ es s e s', Inv es s → ok s e → M.step s e = some s' → Inv (es ++ [e]) s') {es : List E} {s : S}
    (h : M.RunWhere ok es s) : Inv es s := by
  induction h with
  | init hi => exact h0 _ hi
  | step _ hok hstep ih => exact hs _ _ _ _ ih hok hstep

/-- What holds at first and is kept by every step holds of every reachable state. -/
theorem Reach.invariant (Inv : S → Prop) (h0 : ∀ s, M.init s → Inv s)
    (hs : ∀ s e s', Inv s → M.step s e = some s' → Inv s') {s : S} (h : M.Reach s) : Inv s := by
  obtain ⟨es, hr⟩ := h
  exact hr.invariant (fun _ s => Inv s) h0 (fun _ s e s' => hs s e s')

/-- Dropping the condition of a run leaves a run. -/
theorem RunWhere.run {ok : S → E → Prop} {es : List E} {s : S} (h : M.RunWhere ok es s) : M.Run es s := by
  induction h with
  | init hi => exact .init hi
  | step _ _ hstep ih => exact .step ih hstep

/-- Running on from a state a run ends in. -/
theorem Run.exec {es : List E} {s : S} (h : M.Run es s) {es' : List E} {s' : S} (he : M.exec s es' = some s') :
    M.Run (es ++ es') s' := by
  induction es' generalizing es s with
  | nil =>
    obtain rfl := Option.some.inj he
    rwa [List.append_nil]
  | cons e es' ih =>
    rw [System.exec, Option.bind_eq_some_iff] at he
    obtain ⟨s1, h1, h2⟩ := he
    have := ih (.step h h1) h2
    rwa [List.append_assoc] at this

/-- Running on with events that meet the condition in every state. -/
theorem RunWhere.exec {ok : S → E → Prop} {es : List E} {s : S} (h : M.RunWhere ok es s) {es' : List E} {s' : S}
    (hok : ∀ e ∈ es', ∀ s, ok s e) (he : M.exec s es' = some s') : M.RunWhere ok (es ++ es') s' := by
  induction es' generalizing es s with
  | nil =>
    obtain rfl := Option.some.inj he
    rwa [List.append_nil]
  | cons e es' ih =>
    rw [System.exec, Option.bind_eq_some_iff] at he
    obtain ⟨s1, h1, h2⟩ := he
    have := ih (.step h (hok e (by simp) s) h1) (fun e' he' => hok e' (by simp [he'])) h2
    rwa [List.append_assoc] at this

/-- The events one after another, as long as each meets the condition. -/
def execWhere (M : System S E) (ok : S → E → Prop) [∀ s e, Decidable (ok s e)] : S → List E → Option S
  | s, [] => some s
  | s, e :: es => if ok s e then (M.step s e).bind fun s' => execWhere M ok s' es else none

/-- Running on, with each event checked where it happens. -/
theorem RunWhere.execWhere {ok : S → E → Prop} [∀ s e, Decidable (ok s e)] {es : List E} {s : S} (h : M.RunWhere ok es s)
    {es' : List E} {s' : S} (he : M.execWhere ok s es' = some s') : M.RunWhere ok (es ++ es') s' := by
  induction es' generalizing es s with
  | nil =>
    obtain rfl := Option.some.inj he
    rwa [List.append_nil]
  | cons e es' ih =>
    rw [System.execWhere, Option.ite_none_right_eq_some, Option.bind_eq_some_iff] at he
    obtain ⟨hok, s1, h1, h2⟩ := he
    have := ih (.step h hok h1) h2
    rwa [List.append_assoc] at this

/-- What is kept by every step that meets the condition holds after running on. -/
theorem execWhere_invariant {ok : S → E → Prop} [∀ s e, Decidable (ok s e)] (Inv : S → Prop)
    (hs : ∀ s e s', Inv s → ok s e → M.step s e = some s' → Inv s') {s : S} (h : Inv s) {es : List E} {s' : S}
    (he : M.execWhere ok s es = some s') : Inv s' := by
  induction es generalizing s with
  | nil =>
    obtain rfl := Option.some.inj he
    exact h
  | cons e es ih =>
    rw [System.execWhere, Option.ite_none_right_eq_some, Option.bind_eq_some_iff] at he
    obtain ⟨hok, s1, h1, h2⟩ := he
    exact ih (hs s e s1 h hok h1) h2

end System

end Lib
