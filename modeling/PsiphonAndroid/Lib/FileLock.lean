import Mathlib.Data.List.Basic

/-!
# File locks of processes with threads

The lock of one file as threads of several processes use it. A process keeps a table of the locks it holds or waits for, and a thread
whose lock overlaps one of them is refused. Between processes the operating system grants shared locks together and an exclusive lock
alone. A lock belongs to its process: on some systems, closing a descriptor of the file ends the lock of the whole process.
-/

namespace Lib

/-- The processes that hold or wait for the lock, with the holder, and the locks the operating system has granted, shared or not. -/
structure FileLocks where
  table : List (Nat × Nat)
  granted : List (Nat × Bool)

namespace FileLocks

/-- The process has an entry in its table. -/
def Overlaps (l : FileLocks) (process : Nat) : Prop := process ∈ l.table.map Prod.fst

instance (l : FileLocks) (process : Nat) : Decidable (l.Overlaps process) := inferInstanceAs (Decidable (_ ∈ _))

/-- No other process stands in the way of a lock. -/
def Free (l : FileLocks) (process : Nat) (shared : Bool) : Prop :=
  ∀ g ∈ l.granted, g.1 = process ∨ (g.2 = true ∧ shared = true)

instance (l : FileLocks) (process : Nat) (shared : Bool) : Decidable (l.Free process shared) :=
  inferInstanceAs (Decidable (∀ g ∈ l.granted, _))

/-- A lock is entered in the table of its process. -/
def enter (l : FileLocks) (process holder : Nat) : FileLocks := { l with table := (process, holder) :: l.table }

/-- The operating system forgets the lock of a process. -/
def forget (l : FileLocks) (process : Nat) : FileLocks := { l with granted := l.granted.filter fun g => g.1 ≠ process }

/-- The operating system grants a lock. -/
def grant (l : FileLocks) (process : Nat) (shared : Bool) : FileLocks :=
  { l with granted := (process, shared) :: (l.forget process).granted }

/-- A lock is released. -/
def release (l : FileLocks) (process : Nat) : FileLocks :=
  { (l.forget process) with table := l.table.filter fun t => t.1 ≠ process }

/-- What the operating system has granted goes together. -/
def Compatible (l : FileLocks) : Prop :=
  ∀ g ∈ l.granted, ∀ g' ∈ l.granted, g = g' ∨ (g.1 ≠ g'.1 ∧ g.2 = true ∧ g'.2 = true)

variable {l : FileLocks} {process holder p : Nat} {shared b : Bool}

/-! ## What is granted -/

theorem mem_forget {g : Nat × Bool} : g ∈ (l.forget process).granted ↔ g ∈ l.granted ∧ g.1 ≠ process := by
  simp [forget]

theorem mem_grant {g : Nat × Bool} : g ∈ (l.grant process shared).granted ↔ g = (process, shared) ∨ (g ∈ l.granted ∧ g.1 ≠ process) := by
  rw [← mem_forget]
  exact List.mem_cons

theorem mem_release_table {t : Nat × Nat} : t ∈ (l.release process).table ↔ t ∈ l.table ∧ t.1 ≠ process := by
  simp [release]

theorem Compatible.forget (h : l.Compatible) : (l.forget process).Compatible := by
  intro g hg g' hg'
  exact h g (mem_forget.mp hg).1 g' (mem_forget.mp hg').1

theorem Compatible.grant (h : l.Compatible) (hfree : l.Free process shared) : (l.grant process shared).Compatible := by
  intro g hg g' hg'
  rcases mem_grant.mp hg with rfl | ⟨hg, hne⟩
  · rcases mem_grant.mp hg' with rfl | ⟨hg', hne'⟩
    · exact Or.inl rfl
    · obtain ⟨hshared, hshared'⟩ := (hfree g' hg').resolve_left hne'
      exact Or.inr ⟨Ne.symm hne', hshared', hshared⟩
  · rcases mem_grant.mp hg' with rfl | ⟨hg', -⟩
    · obtain ⟨hshared, hshared'⟩ := (hfree g hg).resolve_left hne
      exact Or.inr ⟨hne, hshared, hshared'⟩
    · exact h g hg g' hg'

/-- An exclusive lock is granted to one process, alone. -/
theorem Compatible.alone (h : l.Compatible) (hg : (process, false) ∈ l.granted) {g : Nat × Bool} (hg' : g ∈ l.granted) :
    g = (process, false) := by
  rcases h _ hg g hg' with rfl | ⟨-, hn, -⟩
  · rfl
  · cases hn

end FileLocks

end Lib
