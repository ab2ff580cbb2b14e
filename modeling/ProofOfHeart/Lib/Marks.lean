import Mathlib.Data.Set.Card
import Mathlib.Logic.Function.Basic

/-! # Entries counted beside their table

A table holds at most one entry for each key, and a counter beside it is raised when an
entry comes to a free key and lowered when one is taken away. The count is then the number
of keys that have an entry.
-/

namespace Marks

open Function

variable {κ α : Type*} {marks : κ → Option α} {k : κ} {x : α} {n : Nat}

/-- The keys that have an entry. -/
def marked (marks : κ → Option α) : Set κ := {k | ∃ x, marks k = some x}

/-- Finitely many keys have an entry, and `n` is their number. -/
def Counts (marks : κ → Option α) (n : Nat) : Prop := (marked marks).encard = n

theorem marked_empty : marked (fun _ : κ => (none : Option α)) = ∅ := by
  simp [marked]

theorem Counts.empty : Counts (fun _ : κ => (none : Option α)) 0 := by
  rw [Counts, marked_empty, Set.encard_empty]
  rfl

variable [DecidableEq κ]

theorem marked_mark : marked (update marks k (some x)) = insert k (marked marks) := by
  ext j
  by_cases h : j = k
  · simp [marked, h]
  · simp [marked, h]

theorem marked_unmark : marked (update marks k none) = marked marks \ {k} := by
  ext j
  by_cases h : j = k
  · simp [marked, h]
  · simp [marked, h]

theorem Counts.mark (h : Counts marks n) (hfree : marks k = none) :
    Counts (update marks k (some x)) (n + 1) := by
  have hnot : k ∉ marked marks := by
    rintro ⟨y, hy⟩
    rw [hfree] at hy
    cases hy
  rw [Counts, marked_mark, Set.encard_insert_of_notMem hnot, h]
  rfl

/-- Where there is something to take away the counter is not zero. -/
theorem Counts.unmark (h : Counts marks n) (hmarked : marks k = some x) :
    n - 1 + 1 = n ∧ Counts (update marks k none) (n - 1) := by
  have hmem : k ∈ marked marks := ⟨x, hmarked⟩
  have hsplit : (marked marks \ {k}).encard + 1 = n :=
    (Set.encard_sdiff_singleton_add_one hmem).trans h
  cases n with
  | zero => simp at hsplit
  | succ n =>
      refine ⟨rfl, ?_⟩
      rw [Counts, marked_unmark]
      exact ENat.add_left_injective_of_ne_top ENat.one_ne_top hsplit

end Marks
