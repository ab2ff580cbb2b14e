import Mathlib.Logic.Function.Basic

/-! # An index that keeps keys unique

Items have keys, and an index maps a key back to the item that has it. While the index
is exact no two items share a key, and a key the index does not know is free. An item
that changes its key behind the index leaves an entry that no item accounts for.
-/

namespace UniqueIndex

open Function

variable {ι κ : Type} {key key' : ι → Option κ} {index : κ → Option ι} {i j : ι} {k : κ}

/-- The index knows each key of an item, and nothing else. -/
def Indexes (key : ι → Option κ) (index : κ → Option ι) : Prop :=
  ∀ i k, key i = some k ↔ index k = some i

theorem Indexes.empty : Indexes (fun _ : ι => (none : Option κ)) fun _ => none :=
  fun _ _ => iff_of_false (Option.some_ne_none _).symm (Option.some_ne_none _).symm

theorem Indexes.unique (h : Indexes key index) (hi : key i = some k) (hj : key j = some k) :
    i = j := Option.some.inj (((h i k).mp hi).symm.trans ((h j k).mp hj))

theorem Indexes.free (h : Indexes key index) (hfree : ∀ i, key i ≠ some k) : index k = none := by
  cases hk : index k with
  | none => rfl
  | some i => exact absurd ((h i k).mpr hk) (hfree i)

/-- A new item under a free key. -/
theorem Indexes.insert [DecidableEq ι] [DecidableEq κ] (h : Indexes key index)
    (hitem : key i = none) (hfree : index k = none) :
    Indexes (update key i (some k)) (update index k (some i)) := by
  intro j l
  by_cases hj : j = i
  · by_cases hl : l = k
    · simp [hj, hl]
    · have hnot : index l ≠ some i := fun hl => by
        rw [(h i l).mpr hl] at hitem
        cases hitem
      simp [hj, hl, Ne.symm hl, hnot]
  · by_cases hl : l = k
    · have hnot : key j ≠ some k := fun hk => by
        rw [(h j k).mp hk] at hfree
        cases hfree
      simp [hj, hl, Ne.symm hj, hnot]
    · simpa [hj, hl] using h j l

/-- The old key of an item that changed behind the index is taken by none. -/
theorem Indexes.stale (h : Indexes key index) (hi : key i = some k) (hi' : key' i ≠ some k)
    (hothers : ∀ j, j ≠ i → key' j = key j) : index k ≠ none ∧ ∀ j, key' j ≠ some k := by
  refine ⟨?_, fun j hj => ?_⟩
  · rw [(h i k).mp hi]
    exact Option.some_ne_none i
  · by_cases hji : j = i
    · exact hi' (hji ▸ hj)
    · rw [hothers j hji] at hj
      exact hji (h.unique hj hi)

end UniqueIndex
