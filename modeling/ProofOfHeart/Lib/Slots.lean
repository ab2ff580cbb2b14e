import Mathlib.Algebra.BigOperators.Group.Finset.Basic
import Mathlib.Algebra.BigOperators.Group.List.Basic
import Mathlib.Data.List.Nodup
import Mathlib.Data.Set.Card

/-! # Places in numbered buckets

A table records for each entry the bucket and the slot it stands in. Appending to
any bucket keeps the table right, and so does a swap removal, where the last entry
of a bucket takes the freed slot.
-/

namespace Slots

open Function

variable {α : Type*} {bucket : Nat → List α} {position : α → Option (Nat × Nat)}
  {x last : α} {b i n : Nat}

/-- The table names every place and no other. -/
def Places (bucket : Nat → List α) (position : α → Option (Nat × Nat)) : Prop :=
  ∀ x b i, position x = some (b, i) ↔ (bucket b)[i]? = some x

/-- The buckets hold `n` entries altogether. -/
def Holds (bucket : Nat → List α) (n : Nat) : Prop :=
  ∃ used, (∀ b, used ≤ b → bucket b = []) ∧ ∑ b ∈ Finset.range used, (bucket b).length = n

theorem Places.empty : Places (fun _ => []) fun _ : α => none := by
  intro x b i
  simp

theorem Places.mem_iff (h : Places bucket position) :
    (∃ b, x ∈ bucket b) ↔ position x ≠ none := by
  rw [Option.ne_none_iff_exists']
  constructor
  · rintro ⟨b, hmem⟩
    obtain ⟨i, hi⟩ := List.mem_iff_getElem?.mp hmem
    exact ⟨(b, i), (h x b i).mpr hi⟩
  · rintro ⟨⟨b, i⟩, hi⟩
    exact ⟨b, List.mem_of_getElem? ((h x b i).mp hi)⟩

/-- An entry stands in one slot of one bucket. -/
theorem Places.unique (h : Places bucket position) {b' i' : Nat}
    (hx : (bucket b)[i]? = some x) (hx' : (bucket b')[i']? = some x) : b = b' ∧ i = i' := by
  have hsame := ((h x b i).mpr hx).symm.trans ((h x b' i').mpr hx')
  rw [Option.some.injEq, Prod.mk.injEq] at hsame
  exact hsame

section Update

variable [DecidableEq α]

theorem Places.append (h : Places bucket position) (hfree : position x = none) :
    Places (update bucket b (bucket b ++ [x]))
      (update position x (some (b, (bucket b).length))) := by
  intro y b' i'
  have hold := h y b' i'
  have hnone := h x b' i'
  rw [hfree] at hnone
  by_cases hb : b' = b
  · subst hb
    rw [update_self, List.getElem?_append]
    by_cases hy : y = x
    · subst hy
      rw [update_self]
      grind
    · rw [update_of_ne hy]
      grind
  · rw [update_of_ne hb]
    by_cases hy : y = x
    · subst hy
      rw [update_self]
      grind
    · rw [update_of_ne hy]
      exact hold

theorem Places.remove (h : Places bucket position) (hslot : (bucket b)[i]? = some x)
    (hlast : (bucket b).getLast? = some last) :
    Places (update bucket b ((bucket b).set i last).dropLast)
      (update (if i ≠ (bucket b).length - 1 then update position last (some (b, i))
        else position) x none) := by
  intro y b' i'
  have hplace := (h x b i).mpr hslot
  have hlastSlot : (bucket b)[(bucket b).length - 1]? = some last := by
    rw [← List.getLast?_eq_getElem?, hlast]
  have hlastPlace := (h last b _).mpr hlastSlot
  have hold := h y b' i'
  have hlt := (List.getElem?_eq_some_iff.mp hslot).1
  by_cases hb : b' = b
  · subst hb
    rw [update_self, List.getElem?_dropLast, List.length_set, List.getElem?_set]
    by_cases hend : i = (bucket b').length - 1
    · rw [if_neg (not_not_intro hend)]
      by_cases hy : y = x
      · subst hy
        rw [update_self]
        grind
      · rw [update_of_ne hy]
        grind
    · rw [if_pos hend]
      by_cases hy : y = x
      · subst hy
        rw [update_self]
        grind
      · rw [update_of_ne hy]
        by_cases hyl : y = last
        · subst hyl
          rw [update_self]
          grind
        · rw [update_of_ne hyl]
          grind
  · rw [update_of_ne hb]
    grind [update_self, update_of_ne]

end Update

/-! ## Counting -/

theorem Holds.empty : Holds (fun _ => ([] : List α)) 0 := ⟨0, fun _ _ => rfl, rfl⟩

theorem Holds.length_le (h : Holds bucket n) (b : Nat) : (bucket b).length ≤ n := by
  obtain ⟨used, hempty, rfl⟩ := h
  by_cases hb : used ≤ b
  · rw [hempty b hb]
    exact Nat.zero_le _
  · have hmem : b ∈ Finset.range used := Finset.mem_range.mpr (Nat.lt_of_not_le hb)
    rw [← Finset.add_sum_erase _ _ hmem]
    exact Nat.le_add_right ..

/-- Exchanging one bucket changes the number by the difference of the lengths. -/
theorem Holds.update {new : List α} {m : Nat} (h : Holds bucket n)
    (hm : m + (bucket b).length = n + new.length) : Holds (update bucket b new) m := by
  obtain ⟨used, hempty, hsum⟩ := h
  have hmore : ∑ k ∈ Finset.range (max used (b + 1)), (bucket k).length = n := by
    rw [← hsum]
    refine (Finset.sum_subset (Finset.range_mono (Nat.le_max_left ..)) fun k _ hk => ?_).symm
    rw [hempty k (Nat.le_of_not_lt fun hlt => hk (Finset.mem_range.mpr hlt))]
    rfl
  have hmem : b ∈ Finset.range (max used (b + 1)) :=
    Finset.mem_range.mpr (Nat.lt_of_lt_of_le (Nat.lt_succ_self b) (Nat.le_max_right ..))
  refine ⟨max used (b + 1), fun k hk => ?_, ?_⟩
  · rw [update_of_ne (by omega)]
    exact hempty k (by omega)
  · have hrest : ∀ k ∈ (Finset.range (max used (b + 1))).erase b,
        (Function.update bucket b new k).length = (bucket k).length := fun k hk => by
      rw [update_of_ne (Finset.ne_of_mem_erase hk)]
    have hold := Finset.add_sum_erase _ (fun k => (bucket k).length) hmem
    rw [← Finset.add_sum_erase _ _ hmem, Finset.sum_congr rfl hrest, update_self]
    omega

/-- As many entries have a place as the buckets hold. -/
theorem Places.ncard (h : Places bucket position) (hn : Holds bucket n) :
    {x | position x ≠ none}.ncard = n := by
  obtain ⟨used, hempty, hsum⟩ := hn
  have hmem : ∀ x, x ∈ (List.range used).flatMap bucket ↔ position x ≠ none := by
    intro x
    rw [← h.mem_iff, List.mem_flatMap]
    constructor
    · rintro ⟨b, -, hx⟩
      exact ⟨b, hx⟩
    · rintro ⟨b, hx⟩
      refine ⟨b, List.mem_range.mpr (Nat.lt_of_not_le fun hle => ?_), hx⟩
      rw [hempty b hle] at hx
      cases hx
  have hnodup : ((List.range used).flatMap bucket).Nodup := by
    rw [List.nodup_flatMap]
    constructor
    · intro b _
      rw [List.nodup_iff_injective_getElem]
      intro i j hij
      have hj : (bucket b)[(j : Nat)]? = some (bucket b)[(i : Nat)] :=
        (List.getElem?_eq_getElem j.isLt).trans (congrArg some hij.symm)
      exact Fin.ext (h.unique (List.getElem?_eq_getElem i.isLt) hj).2
    · refine List.Pairwise.imp (fun {b b'} hne x hx hx' => ?_) List.nodup_range
      obtain ⟨i, hi⟩ := List.mem_iff_getElem?.mp hx
      obtain ⟨i', hi'⟩ := List.mem_iff_getElem?.mp hx'
      exact hne (h.unique hi hi').1
  classical
  have hset : {x | position x ≠ none} = ((List.range used).flatMap bucket).toFinset := by
    ext x
    rw [Set.mem_ofPred_eq, List.coe_toFinset, Set.mem_ofPred_eq, hmem]
  rw [hset, Set.ncard_coe_finset, List.toFinset_card_of_nodup hnodup, List.length_flatMap, ← hsum]
  rfl

end Slots
