import Mathlib.Algebra.BigOperators.Group.List.Basic
import Mathlib.Algebra.Order.Ring.Int
import Mathlib.Data.List.Nodup

/-! # Parts taken one by one

A list of parts with distinct keys, of which a flag per key says which have been
taken. The value taken grows by the value of each newly taken part, and when the
values are positive it reaches the whole exactly when every part has been taken.
-/

namespace Parts

open Function

variable {α κ : Type*} {key : α → κ} {parts : List α} {taken : κ → Bool} {p : α}

def sumTaken {M : Type*} [AddCommMonoid M] (key : α → κ) (value : α → M) (parts : List α)
    (taken : κ → Bool) : M :=
  ((parts.filter fun p => taken (key p)).map value).sum

section Sum

variable {M : Type*} [AddCommMonoid M] {value : α → M}

theorem sumTaken_cons {q : α} : sumTaken key value (q :: parts) taken =
    (if taken (key q) then value q else 0) + sumTaken key value parts taken := by
  unfold sumTaken
  by_cases h : taken (key q) = true
  · rw [List.filter_cons, if_pos h, List.map_cons, List.sum_cons, if_pos h]
  · rw [List.filter_cons, if_neg h, if_neg h, zero_add]

theorem sumTaken_none (h : ∀ p ∈ parts, taken (key p) = false) :
    sumTaken key value parts taken = 0 := by
  unfold sumTaken
  rw [List.filter_eq_nil_iff.mpr fun p hp => by simp [h p hp]]
  rfl

variable [DecidableEq κ]

/-- A key outside the list changes nothing. -/
theorem sumTaken_update_of_notMem {k : κ} {b : Bool} (h : k ∉ parts.map key) :
    sumTaken key value parts (update taken k b) = sumTaken key value parts taken := by
  unfold sumTaken
  congr 2
  refine List.filter_congr fun q hq => ?_
  rw [update_of_ne]
  rintro rfl
  exact h (List.mem_map_of_mem hq)

/-- Taking a free part adds its value. -/
theorem sumTaken_take (hnodup : (parts.map key).Nodup) (hmem : p ∈ parts)
    (hfree : taken (key p) = false) :
    sumTaken key value parts (update taken (key p) true) =
      sumTaken key value parts taken + value p := by
  induction parts with
  | nil => cases hmem
  | cons q rest ih =>
      rw [List.map_cons, List.nodup_cons] at hnodup
      obtain ⟨hout, hrest⟩ := hnodup
      rw [sumTaken_cons, sumTaken_cons]
      rcases List.mem_cons.mp hmem with rfl | hmem
      · rw [sumTaken_update_of_notMem hout, update_self, hfree, if_pos rfl,
          if_neg Bool.false_ne_true, zero_add, add_comm]
      · have hne : key q ≠ key p := by
          intro heq
          exact hout (heq ▸ List.mem_map_of_mem hmem)
        rw [update_of_ne hne, ih hrest hmem, add_assoc]

end Sum

/-! ## The whole -/

section Whole

variable {value : α → Nat}

theorem sumTaken_le : sumTaken key value parts taken ≤ (parts.map value).sum := by
  induction parts with
  | nil => exact Nat.le_refl 0
  | cons q rest ih =>
      rw [sumTaken_cons, List.map_cons, List.sum_cons]
      split <;> omega

theorem sumTaken_eq_whole (hpos : ∀ p ∈ parts, 0 < value p) :
    sumTaken key value parts taken = (parts.map value).sum ↔
      ∀ p ∈ parts, taken (key p) = true := by
  induction parts with
  | nil => simp [sumTaken]
  | cons q rest ih =>
      have hrest := ih fun p hp => hpos p (List.mem_cons_of_mem _ hp)
      have hle : sumTaken key value rest taken ≤ (rest.map value).sum := sumTaken_le
      have hq := hpos q List.mem_cons_self
      rw [sumTaken_cons, List.map_cons, List.sum_cons, List.forall_mem_cons, ← hrest]
      by_cases h : taken (key q) = true
      · rw [if_pos h]
        exact ⟨fun heq => ⟨h, by omega⟩, fun heq => by omega⟩
      · rw [if_neg h]
        exact ⟨fun heq => by omega, fun heq => absurd heq.1 h⟩

end Whole

end Parts
