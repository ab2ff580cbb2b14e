import Mathlib.Algebra.BigOperators.Group.List.Basic
import Mathlib.Data.Rat.Floor
import Mathlib.Tactic.Ring
import Mathlib.Tactic.Linarith

/-! # Shares of an amount

A share of `x` by a weight `b` out of `d` is rounded down or up to an integer. The
bounds, the growth in `x` and the sum of the shares of several weights are what an
exact division of an amount rests on.
-/

namespace Shares

/-- Rounded towards zero, as machine division does. -/
def floor (d x b : Int) : Int := (x * b).tdiv d

def ceil (d x b : Int) : Int := (x * b + (d - 1)).tdiv d

variable {d x y b : Int}

theorem floor_eq (hx : 0 ≤ x) (hb : 0 ≤ b) : floor d x b = x * b / d :=
  Int.tdiv_eq_ediv_of_nonneg (Int.mul_nonneg hx hb)

theorem ceil_eq (hd : 0 < d) (hx : 0 ≤ x) (hb : 0 ≤ b) : ceil d x b = (x * b + (d - 1)) / d :=
  Int.tdiv_eq_ediv_of_nonneg (Int.add_nonneg (Int.mul_nonneg hx hb) (by omega))

theorem floor_nonneg (hd : 0 < d) (hx : 0 ≤ x) (hb : 0 ≤ b) : 0 ≤ floor d x b := by
  rw [floor_eq hx hb]
  exact Int.ediv_nonneg (Int.mul_nonneg hx hb) (Int.le_of_lt hd)

theorem floor_mul_le (hd : 0 < d) (hx : 0 ≤ x) (hb : 0 ≤ b) : floor d x b * d ≤ x * b := by
  rw [floor_eq hx hb]
  exact Int.ediv_mul_le _ (ne_of_gt hd)

theorem floor_pos_iff (hd : 0 < d) (hx : 0 ≤ x) (hb : 0 ≤ b) : 0 < floor d x b ↔ d ≤ x * b := by
  rw [floor_eq hx hb, ← Int.add_one_le_iff, Int.zero_add, Int.le_ediv_iff_mul_le hd, Int.one_mul]

theorem floor_mono (hd : 0 < d) (hx : 0 ≤ x) (hb : 0 ≤ b) (hxy : x ≤ y) :
    floor d x b ≤ floor d y b := by
  rw [floor_eq hx hb, floor_eq (Int.le_trans hx hxy) hb]
  exact Int.ediv_le_ediv hd (Int.mul_le_mul_of_nonneg_right hxy hb)

theorem ceil_nonneg (hd : 0 < d) (hx : 0 ≤ x) (hb : 0 ≤ b) : 0 ≤ ceil d x b := by
  rw [ceil_eq hd hx hb]
  exact Int.ediv_nonneg (Int.add_nonneg (Int.mul_nonneg hx hb) (by omega)) (Int.le_of_lt hd)

/-- Machine rounding is the ceiling of the exact share. -/
theorem ceil_eq_ceil {d : Nat} (hd : 0 < d) (hx : 0 ≤ x) (hb : 0 ≤ b) :
    ceil d x b = ⌈((x * b : Int) : ℚ) / d⌉ := by
  have hpos : (0 : Int) < d := Int.natCast_pos.mpr hd
  have hneg := Int.emod_add_mul_ediv (-(x * b)) d
  have hlt := Int.emod_lt_of_pos (-(x * b)) hpos
  have hnonneg := Int.emod_nonneg (-(x * b)) (ne_of_gt hpos)
  rw [ceil_eq hpos hx hb, Rat.ceil_intCast_div_natCast]
  refine (Int.ediv_eq_iff_of_pos hpos).mpr ⟨?_, ?_⟩
  · linarith
  · linarith

theorem ceil_mono (hd : 0 < d) (hx : 0 ≤ x) (hb : 0 ≤ b) (hxy : x ≤ y) :
    ceil d x b ≤ ceil d y b := by
  rw [ceil_eq hd hx hb, ceil_eq hd (Int.le_trans hx hxy) hb]
  have hmul := Int.mul_le_mul_of_nonneg_right hxy hb
  exact Int.ediv_le_ediv hd (by omega)

/-- The share of the difference is at most the difference. -/
theorem ceil_sub_le (hd : 0 < d) (hx : 0 ≤ x) (hb : 0 ≤ b) (hbd : b ≤ d) (hxy : x ≤ y) :
    ceil d y b - ceil d x b ≤ y - x := by
  rw [ceil_eq hd hx hb, ceil_eq hd (Int.le_trans hx hxy) hb]
  have hgrowth : (y - x) * b ≤ (y - x) * d := Int.mul_le_mul_of_nonneg_left hbd (by omega)
  have hsplit : y * b = x * b + (y - x) * b := by ring
  have hle : (y * b + (d - 1)) / d ≤ (x * b + (d - 1) + (y - x) * d) / d :=
    Int.ediv_le_ediv hd (by omega)
  rw [Int.add_mul_ediv_right _ _ (ne_of_gt hd)] at hle
  omega

theorem ceil_le (hd : 0 < d) (hx : 0 ≤ x) (hb : 0 ≤ b) (hbd : b ≤ d) : ceil d x b ≤ x := by
  have hzero : ceil d 0 b = 0 := by
    rw [ceil_eq hd (Int.le_refl 0) hb, Int.zero_mul, Int.zero_add]
    exact Int.ediv_eq_zero_of_lt (by omega) (by omega)
  have hgrowth := ceil_sub_le hd (Int.le_refl 0) hb hbd hx
  omega

/-- What a share leaves grows with the amount. -/
theorem rest_mono (hd : 0 < d) (hx : 0 ≤ x) (hb : 0 ≤ b) (hbd : b ≤ d) (hxy : x ≤ y) :
    x - ceil d x b ≤ y - ceil d y b := by
  have hgrowth := ceil_sub_le hd hx hb hbd hxy
  omega

theorem floor_le (hd : 0 < d) (hx : 0 ≤ x) (hb : 0 ≤ b) (hbd : b ≤ d) : floor d x b ≤ x := by
  have hmul : x * b ≤ x * d := Int.mul_le_mul_of_nonneg_left hbd hx
  exact Int.le_of_mul_le_mul_right (Int.le_trans (floor_mul_le hd hx hb) hmul) hd

theorem floor_sub_le (hd : 0 < d) (hx : 0 ≤ x) (hb : 0 ≤ b) (hbd : b ≤ d) (hxy : x ≤ y) :
    floor d y b - floor d x b ≤ y - x := by
  rw [floor_eq hx hb, floor_eq (Int.le_trans hx hxy) hb]
  have hgrowth : (y - x) * b ≤ (y - x) * d := Int.mul_le_mul_of_nonneg_left hbd (by omega)
  have hsplit : y * b = x * b + (y - x) * b := by ring
  have hle : y * b / d ≤ (x * b + (y - x) * d) / d := Int.ediv_le_ediv hd (by omega)
  rw [Int.add_mul_ediv_right _ _ (ne_of_gt hd)] at hle
  omega

/-! ## Several weights -/

/-- The shares of a list of weights, each rounded down. -/
def floors (d x : Int) (weights : List Int) : Int := (weights.map (floor d x)).sum

@[simp] theorem floors_nil : floors d x [] = 0 := rfl

@[simp] theorem floors_cons {weights : List Int} :
    floors d x (b :: weights) = floor d x b + floors d x weights := List.sum_cons

section Weights

variable {weights : List Int}

theorem floors_nonneg (hd : 0 < d) (hx : 0 ≤ x) (hw : ∀ w ∈ weights, 0 ≤ w) :
    0 ≤ floors d x weights := by
  induction weights with
  | nil => exact Int.le_refl 0
  | cons w rest ih =>
      rw [floors_cons]
      exact Int.add_nonneg (floor_nonneg hd hx (hw w List.mem_cons_self))
        (ih fun u hu => hw u (List.mem_cons_of_mem _ hu))

theorem floors_mono (hd : 0 < d) (hx : 0 ≤ x) (hxy : x ≤ y) (hw : ∀ w ∈ weights, 0 ≤ w) :
    floors d x weights ≤ floors d y weights := by
  induction weights with
  | nil => exact Int.le_refl 0
  | cons w rest ih =>
      rw [floors_cons, floors_cons]
      exact Int.add_le_add (floor_mono hd hx (hw w List.mem_cons_self) hxy)
        (ih fun u hu => hw u (List.mem_cons_of_mem _ hu))

theorem floors_mul_le (hd : 0 < d) (hx : 0 ≤ x) (hw : ∀ w ∈ weights, 0 ≤ w) :
    floors d x weights * d ≤ x * weights.sum := by
  induction weights with
  | nil => simp
  | cons w rest ih =>
      have hfirst := floor_mul_le hd hx (hw w List.mem_cons_self)
      have hrest := ih fun u hu => hw u (List.mem_cons_of_mem _ hu)
      rw [floors_cons, List.sum_cons, Int.add_mul, Int.mul_add]
      omega

/-- Shares whose weights fit the whole fit the amount. -/
theorem floors_le (hd : 0 < d) (hx : 0 ≤ x) (hw : ∀ w ∈ weights, 0 ≤ w)
    (hsum : weights.sum ≤ d) : floors d x weights ≤ x := by
  have hmul : x * weights.sum ≤ x * d := Int.mul_le_mul_of_nonneg_left hsum hx
  exact Int.le_of_mul_le_mul_right (Int.le_trans (floors_mul_le hd hx hw) hmul) hd

/-- Shares whose weights leave a part of the whole leave a part of the amount. -/
theorem floors_lt (hd : 0 < d) (hx : 0 < x) (hw : ∀ w ∈ weights, 0 ≤ w)
    (hsum : weights.sum < d) : floors d x weights < x := by
  have hmul : x * weights.sum < x * d := Int.mul_lt_mul_of_pos_left hsum hx
  exact Int.lt_of_mul_lt_mul_right
    (Int.lt_of_le_of_lt (floors_mul_le hd (Int.le_of_lt hx) hw) hmul) (Int.le_of_lt hd)

end Weights

end Shares
