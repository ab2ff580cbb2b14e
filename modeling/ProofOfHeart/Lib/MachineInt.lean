import Mathlib.Algebra.Order.Ring.Int
import ProofOfHeart.Lib.Checked

/-! # Fixed-width integers as bounded mathematical integers

Signed 128-bit values are integers inside `I128.InRange`; unsigned values of
`bits` bits are naturals below `2 ^ bits`. The checked operations return `none`
exactly when the exact result does not fit.
-/

namespace I128

def minValue : Int := -170141183460469231731687303715884105728

def maxValue : Int := 170141183460469231731687303715884105727

def InRange (x : Int) : Prop := minValue ≤ x ∧ x ≤ maxValue

instance (x : Int) : Decidable (InRange x) := inferInstanceAs (Decidable (_ ∧ _))

/-- The exact result, when it fits. -/
def checked (x : Int) : Option Int := if InRange x then some x else none

def checkedAdd (a b : Int) : Option Int := checked (a + b)

def checkedSub (a b : Int) : Option Int := checked (a - b)

def checkedMul (a b : Int) : Option Int := checked (a * b)

/-- Division rounds toward zero, as the machine's does. -/
def checkedDiv (a b : Int) : Option Int := if b = 0 then none else checked (a.tdiv b)

@[simp] theorem checked_eq_some {x y : Int} : checked x = some y ↔ x = y ∧ InRange x := by
  unfold checked
  split <;> simp_all

@[simp] theorem checked_eq_none {x : Int} : checked x = none ↔ ¬ InRange x := by
  unfold checked
  split <;> simp_all

@[simp] theorem checkedAdd_eq_some {a b c : Int} :
    checkedAdd a b = some c ↔ a + b = c ∧ InRange (a + b) := checked_eq_some

@[simp] theorem checkedSub_eq_some {a b c : Int} :
    checkedSub a b = some c ↔ a - b = c ∧ InRange (a - b) := checked_eq_some

@[simp] theorem checkedMul_eq_some {a b c : Int} :
    checkedMul a b = some c ↔ a * b = c ∧ InRange (a * b) := checked_eq_some

@[simp] theorem checkedAdd_eq_none {a b : Int} :
    checkedAdd a b = none ↔ ¬ InRange (a + b) := checked_eq_none

@[simp] theorem checkedSub_eq_none {a b : Int} :
    checkedSub a b = none ↔ ¬ InRange (a - b) := checked_eq_none

@[simp] theorem checkedMul_eq_none {a b : Int} :
    checkedMul a b = none ↔ ¬ InRange (a * b) := checked_eq_none

@[simp] theorem checkedDiv_eq_some {a b c : Int} :
    checkedDiv a b = some c ↔ b ≠ 0 ∧ a.tdiv b = c ∧ InRange (a.tdiv b) := by
  unfold checkedDiv
  split <;> simp_all

@[simp] theorem checkedDiv_eq_none {a b : Int} :
    checkedDiv a b = none ↔ b = 0 ∨ ¬ InRange (a.tdiv b) := by
  unfold checkedDiv
  split <;> simp_all

/-- Everything up to a value in range is in range. -/
theorem InRange.of_le {x y : Int} (h : InRange y) (hx : 0 ≤ x) (hle : x ≤ y) : InRange x :=
  ⟨Int.le_trans (by decide) hx, Int.le_trans hle h.2⟩

theorem InRange.of_nonneg {x : Int} (hx : 0 ≤ x) : InRange x ↔ x ≤ maxValue :=
  ⟨And.right, fun h => ⟨Int.le_trans (by decide) hx, h⟩⟩

/-- Division rounds a value in range to one in range. -/
theorem InRange.tdiv {x d : Int} (h : InRange x) (hx : 0 ≤ x) (hd : 0 ≤ d) :
    InRange (x.tdiv d) := by
  refine h.of_le (Int.tdiv_nonneg hx hd) ?_
  rw [Int.tdiv_eq_ediv_of_nonneg hx]
  exact Int.ediv_le_self d hx

/-- An exact result is needed in range. -/
theorem needs {ε : Type} {x : Int} {e : ε} :
    Checked.Needs (InRange x) e (Checked.okOr (checked x) e) := by
  unfold checked
  split
  next h => exact ⟨fun hnot => absurd h hnot, fun _ _ heq => by cases heq⟩
  next h => exact ⟨fun _ => rfl, fun hin => absurd hin h⟩

end I128

namespace Word

/-- `n` when it fits in `bits` bits. -/
def checked (bits n : Nat) : Option Nat := if n < 2 ^ bits then some n else none

def checkedAdd (bits a b : Nat) : Option Nat := checked bits (a + b)

def checkedMul (bits a b : Nat) : Option Nat := checked bits (a * b)

def checkedSub (a b : Nat) : Option Nat := if b ≤ a then some (a - b) else none

def saturatingAdd (bits a b : Nat) : Nat := min (a + b) (2 ^ bits - 1)

theorem saturatingAdd_eq {bits a b : Nat} (h : a + b < 2 ^ bits) :
    saturatingAdd bits a b = a + b := Nat.min_eq_left (Nat.le_sub_one_of_lt h)

@[simp] theorem checked_eq_some {bits n m : Nat} :
    checked bits n = some m ↔ n = m ∧ n < 2 ^ bits := by
  unfold checked
  split
  next h => simp [h]
  next h => simp [h]

@[simp] theorem checkedAdd_eq_some {bits a b c : Nat} :
    checkedAdd bits a b = some c ↔ a + b = c ∧ a + b < 2 ^ bits := checked_eq_some

theorem checkedAdd_of_lt {bits a b : Nat} (h : a + b < 2 ^ bits) :
    checkedAdd bits a b = some (a + b) := if_pos h

theorem checkedAdd_of_le {bits a b : Nat} (h : 2 ^ bits ≤ a + b) : checkedAdd bits a b = none :=
  if_neg (Nat.not_lt_of_le h)

/-- An exact result is needed below the bound. -/
theorem needs {ε : Type} {bits n : Nat} {e : ε} :
    Checked.Needs (n < 2 ^ bits) e (Checked.okOr (checked bits n) e) := by
  unfold checked
  split
  next h => exact ⟨fun hnot => absurd h hnot, fun _ _ heq => by cases heq⟩
  next h => exact ⟨fun _ => rfl, fun hlt => absurd hlt h⟩

@[simp] theorem checkedMul_eq_some {bits a b c : Nat} :
    checkedMul bits a b = some c ↔ a * b = c ∧ a * b < 2 ^ bits := checked_eq_some

@[simp] theorem checkedSub_eq_some {a b c : Nat} :
    checkedSub a b = some c ↔ a - b = c ∧ b ≤ a := by
  unfold checkedSub
  split <;> simp_all

end Word
