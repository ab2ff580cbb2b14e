import Mathlib.Logic.Function.Basic

/-! # Two-key tables

A table maps a row key and a column key to a value. Writing one cell changes
its own row at one column and no other row.
-/

namespace Table

open Function

variable {α β γ : Type} [DecidableEq α] [DecidableEq β]

def put (table : α → β → γ) (row : α) (col : β) (value : γ) : α → β → γ :=
  update table row (update (table row) col value)

@[simp] theorem put_row_self (table : α → β → γ) (row : α) (col : β) (value : γ) :
    put table row col value row = update (table row) col value := update_self ..

@[simp] theorem put_row_of_ne {table : α → β → γ} {row other : α} (h : other ≠ row) (col : β)
    (value : γ) : put table row col value other = table other := update_of_ne h ..

theorem put_apply (table : α → β → γ) (row other : α) (col col' : β) (value : γ) :
    put table row col value other col' =
      if other = row ∧ col' = col then value else table other col' := by
  by_cases hrow : other = row
  · subst hrow
    by_cases hcol : col' = col
    · simp [hcol]
    · simp [hcol]
  · simp [hrow]

/-! ## Emptying several cells -/

/-- The cells at the listed keys hold `z`, the others what they held. -/
def wipe (row : α → γ) (z : γ) (keys : List α) : α → γ :=
  fun key => if key ∈ keys then z else row key

@[simp] theorem wipe_nil (row : α → γ) (z : γ) : wipe row z [] = row :=
  funext fun _ => if_neg List.not_mem_nil

theorem put_eq_wipe (table : α → β → γ) (row : α) (col : β) (z : γ) :
    put table row col z = update table row (wipe (table row) z [col]) := by
  refine congrArg (update table row) (funext fun other => ?_)
  simp [wipe, update_apply]

theorem wipe_wipe (row : α → γ) (z : γ) (keys keys' : List α) :
    wipe (wipe row z keys) z keys' = wipe row z (keys ++ keys') := by
  funext key
  by_cases h : key ∈ keys'
  · simp [wipe, h]
  · simp [wipe, h]

theorem wipe_of_mem {row : α → γ} {z : γ} {keys : List α} {key : α} (h : key ∈ keys) :
    wipe row z keys key = z := if_pos h

theorem wipe_of_notMem {row : α → γ} {z : γ} {keys : List α} {key : α} (h : key ∉ keys) :
    wipe row z keys key = row key := if_neg h

end Table
