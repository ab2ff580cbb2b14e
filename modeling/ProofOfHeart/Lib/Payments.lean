import Mathlib.Algebra.Order.Ring.Int
import Mathlib.Logic.Function.Basic

/-! # Paying at once and paying at the end

Orders are served one after another. An accepted order changes the shop and costs a
positive amount in one currency. Whether each order is paid from a purse as it is
accepted, or all of them are added up by currency and paid at the end, the same lists
of orders are served, and the shop and the purse end the same.
-/

namespace Payments

open Function

variable {σ ι κ : Type} [DecidableEq κ]

section Relations

variable (Accepts : σ → ι → σ → κ → Int → Prop)

/-- Nothing is free. -/
def Positive : Prop := ∀ s i t k x, Accepts s i t k x → 0 < x

/-- An order that is accepted changes the shop and costs in one way only. -/
def Functional : Prop := ∀ s i t k x t' k' x', Accepts s i t k x → Accepts s i t' k' x' →
  t = t' ∧ k = k' ∧ x = x'

inductive PaysAtOnce : σ → (κ → Int) → List ι → σ → (κ → Int) → Prop
  | nil {s : σ} {purse : κ → Int} : PaysAtOnce s purse [] s purse
  | cons {s t s' : σ} {purse purse' : κ → Int} {i : ι} {rest : List ι} {k : κ} {x : Int}
      (accepts : Accepts s i t k x) (afford : x ≤ purse k)
      (next : PaysAtOnce t (update purse k (purse k - x)) rest s' purse') :
      PaysAtOnce s purse (i :: rest) s' purse'

inductive AddsUp : σ → (κ → Int) → List ι → σ → (κ → Int) → Prop
  | nil {s : σ} {owed : κ → Int} : AddsUp s owed [] s owed
  | cons {s t s' : σ} {owed owed' : κ → Int} {i : ι} {rest : List ι} {k : κ} {x : Int}
      (accepts : Accepts s i t k x) (next : AddsUp t (update owed k (owed k + x)) rest s' owed') :
      AddsUp s owed (i :: rest) s' owed'

end Relations

variable {Accepts : σ → ι → σ → κ → Int → Prop} {s s' : σ} {items : List ι}
  {purse purse' owed owed' : κ → Int}

/-- What is left of a purse after all debts. -/
def less (purse owed : κ → Int) : κ → Int := fun k => purse k - owed k

theorem less_update {k : κ} {x : Int} : update (less purse owed) k (less purse owed k - x) =
    less purse (update owed k (owed k + x)) := by
  funext j
  by_cases h : j = k
  · subst h
    rw [update_self, less, less, update_self]
    omega
  · rw [update_of_ne h, less, less, update_of_ne h]

theorem AddsUp.unique {s'' : σ} {owed'' : κ → Int} (hfun : Functional Accepts)
    (h : AddsUp Accepts s owed items s' owed') (h' : AddsUp Accepts s owed items s'' owed'') :
    s' = s'' ∧ owed' = owed'' := by
  induction h with
  | nil =>
      cases h'
      exact ⟨rfl, rfl⟩
  | cons accepts _ ih =>
      cases h' with
      | cons accepts' next' =>
          obtain ⟨rfl, rfl, rfl⟩ := hfun _ _ _ _ _ _ _ _ accepts accepts'
          exact ih next'

/-- Debts only grow. -/
theorem AddsUp.mono (hpos : Positive Accepts)
    (h : AddsUp Accepts s owed items s' owed') (k : κ) : owed k ≤ owed' k := by
  induction h with
  | nil => exact le_refl _
  | @cons s t s' owed owed' i rest j x accepts next ih =>
      have hx := hpos _ _ _ _ _ accepts
      by_cases hk : k = j
      · subst hk
        rw [update_self] at ih
        omega
      · rwa [update_of_ne hk] at ih

/-- Whoever pays at once could have paid at the end. -/
theorem PaysAtOnce.addsUp (hpos : Positive Accepts)
    (h : PaysAtOnce Accepts s (less purse owed) items s' purse') :
    ∃ owed', AddsUp Accepts s owed items s' owed' ∧ purse' = less purse owed' ∧
      ∀ k, owed k < owed' k → owed' k ≤ purse k := by
  generalize hstart : less purse owed = start at h
  induction h generalizing owed with
  | nil => exact ⟨owed, .nil, hstart.symm, fun k hk => absurd hk (lt_irrefl _)⟩
  | @cons s t s' start purse' i rest k x accepts afford next ih =>
      subst hstart
      obtain ⟨owed', hadds, hpurse, hcovered⟩ := ih less_update.symm
      refine ⟨owed', .cons accepts hadds, hpurse, fun j hj => ?_⟩
      have hmono := hadds.mono hpos j
      by_cases hjk : j = k
      · subst hjk
        rcases lt_or_eq_of_le hmono with hmore | hsame
        · exact hcovered j hmore
        · rw [← hsame, update_self]
          rw [less] at afford
          omega
      · refine hcovered j ?_
        rwa [update_of_ne hjk]

/-- Whoever can pay at the end could have paid at once. -/
theorem AddsUp.paysAtOnce (hpos : Positive Accepts)
    (h : AddsUp Accepts s owed items s' owed')
    (hcovered : ∀ k, owed k < owed' k → owed' k ≤ purse k) :
    PaysAtOnce Accepts s (less purse owed) items s' (less purse owed') := by
  induction h with
  | nil => exact .nil
  | @cons s t s' owed owed' i rest k x accepts next ih =>
      have hx := hpos _ _ _ _ _ accepts
      have hmono := next.mono hpos k
      rw [update_self] at hmono
      have hafford : x ≤ less purse owed k := by
        have hk := hcovered k (by omega)
        rw [less]
        omega
      refine .cons accepts hafford ?_
      rw [less_update]
      refine ih fun j hj => hcovered j ?_
      by_cases hjk : j = k
      · subst hjk
        omega
      · rwa [update_of_ne hjk] at hj

/-- With nothing owed at first, the purse must cover each debt. -/
theorem paysAtOnce_iff (hpos : Positive Accepts) :
    PaysAtOnce Accepts s purse items s' purse' ↔
      ∃ owed, AddsUp Accepts s (fun _ => 0) items s' owed ∧ purse' = less purse owed ∧
        ∀ k, 0 < owed k → owed k ≤ purse k := by
  have hstart : purse = less purse fun _ => 0 := funext fun k => (Int.sub_zero _).symm
  constructor
  · intro h
    rw [hstart] at h
    exact h.addsUp hpos
  · rintro ⟨owed, hadds, rfl, hcovered⟩
    have h := hadds.paysAtOnce hpos hcovered
    rwa [← hstart] at h

end Payments
