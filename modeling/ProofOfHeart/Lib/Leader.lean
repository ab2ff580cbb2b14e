import Mathlib.Algebra.Order.Ring.Int
import Mathlib.Logic.Function.Basic

/-! # A leader among holders

A leader holds at least as much as everybody else. A holder whose share grows need only
be compared with the leader, while a leader whose share is taken away has to be replaced.
-/

namespace Leader

open Function

variable {ι : Type} {held : ι → Int} {top i : ι} {x : Int}

/-- Nobody holds more than `top`. -/
def Leads (held : ι → Int) (top : ι) : Prop := ∀ j, held j ≤ held top

theorem leads_of_zero (h : ∀ j, held j = 0) (top : ι) : Leads held top := fun j => by
  rw [h j, h top]

variable [DecidableEq ι]

theorem Leads.kept (h : Leads held top) (hi : i ≠ top) (hx : x ≤ held top) :
    Leads (update held i x) top := by
  intro j
  rw [update_of_ne hi.symm]
  by_cases hj : j = i
  · rwa [hj, update_self]
  · rw [update_of_ne hj]
    exact h j

theorem Leads.overtaken (h : Leads held top) (hx : held top ≤ x) : Leads (update held i x) i := by
  intro j
  rw [update_self]
  by_cases hj : j = i
  · rw [hj, update_self]
  · rw [update_of_ne hj]
    exact le_trans (h j) hx

/-- A share that grows leaves the leader in place exactly when it is the leader's own or
does not pass it. -/
theorem Leads.raise_iff (h : Leads held top) (hx : held i ≤ x) :
    Leads (update held i x) top ↔ top = i ∨ x ≤ held top := by
  by_cases htop : top = i
  · subst htop
    exact iff_of_true (h.overtaken hx) (.inl rfl)
  · refine ⟨fun hleads => .inr ?_, fun hor => h.kept (Ne.symm htop) (hor.resolve_left htop)⟩
    have hi := hleads i
    rwa [update_self, update_of_ne htop] at hi

/-- A share that is taken away leaves the leader in place exactly when it is not the
leader's own. -/
theorem Leads.clear_iff (h : Leads held top) (hother : ∃ j, 0 < update held i 0 j)
    (hi : 0 ≤ held i) : Leads (update held i 0) top ↔ top ≠ i := by
  constructor
  · rintro hleads rfl
    obtain ⟨j, hj⟩ := hother
    have hle := hleads j
    rw [update_self] at hle
    omega
  · intro htop
    exact h.kept htop.symm (le_trans hi (h i))

end Leader
