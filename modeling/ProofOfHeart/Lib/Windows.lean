import Mathlib.Algebra.BigOperators.Group.List.Basic
import Mathlib.Algebra.GroupWithZero.Nat
import Mathlib.Data.List.Basic

/-! # A limit for each window of time

An entry holds the latest window in which something was counted and the count in it.
Windows come in their order, so that the entry need not remember the earlier ones. The
history lists the events newest first, each with its window and its weight.
-/

namespace Windows

variable {limit window now k k' : Nat} {entry entry' entry'' : Nat × Nat}
  {events : List (Nat × Nat)}

/-- What the entry has counted in a window. -/
def spent (window : Nat) (entry : Nat × Nat) : Nat :=
  if window = entry.1 then entry.2 else 0

@[simp] theorem spent_self {count : Nat} : spent window (window, count) = count := if_pos rfl

/-- `k` more are counted in a window, within the limit; nothing is written for none. -/
inductive Spends (limit window : Nat) : Nat → Nat × Nat → Nat × Nat → Prop
  | nothing {entry : Nat × Nat} : Spends limit window 0 entry entry
  | count {k : Nat} {entry : Nat × Nat} (pos : 0 < k)
      (within : spent window entry + k ≤ limit) :
      Spends limit window k entry (window, spent window entry + k)

/-- Nothing spent leaves the entry. -/
theorem Spends.eq_of_none (h : Spends limit window 0 entry entry') : entry' = entry := by
  cases h with
  | nothing => rfl
  | count pos => exact absurd pos (Nat.lt_irrefl 0)

theorem Spends.trans (h : Spends limit window k entry entry')
    (h' : Spends limit window k' entry' entry'') :
    Spends limit window (k + k') entry entry'' := by
  cases h with
  | nothing => rwa [Nat.zero_add]
  | count pos within =>
      cases h' with
      | nothing => exact .count pos within
      | count pos' within' =>
          rw [spent_self, Nat.add_assoc] at within' ⊢
          exact .count (Nat.add_pos_left pos k') within'

/-- No entry is ever over the limit. -/
theorem Spends.count_le (h : Spends limit window k entry entry') (hle : entry.2 ≤ limit) :
    entry'.2 ≤ limit := by
  cases h with
  | nothing => exact hle
  | count pos within => exact within

/-- The weight of all events in a window. -/
def total (window : Nat) (events : List (Nat × Nat)) : Nat :=
  (events.map fun event => if event.1 = window then event.2 else 0).sum

theorem total_cons {w : Nat} : total w ((window, k) :: events) =
    (if window = w then k else 0) + total w events := by
  rw [total, List.map_cons, List.sum_cons, total]

/-- The entry knows the latest window with events, and no window is over the limit. -/
structure Tracks (limit now : Nat) (entry : Nat × Nat) (events : List (Nat × Nat)) : Prop where
  past : entry.1 ≤ now
  later : ∀ window, entry.1 < window → total window events = 0
  latest : entry.2 = total entry.1 events
  within : ∀ window, total window events ≤ limit

/-- In a window that has not been left the entry counts all events. -/
theorem Tracks.spent_eq (h : Tracks limit now entry events) (hnow : now ≤ window) :
    spent window entry = total window events := by
  unfold spent
  split
  next heq => rw [heq, h.latest]
  next hne =>
      have hpast := h.past
      rw [h.later window (by omega)]

theorem Tracks.count_le (h : Tracks limit now entry events) : entry.2 ≤ limit :=
  h.latest ▸ h.within entry.1

theorem Tracks.step (h : Tracks limit now entry events) (hnow : now ≤ window)
    (hspends : Spends limit window k entry entry') :
    Tracks limit window entry' ((window, k) :: events) := by
  have hpast := Nat.le_trans h.past hnow
  cases hspends with
  | nothing =>
      have hsame : ∀ w, total w ((window, 0) :: events) = total w events := fun w => by
        rw [total_cons, ite_self, Nat.zero_add]
      refine ⟨hpast, fun w hw => ?_, ?_, fun w => ?_⟩
      · rw [hsame, h.later w hw]
      · rw [hsame, h.latest]
      · rw [hsame]
        exact h.within w
  | count pos within =>
      rw [h.spent_eq hnow] at within ⊢
      refine ⟨Nat.le_refl _, fun w hw => ?_, ?_, fun w => ?_⟩
      · rw [total_cons, if_neg (Nat.ne_of_lt hw), Nat.zero_add,
          h.later w (Nat.lt_of_le_of_lt hpast hw)]
      · rw [total_cons, if_pos rfl, Nat.add_comm]
      · rw [total_cons]
        split
        next heq =>
            rw [← heq, Nat.add_comm]
            exact within
        next =>
            rw [Nat.zero_add]
            exact h.within w

theorem Tracks.start {count : Nat} (hcount : count = 0) (hevents : ∀ w, total w events = 0) :
    Tracks limit now (0, count) events where
  past := Nat.zero_le _
  later w _ := hevents w
  latest := hcount.trans (hevents 0).symm
  within w := by
    rw [hevents]
    exact Nat.zero_le _

end Windows
