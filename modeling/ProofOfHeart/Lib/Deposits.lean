import Mathlib.Algebra.BigOperators.Group.List.Basic
import Mathlib.Algebra.Order.Ring.Int
import ProofOfHeart.Lib.Trace

/-! # Deposits that are given back whole

Parties pay money into an account, from which it is paid out, or each of them takes
back what is held for him. The first who does closes the account: from then on money
leaves it only in this way. The book of an account is read off a history, newest
first, and a history is regular when the book before each entry admits it.
-/

namespace Deposits

open Function Trace

variable {α ε : Type} [DecidableEq α]

inductive Entry (α : Type)
  | paidIn (who : α) (amount : Int)
  | paidBack (who : α)
  | paidOut
  | other

structure Book (α : Type) where
  held : α → Int
  closing : Bool

def Book.blank : Book α := ⟨fun _ => 0, false⟩

def Book.enter (book : Book α) : Entry α → Book α
  | .paidIn who amount => { book with held := update book.held who (book.held who + amount) }
  | .paidBack who => ⟨update book.held who 0, true⟩
  | .paidOut => book
  | .other => book

inductive Book.Admits (book : Book α) : Entry α → Prop
  | paidIn {who : α} {amount : Int} (running : book.closing = false) (pos : 0 < amount) :
      book.Admits (.paidIn who amount)
  | paidBack {who : α} (owed : 0 < book.held who) : book.Admits (.paidBack who)
  | paidOut (running : book.closing = false) : book.Admits .paidOut
  | other : book.Admits .other

/-- What an entry adds to the deposit of a party. -/
def Entry.gives (who : α) : Entry α → Int
  | .paidIn party amount => if party = who then amount else 0
  | _ => 0

/-! ## The book after a history -/

section History

variable (entry : ε → Entry α)

def bookAfter (tr : List ε) : Book α := tr.foldr (fun e book => book.enter (entry e)) .blank

/-- All that a party has ever paid in. -/
def given (who : α) (tr : List ε) : Int := (tr.map fun e => (entry e).gives who).sum

def Regular (tr : List ε) : Prop :=
  ∀ later e earlier, tr = later ++ e :: earlier → (bookAfter entry earlier).Admits (entry e)

end History

variable {entry : ε → Entry α} {tr later earlier : List ε} {e : ε} {who : α}

@[simp] theorem bookAfter_nil : bookAfter entry [] = .blank := rfl

@[simp] theorem bookAfter_cons :
    bookAfter entry (e :: tr) = (bookAfter entry tr).enter (entry e) := rfl

@[simp] theorem given_nil : given entry who [] = 0 := rfl

@[simp] theorem given_cons :
    given entry who (e :: tr) = (entry e).gives who + given entry who tr := rfl

theorem given_append :
    given entry who (later ++ earlier) = given entry who later + given entry who earlier := by
  rw [given, List.map_append, List.sum_append]
  rfl

theorem given_eq_zero (h : ∀ x ∈ tr, (entry x).gives who = 0) : given entry who tr = 0 :=
  List.sum_eq_zero fun x hx => by
    obtain ⟨y, hy, rfl⟩ := List.mem_map.mp hx
    exact h y hy

theorem regular_nil : Regular entry [] := by
  intro later e earlier heq
  cases later <;> cases heq

theorem regular_cons :
    Regular entry (e :: tr) ↔ (bookAfter entry tr).Admits (entry e) ∧ Regular entry tr :=
  forall_split_cons

theorem Regular.suffix (h : Regular entry (later ++ earlier)) : Regular entry earlier := by
  intro mid x before heq
  exact h (later ++ mid) x before (by rw [heq, List.append_assoc])

/-- While nothing happens to an account, nothing is held. -/
theorem bookAfter_idle (h : ∀ x ∈ tr, entry x = .other) :
    Regular entry tr ∧ bookAfter entry tr = .blank := by
  induction tr with
  | nil => exact ⟨regular_nil, rfl⟩
  | cons x rest ih =>
      obtain ⟨hx, hrest⟩ := List.forall_mem_cons.mp h
      obtain ⟨hregular, hblank⟩ := ih hrest
      refine ⟨regular_cons.mpr ⟨hx ▸ .other, hregular⟩, ?_⟩
      rw [bookAfter_cons, hx, hblank]
      rfl

/-- An account is closing once somebody has been paid back. -/
theorem closing_iff :
    (bookAfter entry tr).closing = true ↔ ∃ x ∈ tr, ∃ party, entry x = .paidBack party := by
  induction tr with
  | nil => simp [Book.blank]
  | cons x rest ih =>
      rw [bookAfter_cons, List.exists_mem_cons_iff, ← ih]
      cases entry x with
      | paidIn party amount => simp [Book.enter]
      | paidBack party => simp [Book.enter]
      | paidOut => simp [Book.enter]
      | other => simp [Book.enter]

/-- For whom has not been paid back, all is held that he has given. -/
theorem held_of_not_paidBack (h : ∀ x ∈ tr, entry x ≠ .paidBack who) :
    (bookAfter entry tr).held who = given entry who tr := by
  induction tr with
  | nil => rfl
  | cons x rest ih =>
      obtain ⟨hx, hrest⟩ := List.forall_mem_cons.mp h
      have hheld := ih hrest
      rw [bookAfter_cons, given_cons, ← hheld]
      cases hentry : entry x with
      | paidIn party amount =>
          by_cases hparty : party = who
          · subst hparty
            simp [Book.enter, Entry.gives]
            omega
          · simp [Book.enter, Entry.gives, hparty, update_of_ne (Ne.symm hparty)]
      | paidBack party =>
          have hparty : who ≠ party := by
            rintro rfl
            exact hx hentry
          simp [Book.enter, Entry.gives, update_of_ne hparty]
      | paidOut => simp [Book.enter, Entry.gives]
      | other => simp [Book.enter, Entry.gives]

/-- For whom has been paid back, nothing is held any more. -/
theorem Regular.held_of_paidBack (h : Regular entry tr)
    (hback : ∃ x ∈ tr, entry x = .paidBack who) : (bookAfter entry tr).held who = 0 := by
  induction tr with
  | nil =>
      obtain ⟨x, hx, -⟩ := hback
      cases hx
  | cons x rest ih =>
      obtain ⟨hadmits, hregular⟩ := regular_cons.mp h
      have hrest : entry x ≠ .paidBack who → ∃ y ∈ rest, entry y = .paidBack who := fun hne =>
        ((List.exists_mem_cons_iff ..).mp hback).resolve_left hne
      rw [bookAfter_cons]
      generalize entry x = now at hadmits hrest
      cases hadmits with
      | paidIn running pos =>
          obtain ⟨y, hy, hy'⟩ := hrest nofun
          have hclosing : (bookAfter entry rest).closing = true :=
            closing_iff.mpr ⟨y, hy, who, hy'⟩
          cases running.symm.trans hclosing
      | @paidBack party owed =>
          by_cases hparty : who = party
          · subst hparty
            exact update_self ..
          · have hheld := ih hregular (hrest fun heq => hparty (Entry.paidBack.inj heq).symm)
            exact (update_of_ne hparty ..).trans hheld
      | paidOut | other => exact ih hregular (hrest nofun)

/-- What follows a payment back gives nothing and does not pay back again. -/
theorem Regular.after_paidBack (h : Regular entry (later ++ e :: earlier))
    (hback : entry e = .paidBack who) :
    ∀ x ∈ later, (entry x).gives who = 0 ∧ entry x ≠ .paidBack who := by
  intro x hx
  obtain ⟨newer, older, rfl⟩ := List.append_of_mem hx
  have hsplit : newer ++ x :: older ++ e :: earlier = newer ++ x :: (older ++ e :: earlier) := by
    rw [List.append_assoc, List.cons_append]
  rw [hsplit] at h
  have hadmits := h newer x _ rfl
  have hregular : Regular entry (older ++ e :: earlier) := (regular_cons.mp h.suffix).2
  have hpaid : ∃ y ∈ older ++ e :: earlier, entry y = .paidBack who :=
    ⟨e, List.mem_append_right _ List.mem_cons_self, hback⟩
  have hheld := hregular.held_of_paidBack hpaid
  obtain ⟨y, hy, hy'⟩ := hpaid
  have hclosing := closing_iff.mpr ⟨y, hy, who, hy'⟩
  generalize entry x = now at hadmits
  cases hadmits with
  | paidIn running => cases running.symm.trans hclosing
  | @paidBack party owed =>
      refine ⟨rfl, fun heq => ?_⟩
      obtain rfl := Entry.paidBack.inj heq
      omega
  | paidOut running => cases running.symm.trans hclosing
  | other => exact ⟨rfl, nofun⟩

/-- Each party is paid back at most once, and exactly what he gives in the whole history. -/
theorem Regular.paidBack_once (h : Regular entry (later ++ e :: earlier))
    (hback : entry e = .paidBack who) :
    (bookAfter entry earlier).held who = given entry who (later ++ e :: earlier) ∧
      ∀ x ∈ later ++ earlier, entry x ≠ .paidBack who := by
  have hearlier : ∀ x ∈ earlier, entry x ≠ .paidBack who := by
    intro x hx heq
    have hadmits := h later e earlier rfl
    have hheld := (regular_cons.mp h.suffix).2.held_of_paidBack ⟨x, hx, heq⟩
    rw [hback] at hadmits
    cases hadmits with
    | paidBack owed => omega
  have hlater := h.after_paidBack hback
  refine ⟨?_, fun x hx => (List.mem_append.mp hx).elim (fun hx => (hlater x hx).2) (hearlier x)⟩
  rw [held_of_not_paidBack hearlier, given_append, given_cons, hback,
    given_eq_zero fun x hx => (hlater x hx).1]
  simp [Entry.gives]

end Deposits
