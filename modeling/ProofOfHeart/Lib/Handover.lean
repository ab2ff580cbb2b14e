import ProofOfHeart.Lib.Trace

/-! # An office that is handed over in two steps

The holder of an office offers it to somebody, and only the acceptance of this heir
hands it over; an offer can be replaced or withdrawn before. What has happened to an
office is read off the moves of a history, newest first, and a history is lawful when
every move is signed by whom it takes.
-/

namespace Handover

open Trace

variable {α ε : Type}

inductive Move (α : Type)
  | offer (heir : α)
  | accept
  | withdraw
  | other

@[ext]
structure Office (α : Type) where
  holder : α
  offered : Option α

def Office.move (office : Office α) : Move α → Office α
  | .offer heir => { office with offered := some heir }
  | .accept => ⟨office.offered.getD office.holder, none⟩
  | .withdraw => { office with offered := none }
  | .other => office

/-- How the events of a system bear on an office. -/
structure Rules (α ε : Type) where
  move : ε → Move α
  signs : ε → α → Prop
  /-- An offer has to wait until none stands. -/
  exclusive : Bool

/-- The office after a history, when `first` was the first to hold it. -/
def Rules.after (rules : Rules α ε) (first : α) (tr : List ε) : Office α :=
  tr.foldr (fun e office => office.move (rules.move e)) ⟨first, none⟩

inductive Rules.Allowed (rules : Rules α ε) (office : Office α) (e : ε) : Move α → Prop
  | offer {heir : α} (signed : rules.signs e office.holder) (other : heir ≠ office.holder)
      (free : rules.exclusive = true → office.offered = none) : rules.Allowed office e (.offer heir)
  | accept {heir : α} (standing : office.offered = some heir) (signed : rules.signs e heir) :
      rules.Allowed office e .accept
  | withdraw (standing : office.offered ≠ none) (signed : rules.signs e office.holder) :
      rules.Allowed office e .withdraw
  | other : rules.Allowed office e .other

/-- Every move of a history was allowed when it was made. -/
def Rules.Lawful (rules : Rules α ε) (first : α) (tr : List ε) : Prop :=
  ∀ later e earlier, tr = later ++ e :: earlier →
    rules.Allowed (rules.after first earlier) e (rules.move e)

variable {rules : Rules α ε} {first heir : α} {tr : List ε} {e : ε} {office : Office α}

@[simp] theorem Rules.after_nil : rules.after first [] = ⟨first, none⟩ := rfl

@[simp] theorem Rules.after_cons :
    rules.after first (e :: tr) = (rules.after first tr).move (rules.move e) := rfl

theorem Rules.lawful_nil : rules.Lawful first [] := by
  intro later e earlier heq
  cases later <;> cases heq

theorem Rules.lawful_cons : rules.Lawful first (e :: tr) ↔
    rules.Allowed (rules.after first tr) e (rules.move e) ∧ rules.Lawful first tr :=
  forall_split_cons

/-- The office is what a lawful history has made of it. -/
structure Rules.Follows (rules : Rules α ε) (first : α) (tr : List ε) (office : Office α) :
    Prop where
  lawful : rules.Lawful first tr
  now : office = rules.after first tr

/-- While nothing happens to the office, the first one holds it. -/
theorem Rules.Follows.idle (h : ∀ e ∈ tr, rules.move e = .other) :
    rules.Follows first tr ⟨first, none⟩ := by
  induction tr with
  | nil => exact ⟨Rules.lawful_nil, rfl⟩
  | cons e rest ih =>
      obtain ⟨he, hrest⟩ := List.forall_mem_cons.mp h
      have follows := ih hrest
      refine ⟨Rules.lawful_cons.mpr ⟨he ▸ .other, follows.lawful⟩, ?_⟩
      rw [Rules.after_cons, he, ← follows.now]
      rfl

/-- One more event, if it is allowed. -/
theorem Rules.Follows.step (h : rules.Follows first tr office)
    (hallowed : rules.Allowed office e (rules.move e)) :
    rules.Follows first (e :: tr) (office.move (rules.move e)) := by
  obtain ⟨hlawful, rfl⟩ := h
  exact ⟨Rules.lawful_cons.mpr ⟨hallowed, hlawful⟩, rfl⟩

/-- An offer stands from when it is made until the next move. -/
theorem Rules.offered_iff : (rules.after first tr).offered = some heir ↔
    Since (fun e => rules.move e = .other) (fun e => rules.move e = .offer heir) tr := by
  induction tr with
  | nil =>
      constructor
      · intro h
        cases h
      · intro h
        cases h
  | cons e rest ih =>
      rw [since_cons, Rules.after_cons, ← ih]
      cases hmove : rules.move e with
      | offer other => simp [Office.move]
      | accept => simp [Office.move]
      | withdraw => simp [Office.move]
      | other => simp [Office.move]

theorem Rules.Allowed.offered_ne (h : rules.Allowed office e (rules.move e))
    (hbefore : ∀ heir, office.offered = some heir → heir ≠ office.holder)
    (hheir : (office.move (rules.move e)).offered = some heir) :
    heir ≠ (office.move (rules.move e)).holder := by
  generalize rules.move e = move at h hheir
  cases h with
  | offer signed other =>
      obtain rfl := Option.some.inj hheir
      exact other
  | accept | withdraw => cases hheir
  | other => exact hbefore heir hheir

/-- Nobody is offered what he holds. -/
theorem Rules.Lawful.offered_ne (h : rules.Lawful first tr) :
    ∀ heir, (rules.after first tr).offered = some heir →
      heir ≠ (rules.after first tr).holder := by
  induction tr with
  | nil =>
      intro heir hheir
      cases hheir
  | cons e rest ih =>
      obtain ⟨hallowed, hrest⟩ := Rules.lawful_cons.mp h
      exact fun heir hheir => hallowed.offered_ne (ih hrest) hheir

/-- `e` handed the office to `heir`: before, the holder had offered it to `heir`, and in
between nothing happened to it. -/
def Rules.HandsOver (rules : Rules α ε) (first heir : α) (e : ε) (earlier : List ε) : Prop :=
  rules.move e = .accept ∧ rules.signs e heir ∧ heir ≠ (rules.after first earlier).holder ∧
    ∃ between o before, earlier = between ++ o :: before ∧ rules.move o = .offer heir ∧
      rules.signs o (rules.after first before).holder ∧
      ∀ x ∈ between, rules.move x = .other

theorem Rules.Lawful.handsOver {later earlier : List ε} (h : rules.Lawful first tr)
    (htr : tr = later ++ e :: earlier) (haccept : rules.move e = .accept) :
    ∃ heir, rules.HandsOver first heir e earlier ∧
      (rules.after first (e :: earlier)).holder = heir := by
  have hallowed := h later e earlier htr
  have hlater : rules.Lawful first earlier := by
    intro mid x before heq
    exact h (later ++ e :: mid) x before (by rw [htr, heq, List.append_assoc]; rfl)
  rw [haccept] at hallowed
  cases hallowed with
  | @accept heir standing signed =>
      refine ⟨heir, ⟨haccept, signed, hlater.offered_ne heir standing, ?_⟩, ?_⟩
      · obtain ⟨between, o, before, heq, hoffer, hidle⟩ :=
          since_iff.mp (Rules.offered_iff.mp standing)
        have hmade := hlater between o before heq
        rw [hoffer] at hmade
        cases hmade with
        | offer signed => exact ⟨between, o, before, heq, hoffer, signed, hidle⟩
      · rw [Rules.after_cons, haccept, Office.move, standing]
        rfl

/-- Whoever holds the office was the first to, or was handed it last. -/
theorem Rules.Lawful.holder (h : rules.Lawful first tr) :
    (rules.after first tr).holder = first ∧ (∀ e ∈ tr, rules.move e ≠ .accept) ∨
      ∃ later e earlier, tr = later ++ e :: earlier ∧ (∀ x ∈ later, rules.move x ≠ .accept) ∧
        rules.HandsOver first (rules.after first tr).holder e earlier := by
  induction tr with
  | nil => exact .inl ⟨rfl, fun _ hx => nomatch hx⟩
  | cons e rest ih =>
      by_cases haccept : rules.move e = .accept
      · obtain ⟨heir, hands, rfl⟩ := h.handsOver (List.nil_append _).symm haccept
        exact .inr ⟨[], e, rest, rfl, (fun _ hx => nomatch hx), hands⟩
      · have hsame : (rules.after first (e :: rest)).holder = (rules.after first rest).holder := by
          rw [Rules.after_cons]
          cases hmove : rules.move e with
          | accept => exact absurd hmove haccept
          | _ => rfl
        rw [hsame]
        rcases ih (Rules.lawful_cons.mp h).2 with
          ⟨hfirst, hnone⟩ | ⟨later, x, earlier, rfl, hlater, hands⟩
        · exact .inl ⟨hfirst, List.forall_mem_cons.mpr ⟨haccept, hnone⟩⟩
        · exact .inr ⟨e :: later, x, earlier, rfl,
            List.forall_mem_cons.mpr ⟨haccept, hlater⟩, hands⟩

end Handover
