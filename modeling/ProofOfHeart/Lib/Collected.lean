import Mathlib.Data.List.Basic

/-! # What a history has collected

A history is a list of events, newest first. Some events enter a value and some clear
away everything entered so far. `all` forgets the clearings, `since` starts afresh at
each of them.
-/

namespace Collected

variable {ε β : Type} (entry : ε → Option β) (clears : ε → Bool)

def all (tr : List ε) : List β := tr.filterMap entry

/-- The values entered since the last clearing, newest first. -/
def since : List ε → List β
  | [] => []
  | e :: earlier => if clears e then [] else (entry e).toList ++ since earlier

variable {entry} {clears} {e : ε} {tr : List ε}

@[simp] theorem all_nil : all entry [] = [] := rfl

theorem all_cons : all entry (e :: tr) = (entry e).toList ++ all entry tr := by
  rw [all, List.filterMap_cons]
  cases entry e <;> rfl

theorem all_append (later earlier : List ε) :
    all entry (later ++ earlier) = all entry later ++ all entry earlier :=
  List.filterMap_append ..

@[simp] theorem since_nil : since entry clears [] = [] := rfl

theorem since_of_clears (h : clears e = true) : since entry clears (e :: tr) = [] := if_pos h

theorem since_cons (h : clears e = false) :
    since entry clears (e :: tr) = (entry e).toList ++ since entry clears tr :=
  if_neg (Bool.eq_false_iff.mp h)

/-- An event that neither enters nor clears is passed over. -/
theorem since_quiet (quiet : entry e = none) (h : clears e = false) :
    since entry clears (e :: tr) = since entry clears tr := by
  rw [since_cons h, quiet]
  rfl

theorem all_quiet (quiet : entry e = none) : all entry (e :: tr) = all entry tr := by
  rw [all_cons, quiet]
  rfl

theorem since_sublist : List.Sublist (since entry clears tr) (all entry tr) := by
  induction tr with
  | nil => exact .refl _
  | cons e earlier ih =>
      rw [all_cons]
      cases h : clears e with
      | true =>
          rw [since_of_clears h]
          exact List.nil_sublist _
      | false =>
          rw [since_cons h]
          exact .append (.refl _) ih

/-- What has been entered since a clearing was entered after it. -/
theorem since_sublist_later (h : clears e = true) (later earlier : List ε) :
    List.Sublist (since entry clears (later ++ e :: earlier)) (all entry later) := by
  induction later with
  | nil =>
      rw [List.nil_append, since_of_clears h]
      exact List.nil_sublist _
  | cons x rest ih =>
      rw [List.cons_append, all_cons]
      cases hx : clears x with
      | true =>
          rw [since_of_clears hx]
          exact List.nil_sublist _
      | false =>
          rw [since_cons hx]
          exact .append (.refl _) ih

theorem since_map {γ : Type} (f : β → γ) :
    since (fun e => (entry e).map f) clears tr = (since entry clears tr).map f := by
  induction tr with
  | nil => rfl
  | cons e earlier ih =>
      cases h : clears e with
      | true => rw [since_of_clears h, since_of_clears h, List.map_nil]
      | false =>
          rw [since_cons h, since_cons h, ih, List.map_append]
          cases entry e <;> rfl

/-- What stands entered was entered by the last event, or stood before. -/
theorem mem_since_cons {b : β} (h : b ∈ since entry clears (e :: tr)) :
    clears e = false ∧ (entry e = some b ∨ b ∈ since entry clears tr) := by
  cases hclears : clears e with
  | true =>
      rw [since_of_clears hclears] at h
      cases h
  | false =>
      rw [since_cons hclears, List.mem_append, Option.mem_toList] at h
      exact ⟨rfl, h⟩

/-! ## The first entry -/

variable (entry) (clears) in
/-- The oldest value entered since the last clearing. -/
def first (tr : List ε) : Option β := (since entry clears tr).getLast?

@[simp] theorem first_nil : first entry clears [] = none := rfl

theorem first_of_clears (h : clears e = true) : first entry clears (e :: tr) = none := by
  rw [first, since_of_clears h]
  rfl

/-- Later values do not replace the first one. -/
theorem first_cons (h : clears e = false) :
    first entry clears (e :: tr) = (first entry clears tr).or (entry e) := by
  rw [first, since_cons h, List.getLast?_append, first]
  cases entry e <;> rfl

theorem first_quiet (quiet : entry e = none) (h : clears e = false) :
    first entry clears (e :: tr) = first entry clears tr := by
  rw [first_cons h, quiet, Option.or_none]

theorem mem_of_first {b : β} (h : first entry clears tr = some b) :
    ∃ e ∈ tr, entry e = some b :=
  List.mem_filterMap.mp (since_sublist.mem (List.mem_of_getLast? h))

end Collected
