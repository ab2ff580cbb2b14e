import Mathlib.Data.List.Nodup
import Mathlib.Logic.Relation
import Mathlib.Order.Basic

/-! # Paging by a cursor through marked numbers

A page holds marked numbers after a cursor, in order. It ends when it is full,
when it has looked at a window of numbers, or at the last number of all. The
cursor it hands back lies one past the last number it looked at, while the next
page begins after its cursor: the number of the cursor itself is never looked at.
-/

namespace Cursors

open Relation

/-- The marked numbers after `c` and up to `b`. -/
def between (marked : Nat → Bool) (c b : Nat) : List Nat :=
  (List.range' (c + 1) (b - c)).filter marked

section Between

variable {marked : Nat → Bool} {c b n : Nat}

@[simp] theorem between_self : between marked c c = [] := by
  rw [between, Nat.sub_self]
  rfl

theorem mem_between : n ∈ between marked c b ↔ (c < n ∧ n ≤ b) ∧ marked n = true := by
  have hrange : c + 1 ≤ n ∧ n < c + 1 + (b - c) ↔ c < n ∧ n ≤ b := by omega
  rw [between, List.mem_filter, List.mem_range'_1, hrange]

theorem between_succ (h : c ≤ b) :
    between marked c (b + 1) = between marked c b ++ [b + 1].filter marked := by
  have hlength : b + 1 - c = b - c + 1 := by omega
  have hend : c + 1 + (b - c) = b + 1 := by omega
  rw [between, hlength, List.range'_1_concat, List.filter_append, hend]
  rfl

theorem between_append {mid : Nat} (h : c ≤ mid) (h' : mid ≤ b) :
    between marked c b = between marked c mid ++ between marked mid b := by
  have hlength : b - c = (mid - c) + (b - mid) := by omega
  have hmid : c + 1 + (mid - c) = mid + 1 := by omega
  rw [between, hlength, ← List.range'_append_1, List.filter_append, hmid]
  rfl

theorem between_pairwise : (between marked c b).Pairwise (· < ·) :=
  (List.pairwise_lt_range' ..).filter _

theorem between_length_mono {b' : Nat} (h : c ≤ b) (h' : b ≤ b') :
    (between marked c b).length ≤ (between marked c b').length := by
  rw [between_append h h', List.length_append]
  exact Nat.le_add_right ..

end Between

section Pages

variable (marked : Nat → Bool) (total size window : Nat)

/-- A page after the cursor `c`, and the cursor it hands back. -/
inductive Page (c : Nat) : List Nat → Nat → Prop
  | full {k : Nat} (after : c ≤ k) (bounded : k + 1 ≤ total) (inWindow : k + 1 ≤ c + window)
      (here : marked (k + 1) = true) (filled : (between marked c (k + 1)).length = size) :
      Page c (between marked c (k + 1)) (k + 2)
  | window (more : c + window < total) (short : (between marked c (c + window)).length < size) :
      Page c (between marked c (c + window)) (c + window + 1)
  | last (inWindow : total ≤ c + window) (short : (between marked c total).length < size) :
      Page c (between marked c total) 0

/-- The cursor `d` follows the cursor `c`. -/
def Follows (c d : Nat) : Prop :=
  c < total ∧ d ≠ 0 ∧ ∃ ids, Page marked total size window c ids d

/-- Everything that paging from the cursor `c` collects. -/
inductive Collects : Nat → List Nat → Prop
  | past {c : Nat} (h : total ≤ c) : Collects c []
  | last {c : Nat} {ids : List Nat} (more : c < total)
      (page : Page marked total size window c ids 0) :
      Collects c ids
  | next {c d : Nat} {ids later : List Nat} (more : c < total) (hd : d ≠ 0)
      (page : Page marked total size window c ids d) (rest : Collects d later) :
      Collects c (ids ++ later)

end Pages

section Laws

variable {marked : Nat → Bool} {total size window c d e n : Nat} {ids ids' : List Nat}

/-- Up to the mark that fills a page there are fewer marks before it. -/
theorem length_lt_of_full {k k' : Nat} (after : c ≤ k) (hlt : k < k')
    (here : marked (k' + 1) = true) :
    (between marked c (k + 1)).length < (between marked c (k' + 1)).length := by
  have hle : (between marked c (k + 1)).length ≤ (between marked c k').length :=
    between_length_mono (by omega) hlt
  have hone : [k' + 1].filter marked = [k' + 1] := List.filter_cons_of_pos here
  rw [between_succ (by omega : c ≤ k'), hone, List.length_append, List.length_singleton]
  exact Nat.lt_succ_of_le hle

theorem Page.unique (h : Page marked total size window c ids d)
    (h' : Page marked total size window c ids' e) : ids = ids' ∧ d = e := by
  cases h with
  | @full k after bounded inWindow here filled =>
      have hshort : ∀ b, k + 1 ≤ b → ¬ (between marked c b).length < size := fun b hb => by
        have hle : c ≤ k + 1 := by omega
        have := @between_length_mono marked c (k + 1) b hle hb
        omega
      cases h' with
      | @full k' after' bounded' inWindow' here' filled' =>
          rcases Nat.lt_trichotomy k k' with hlt | rfl | hlt
          · have := length_lt_of_full after hlt here'
            omega
          · exact ⟨rfl, rfl⟩
          · have := length_lt_of_full after' hlt here
            omega
      | window more short => exact absurd short (hshort _ inWindow)
      | last inWindow' short => exact absurd short (hshort _ bounded)
  | window more short =>
      cases h' with
      | @full k after bounded inWindow here filled =>
          have hle : c ≤ k + 1 := by omega
          have := @between_length_mono marked c (k + 1) _ hle inWindow
          omega
      | window => exact ⟨rfl, rfl⟩
      | last inWindow short' => omega
  | last inWindow short =>
      cases h' with
      | @full k after bounded inWindow' here filled =>
          have hle : c ≤ k + 1 := by omega
          have := @between_length_mono marked c (k + 1) _ hle bounded
          omega
      | window more short' => omega
      | last => exact ⟨rfl, rfl⟩

/-- A page that hands a cursor back holds every mark before that cursor. -/
theorem Page.eq_between (h : Page marked total size window c ids d) (hd : d ≠ 0) :
    ∃ k, d = k + 1 ∧ c ≤ k ∧ k ≤ total ∧ ids = between marked c k := by
  cases h with
  | full after bounded => exact ⟨_, rfl, Nat.le_succ_of_le after, bounded, rfl⟩
  | window more => exact ⟨_, rfl, Nat.le_add_right .., Nat.le_of_lt more, rfl⟩
  | last => exact absurd rfl hd

theorem Page.last_eq (h : Page marked total size window c ids 0) :
    ids = between marked c total := by
  cases h
  rfl

/-- The cursors after `c` are the next one and those after it. -/
theorem transGen_follows (page : Page marked total size window c ids d) (hd : d ≠ 0)
    (more : c < total) :
    TransGen (Follows marked total size window) c e ↔
      e = d ∨ TransGen (Follows marked total size window) d e := by
  constructor
  · intro h
    obtain ⟨mid, ⟨-, -, ids', page'⟩, hrest⟩ := TransGen.head'_iff.mp h
    obtain rfl := (page.unique page').2
    rcases reflTransGen_iff_eq_or_transGen.mp hrest with rfl | hrest
    · exact .inl rfl
    · exact .inr hrest
  · rintro (rfl | h)
    · exact .single ⟨more, hd, ids, page⟩
    · exact .head ⟨more, hd, ids, page⟩ h

/-- Nothing follows a cursor that hands none back. -/
theorem not_transGen_of_last (page : Page marked total size window c ids 0) :
    ¬ TransGen (Follows marked total size window) c e := by
  intro h
  obtain ⟨mid, ⟨-, hne, ids', page'⟩, -⟩ := TransGen.head'_iff.mp h
  exact hne (page.unique page').2.symm

theorem not_transGen_of_over (h : total ≤ c) :
    ¬ TransGen (Follows marked total size window) c e := by
  intro hafter
  obtain ⟨mid, ⟨hlt, -⟩, -⟩ := TransGen.head'_iff.mp hafter
  omega

/-- What paging collects lies after the cursor, in order. -/
theorem Collects.sublist (h : Collects marked total size window c ids) :
    List.Sublist ids (between marked c total) := by
  induction h with
  | past h => exact List.nil_sublist _
  | last more page => rw [page.last_eq]
  | next more hd page rest ih =>
      obtain ⟨k, rfl, hck, hkt, rfl⟩ := page.eq_between hd
      rw [between_append hck hkt]
      refine .append (.refl _) (.trans ih ?_)
      rcases Nat.lt_or_ge k total with hlt | hge
      · rw [between_append (Nat.le_succ k) hlt]
        exact List.sublist_append_right ..
      · rw [between, Nat.sub_eq_zero_of_le (Nat.le_succ_of_le hge)]
        exact List.nil_sublist _

/-- Paging collects every mark exactly when no cursor on the way is marked. -/
theorem Collects.complete_iff (h : Collects marked total size window c ids) :
    (∀ n, c < n → n ≤ total → marked n = true → n ∈ ids) ↔
      ∀ d, TransGen (Follows marked total size window) c d → d ≤ total → marked d = false := by
  induction h with
  | past h =>
      constructor
      · intro _ d hd
        exact absurd hd (not_transGen_of_over h)
      · intro _ n hlt hle
        omega
  | last more page =>
      constructor
      · intro _ d hd
        exact absurd hd (not_transGen_of_last page)
      · intro _ n hlt hle hn
        rw [page.last_eq]
        exact mem_between.mpr ⟨⟨hlt, hle⟩, hn⟩
  | @next c d ids later more hd page rest ih =>
      obtain ⟨k, rfl, hck, hkt, rfl⟩ := page.eq_between hd
      have hafter : ∀ n ∈ later, k + 1 < n := fun n hn =>
        (mem_between.mp (rest.sublist.subset hn)).1.1
      simp only [transGen_follows page hd more, List.mem_append, mem_between]
      constructor
      · rintro hall e (rfl | he) hle
        · -- neither this page nor a later one holds the number of the cursor
          by_contra hmarked
          rcases hall (k + 1) (by omega) hle (Bool.of_not_eq_false hmarked) with
            hthis | hlater
          · omega
          · exact Nat.lt_irrefl _ (hafter _ hlater)
        · refine ih.mp (fun n hlt hle hn => ?_) e he hle
          exact (hall n (by omega) hle hn).resolve_left (by omega)
      · intro hclear n hlt hle hn
        rcases Nat.lt_trichotomy n (k + 1) with hbefore | rfl | hbeyond
        · exact .inl ⟨⟨hlt, Nat.le_of_lt_succ hbefore⟩, hn⟩
        · rw [hclear _ (.inl rfl) hle] at hn
          cases hn
        · exact .inr (ih.mpr (fun e he => hclear e (.inr he)) n hbeyond hle hn)

end Laws

end Cursors
