import Mathlib.Algebra.BigOperators.Finprod
import Mathlib.Algebra.Order.BigOperators.Group.Finset
import Mathlib.Algebra.Order.Ring.Int
import Mathlib.Data.Set.Card

/-! # Totals of balances

A table of balances over any type of holders, of which only finitely many are not
zero. Its total and the number of its holders follow every update of one balance.
-/

namespace Balances

open Function

variable {ι : Type*} {f g : ι → Int} {i : ι} {x : Int}

def Finite (f : ι → Int) : Prop := (support f).Finite

/-- The sum of all balances. -/
noncomputable def total (f : ι → Int) : Int := ∑ᶠ j, f j

def holders (f : ι → Int) : Set ι := {j | 0 < f j}

theorem finite_zero : Finite fun _ : ι => 0 := by
  simp [Finite, Function.support]

theorem total_zero : total (fun _ : ι => 0) = 0 := finsum_zero

theorem Finite.holders (hf : Finite f) : (holders f).Finite :=
  hf.subset fun _ hj => ne_of_gt hj

section Update

variable [DecidableEq ι]

theorem Finite.update (hf : Finite f) : Finite (update f i x) := by
  refine (hf.insert i).subset fun j hj => ?_
  by_cases h : j = i
  · exact .inl h
  · right
    rwa [mem_support, update_of_ne h] at hj

theorem total_update (hf : Finite f) : total (update f i x) = total f - f i + x := by
  have hsplit : update f i x = fun j => f j + (if j = i then x - f i else 0) := by
    funext j
    by_cases h : j = i
    · rw [h, update_self, if_pos rfl]
      omega
    · rw [update_of_ne h, if_neg h, Int.add_zero]
  have hsingle : ∑ᶠ j, (if j = i then x - f i else 0) = x - f i := by
    rw [finsum_eq_single _ i fun j hj => if_neg hj, if_pos rfl]
  have hfinite : (support fun j => if j = i then x - f i else 0).Finite := by
    refine (Set.finite_singleton i).subset fun j hj => ?_
    by_contra h
    exact hj (if_neg h)
  calc total (update f i x) = total f + (x - f i) := by
        rw [total, hsplit, finsum_add_distrib hf hfinite, hsingle, total]
    _ = total f - f i + x := by omega

/-- A balance becomes positive. -/
theorem ncard_holders_gain (hf : Finite f) (hold : f i = 0) (hnew : 0 < x) :
    (holders (update f i x)).ncard = (holders f).ncard + 1 := by
  have hset : holders (update f i x) = insert i (holders f) := by
    ext j
    by_cases h : j = i
    · simp [holders, h, hnew]
    · simp [holders, h]
  rw [hset, Set.ncard_insert_of_notMem (by simp [holders, hold]) hf.holders]

/-- A positive balance stays positive. -/
theorem holders_keep (hold : 0 < f i) (hnew : 0 < x) :
    holders (update f i x) = holders f := by
  ext j
  by_cases h : j = i
  · simp [holders, h, hnew, hold]
  · simp [holders, h]

/-- A positive balance is paid off. -/
theorem ncard_holders_lose (hold : 0 < f i) :
    (holders (update f i 0)).ncard = (holders f).ncard - 1 := by
  have hset : holders (update f i 0) = holders f \ {i} := by
    ext j
    by_cases h : j = i
    · simp [holders, h]
    · simp [holders, h]
  exact hset ▸ Set.ncard_sdiff_singleton_of_mem hold

end Update

/-- All holders of `f` but one, who holds nothing of `g`, hold something of `g`. -/
theorem ncard_holders_last (hf : Finite f) (hsub : holders g ⊆ holders f) (hi : 0 < f i)
    (hzero : g i = 0) :
    (holders f).ncard ≤ (holders g).ncard + 1 ↔ ∀ j, j ≠ i → 0 < f j → 0 < g j := by
  have hwithin : holders g ⊆ holders f \ {i} := by
    refine fun j hj => ⟨hsub hj, fun heq => ?_⟩
    rw [Set.mem_singleton_iff.mp heq] at hj
    exact absurd hj (by simp [holders, hzero])
  have hrest : (holders f \ {i}).ncard + 1 = (holders f).ncard :=
    Set.ncard_sdiff_singleton_add_one hi hf.holders
  constructor
  · intro hle j hj hpos
    have hsame := Set.eq_of_subset_of_ncard_le hwithin (by omega)
      (hf.holders.subset Set.sdiff_subset)
    have hmem : j ∈ holders f \ {i} := ⟨hpos, hj⟩
    rwa [← hsame] at hmem
  · intro hall
    have hle : (holders f \ {i}).ncard ≤ (holders g).ncard :=
      Set.ncard_le_ncard (fun j hj => hall j hj.2 hj.1) (hf.holders.subset hsub)
    omega

/-! ## Comparing totals -/

theorem total_nonneg (hf : ∀ j, 0 ≤ f j) : 0 ≤ total f := finsum_nonneg hf

theorem total_le (hf : Finite f) (hg : Finite g) (h : ∀ j, f j ≤ g j) : total f ≤ total g :=
  finsum_le_finsum' hf hg h

/-- Nobody holds more than the total. -/
theorem le_total (hf : Finite f) (hpos : ∀ j, 0 ≤ f j) (j : ι) : f j ≤ total f :=
  single_le_finsum j hf hpos

/-- Some different holders hold no more than the total. -/
theorem sum_le_total [DecidableEq ι] (hf : Finite f) (hpos : ∀ j, 0 ≤ f j) {keys : List ι}
    (distinct : keys.Nodup) : (keys.map f).sum ≤ total f := by
  have hall : support f ⊆ ((hf.toFinset ∪ keys.toFinset : Finset ι) : Set ι) := fun j hj =>
    Finset.mem_coe.mpr (Finset.mem_union_left _ (hf.mem_toFinset.mpr hj))
  rw [total, finsum_eq_sum_of_support_subset f hall, ← List.sum_toFinset f distinct]
  exact Finset.sum_le_sum_of_subset_of_nonneg Finset.subset_union_right fun j _ _ => hpos j

/-- A list of all holders. -/
theorem total_eq_sum [DecidableEq ι] {keys : List ι} (distinct : keys.Nodup)
    (hall : ∀ j, f j ≠ 0 → j ∈ keys) : total f = (keys.map f).sum := by
  rw [total, ← List.sum_toFinset f distinct]
  exact finsum_eq_sum_of_support_subset f fun j hj =>
    Finset.mem_coe.mpr (List.mem_toFinset.mpr (hall j hj))

theorem ncard_holders_eq [DecidableEq ι] {keys : List ι} (distinct : keys.Nodup)
    (hkeys : ∀ j, j ∈ keys ↔ 0 < f j) : (holders f).ncard = keys.length := by
  have hset : holders f = (keys.toFinset : Set ι) := by
    ext j
    exact (hkeys j).symm.trans List.mem_toFinset.symm
  rw [hset, Set.ncard_coe_finset, List.toFinset_card_of_nodup distinct]

theorem total_add (hf : Finite f) (hg : Finite g) :
    total (fun j => f j + g j) = total f + total g := finsum_add_distrib hf hg

theorem total_mul (hf : Finite f) (k : Int) : total (fun j => k * f j) = k * total f :=
  (mul_finsum' f k hf).symm

end Balances
