import ProofOfHeart.Lib.Balances
import ProofOfHeart.Lib.Shares

/-! # Entitlements to a common pool

Every holder is due a part of a pool and has claimed some amount. What has to be
reserved for a holder is the larger of the two. The reserve does not change when a
holder claims what is due, and parts in proportion to weights, rounded down, fit the
pool.
-/

namespace Entitlements

open Function Balances

variable {ι : Type*} {claimed due : ι → Int} {b : ι}

/-- What is claimed or can still be claimed. -/
noncomputable def reserved (claimed due : ι → Int) : Int := total fun j => max (claimed j) (due j)

/-- What holders have claimed beyond what is due to them. -/
noncomputable def overdrawn (claimed due : ι → Int) : Int :=
  total fun j => max (claimed j - due j) 0

theorem finite_max (hc : Balances.Finite claimed) (hd : Balances.Finite due) :
    Balances.Finite fun j => max (claimed j) (due j) := by
  refine (hc.union hd).subset fun j hj => ?_
  by_contra h
  simp only [Set.mem_union, mem_support, not_or, not_not] at h
  exact hj (by simp only [h.1, h.2, max_self])

theorem total_le_reserved (hc : Balances.Finite claimed) (hd : Balances.Finite due) :
    total claimed ≤ reserved claimed due :=
  total_le hc (finite_max hc hd) fun _ => le_max_left _ _

/-- Nothing has been claimed and nothing is due. -/
theorem reserved_zero (hc : ∀ j, claimed j = 0) (hd : ∀ j, due j = 0) :
    reserved claimed due = 0 := by
  have hzero : (fun j => max (claimed j) (due j)) = fun _ => 0 := by
    funext j
    rw [hc, hd, max_self]
  rw [reserved, hzero, total_zero]

theorem overdrawn_finite (hc : Balances.Finite claimed) (hd : Balances.Finite due) :
    Balances.Finite fun j => max (claimed j - due j) 0 := by
  refine (hc.union hd).subset fun j hj => ?_
  by_contra h
  simp only [Set.mem_union, mem_support, not_or, not_not] at h
  exact hj (by simp only [h.1, h.2, sub_self, max_self])

theorem reserved_eq (hc : Balances.Finite claimed) (hd : Balances.Finite due) :
    reserved claimed due = total due + overdrawn claimed due := by
  rw [overdrawn, ← total_add hd (overdrawn_finite hc hd), reserved]
  congr 1
  funext j
  omega

/-- Nobody has claimed too much. -/
theorem reserved_of_le (h : ∀ j, claimed j ≤ due j) : reserved claimed due = total due := by
  rw [reserved]
  congr 1
  funext j
  exact max_eq_right (h j)

theorem total_le_overdrawn (hc : Balances.Finite claimed) (hd : Balances.Finite due) :
    total claimed ≤ total due + overdrawn claimed due := by
  rw [← reserved_eq hc hd]
  exact total_le_reserved hc hd

theorem overdrawn_of_le (h : ∀ j, claimed j ≤ due j) : overdrawn claimed due = 0 := by
  have hzero : (fun j => max (claimed j - due j) 0) = fun _ => 0 := by
    funext j
    have hj := h j
    omega
  rw [overdrawn, hzero, total_zero]

/-- When more is due less is overdrawn. -/
theorem overdrawn_anti {due' : ι → Int} (hc : Balances.Finite claimed)
    (hd : Balances.Finite due) (hd' : Balances.Finite due') (h : ∀ j, due j ≤ due' j) :
    overdrawn claimed due' ≤ overdrawn claimed due := by
  refine total_le (overdrawn_finite hc hd') (overdrawn_finite hc hd) fun j => ?_
  have hj := h j
  omega

section Claim

variable [DecidableEq ι]

theorem overdrawn_claim (h : claimed b ≤ due b) :
    overdrawn (update claimed b (due b)) due = overdrawn claimed due := by
  rw [overdrawn, overdrawn]
  congr 1
  funext j
  by_cases hj : j = b
  · rw [hj, update_self]
    omega
  · rw [update_of_ne hj]

/-- Only the sweeper has claimed too much. -/
theorem overdrawn_sweep {x : Int} (h : ∀ j, claimed j ≤ due j) :
    overdrawn (update claimed b x) due = max (x - due b) 0 := by
  rw [overdrawn, total, finsum_eq_single _ b fun j hj => ?_, update_self]
  have hle := h j
  rw [update_of_ne hj]
  omega

/-- Claiming what is due needs no further reserve. -/
theorem reserved_claim (h : claimed b ≤ due b) :
    reserved (update claimed b (due b)) due = reserved claimed due := by
  rw [reserved, reserved]
  congr 1
  funext j
  by_cases hj : j = b
  · rw [hj, update_self, max_self, max_eq_right h]
  · rw [update_of_ne hj]

/-- One holder takes more than is due, while the others have claimed everything due
to them. -/
theorem reserved_sweep {x : Int} (hx : due b ≤ x) (hothers : ∀ j, j ≠ b → due j ≤ claimed j) :
    reserved (update claimed b x) due = total (update claimed b x) := by
  rw [reserved]
  congr 1
  funext j
  by_cases hj : j = b
  · rw [hj, update_self, max_eq_left hx]
  · rw [update_of_ne hj, max_eq_left (hothers j hj)]

end Claim

/-! ## Claims one after another -/

/-- Holders claim once each, newest claim first. Everybody takes what is due, and the last
of all takes what the others have left of the pool. -/
structure Shared (holds : ι → Prop) (due claimed : ι → Int) (pool : Int)
    (claims : List (ι × Int)) : Prop where
  listed : ∀ j, claimed j = 0 ∨ (j, claimed j) ∈ claims
  positive : ∀ claim ∈ claims, 0 < claimed claim.1
  sum : (claims.map Prod.snd).sum = total claimed
  early : (∃ j, holds j ∧ claimed j = 0) → ∀ claim ∈ claims, claim.2 = due claim.1
  done : (∀ j, holds j → 0 < claimed j) → claims = [] ∨ ∃ last before, claims = last :: before ∧
    (∀ claim ∈ before, claim.2 = due claim.1) ∧ due last.1 ≤ last.2 ∧
    (claims.map Prod.snd).sum = pool

section Shared

variable {holds : ι → Prop} {pool x : Int} {claims : List (ι × Int)}

theorem Shared.nil (h : ∀ j, claimed j = 0) : Shared holds due claimed pool [] where
  listed j := .inl (h j)
  positive _ hmem := by cases hmem
  sum := by
    have hzero : claimed = fun _ => 0 := funext h
    rw [hzero, total_zero]
    rfl
  early _ _ hmem := by cases hmem
  done _ := .inl rfl

/-- While somebody has not claimed, nobody has claimed more than is due. -/
theorem Shared.claimed_le (h : Shared holds due claimed pool claims) (hdue : ∀ j, 0 ≤ due j)
    (hopen : ∃ j, holds j ∧ claimed j = 0) (j : ι) : claimed j ≤ due j := by
  rcases h.listed j with hzero | hmem
  · rw [hzero]
    exact hdue j
  · exact Int.le_of_eq (h.early hopen _ hmem)

/-- A first claim takes what is due, or as the last one everything left. -/
theorem Shared.claim [DecidableEq ι] (h : Shared holds due claimed pool claims)
    (hc : Balances.Finite claimed) (hd : Balances.Finite due) (hdue : ∀ j, 0 ≤ due j)
    (hfits : total due ≤ pool) (hb : holds b) (hfirst : claimed b = 0) (hx : 0 < x)
    (hlast : (∀ j, j ≠ b → holds j → 0 < claimed j) → x = max (due b) (pool - total claimed))
    (hshare : ¬ (∀ j, j ≠ b → holds j → 0 < claimed j) → x = due b) :
    Shared holds due (update claimed b x) pool ((b, x) :: claims) := by
  have hopen : ∃ j, holds j ∧ claimed j = 0 := ⟨b, hb, hfirst⟩
  have hearly := h.early hopen
  have hle := h.claimed_le hdue hopen
  have hsum : (((b, x) :: claims).map Prod.snd).sum = total claimed + x := by
    rw [List.map_cons, List.sum_cons, h.sum]
    omega
  refine ⟨fun j => ?_, fun claim hmem => ?_, ?_, fun hstill => ?_, fun hall => .inr ?_⟩
  · by_cases hj : j = b
    · rw [hj, update_self]
      exact .inr List.mem_cons_self
    · rw [update_of_ne hj]
      exact (h.listed j).imp id (List.mem_cons_of_mem _)
  · by_cases hj : claim.1 = b
    · rw [hj, update_self]
      exact hx
    · rw [update_of_ne hj]
      rcases List.mem_cons.mp hmem with heq | hmem
      · exact absurd (congrArg Prod.fst heq) hj
      · exact h.positive claim hmem
  · rw [hsum, total_update hc, hfirst]
    omega
  · -- somebody else has still to claim, so this claim took what is due
    have hmine : x = due b := by
      refine hshare fun hothers => ?_
      obtain ⟨j, hj, hzero⟩ := hstill
      by_cases heq : j = b
      · rw [heq, update_self] at hzero
        omega
      · rw [update_of_ne heq] at hzero
        exact absurd (hothers j heq hj) (by omega)
    intro claim hmem
    rcases List.mem_cons.mp hmem with rfl | hmem
    · exact hmine
    · exact hearly claim hmem
  · have hmine : x = max (due b) (pool - total claimed) := by
      refine hlast fun j hj hholds => ?_
      have hpos := hall j hholds
      rwa [update_of_ne hj] at hpos
    -- the claims before took what is due, which leaves at least this holder's part
    have hroom : total (update claimed b (due b)) ≤ pool := by
      refine Int.le_trans (total_le hc.update hd fun j => ?_) hfits
      by_cases hj : j = b
      · rw [hj, update_self]
      · rw [update_of_ne hj]
        exact hle j
    rw [total_update hc, hfirst] at hroom
    exact ⟨(b, x), claims, rfl, hearly, by dsimp only; omega, by rw [hsum]; omega⟩

end Shared

/-! ## Parts in proportion to weights -/

/-- The part of `amount` that goes with the weight of a holder out of `whole`, and a
share of it out of `d`, rounded down both times. -/
def part (weight : ι → Int) (whole amount d : Int) (j : ι) : Int :=
  ((weight j * amount).tdiv whole).tdiv d

variable {weight : ι → Int} {amount d : Int}

theorem part_finite (hw : Balances.Finite weight) (whole : Int) :
    Balances.Finite (part weight whole amount d) := by
  refine hw.subset fun j hj hzero => hj ?_
  rw [part, hzero, Int.zero_mul, Int.zero_tdiv, Int.zero_tdiv]

theorem part_zero (whole : Int) (j : ι) : part weight whole 0 d j = 0 := by
  rw [part, Int.mul_zero, Int.zero_tdiv, Int.zero_tdiv]

theorem part_nonneg (hw : ∀ j, 0 ≤ weight j) (hamount : 0 ≤ amount) (hd : 0 ≤ d) {whole : Int}
    (hwhole : 0 ≤ whole) (j : ι) : 0 ≤ part weight whole amount d j :=
  Int.tdiv_nonneg (Int.tdiv_nonneg (Int.mul_nonneg (hw j) hamount) hwhole) hd

theorem part_mono {amount' : Int} (hw : ∀ j, 0 ≤ weight j) (hamount : 0 ≤ amount)
    (hle : amount ≤ amount') (hd : 0 < d) {whole : Int} (hwhole : 0 ≤ whole) (j : ι) :
    part weight whole amount d j ≤ part weight whole amount' d j := by
  have hmul : 0 ≤ weight j * amount := Int.mul_nonneg (hw j) hamount
  have hgrowth : weight j * amount ≤ weight j * amount' :=
    Int.mul_le_mul_of_nonneg_left hle (hw j)
  have hquot : (weight j * amount).tdiv whole ≤ (weight j * amount').tdiv whole := by
    rw [Int.tdiv_eq_ediv_of_nonneg hmul, Int.tdiv_eq_ediv_of_nonneg (Int.le_trans hmul hgrowth)]
    rcases Int.lt_or_eq_of_le hwhole with hpos | hzero
    · exact Int.ediv_le_ediv hpos hgrowth
    · rw [← hzero, Int.ediv_zero, Int.ediv_zero]
  have hnonneg : 0 ≤ (weight j * amount).tdiv whole := Int.tdiv_nonneg hmul hwhole
  rw [part, part, Int.tdiv_eq_ediv_of_nonneg hnonneg,
    Int.tdiv_eq_ediv_of_nonneg (Int.le_trans hnonneg hquot)]
  exact Int.ediv_le_ediv hd hquot

theorem part_mul_le (hw : ∀ j, 0 ≤ weight j) (hamount : 0 ≤ amount) (hd : 0 < d) {whole : Int}
    (hwhole : 0 < whole) (j : ι) :
    part weight whole amount d j * (whole * d) ≤ weight j * amount := by
  have hmul : 0 ≤ weight j * amount := Int.mul_nonneg (hw j) hamount
  have hfirst : (weight j * amount).tdiv whole * whole ≤ weight j * amount := by
    rw [Int.tdiv_eq_ediv_of_nonneg hmul]
    exact Int.ediv_mul_le _ (ne_of_gt hwhole)
  have hquot : 0 ≤ (weight j * amount).tdiv whole := by
    rw [Int.tdiv_eq_ediv_of_nonneg hmul]
    exact Int.ediv_nonneg hmul (Int.le_of_lt hwhole)
  have hsecond : part weight whole amount d j * d ≤ (weight j * amount).tdiv whole := by
    rw [part, Int.tdiv_eq_ediv_of_nonneg hquot]
    exact Int.ediv_mul_le _ (ne_of_gt hd)
  calc part weight whole amount d j * (whole * d)
      = part weight whole amount d j * d * whole := by ring
    _ ≤ (weight j * amount).tdiv whole * whole :=
        Int.mul_le_mul_of_nonneg_right hsecond (Int.le_of_lt hwhole)
    _ ≤ weight j * amount := hfirst

/-- The parts of all holders together fit their share of the amount. -/
theorem total_part_mul_le (hfinite : Balances.Finite weight) (hw : ∀ j, 0 ≤ weight j)
    (hamount : 0 ≤ amount) (hd : 0 < d) :
    total (part weight (total weight) amount d) * d ≤ amount := by
  by_cases hwhole : 0 < total weight
  · have hle : (total weight * d) * total (part weight (total weight) amount d) ≤
        amount * total weight := by
      rw [← total_mul (part_finite hfinite _), ← total_mul hfinite]
      refine total_le ?_ ?_ fun j => ?_
      · refine (@part_finite _ weight amount d hfinite (total weight)).subset
          fun j hj hzero => hj ?_
        simp only [hzero, Int.mul_zero]
      · refine hfinite.subset fun j hj hzero => hj ?_
        simp only [hzero, Int.mul_zero]
      · rw [Int.mul_comm, Int.mul_comm amount]
        exact part_mul_le hw hamount hd hwhole j
    refine Int.le_of_mul_le_mul_right ?_ hwhole
    calc total (part weight (total weight) amount d) * d * total weight
        = (total weight * d) * total (part weight (total weight) amount d) := by ring
      _ ≤ amount * total weight := hle
  · have hzero : total weight = 0 := Int.le_antisymm (Int.not_lt.mp hwhole) (total_nonneg hw)
    have hnone : part weight (total weight) amount d = fun _ => 0 := by
      funext j
      rw [part, hzero, Int.tdiv_zero, Int.zero_tdiv]
    rw [hnone, total_zero, Int.zero_mul]
    exact hamount

end Entitlements
