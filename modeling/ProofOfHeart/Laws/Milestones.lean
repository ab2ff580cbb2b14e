import ProofOfHeart.Laws.Escrow
import ProofOfHeart.Lib.Parts

/-! # Payment by milestones

Each claim computes its slice and the slices claimed before from the present amount
raised and the present fee. While these terms stay the same the slices add up: what
has been paid is the slices of the claimed milestones, and the last claim pays the
rest exactly.
-/

namespace ProofOfHeart

open Checked Function Trace

variable {host : Host} {tr : List Receipt} {cfg : Config} {c : Nat} {a a' : Account}
  {env : Env} {v : View} {act : Act} {moves : List Transfer} {delta : Int}

/-! ## The shape of a plan -/

/-- What stays true of an accepted list of milestones. -/
structure PlanShape (milestones : List Milestone) : Prop where
  distinct : (milestones.map Milestone.id).Nodup
  positive : ∀ milestone ∈ milestones, 0 < milestone.payoutBps
  whole : bpsOf milestones = bpsDenominator

theorem PlanShape.congr {milestones milestones' : List Milestone} (h : PlanShape milestones)
    (hids : milestones'.map Milestone.id = milestones.map Milestone.id)
    (hbps : milestones'.map Milestone.payoutBps = milestones.map Milestone.payoutBps) :
    PlanShape milestones' where
  distinct := hids ▸ h.distinct
  positive milestone hmem := by
    have hin : milestone.payoutBps ∈ milestones.map Milestone.payoutBps :=
      hbps ▸ List.mem_map_of_mem hmem
    obtain ⟨other, hother, heq⟩ := List.mem_map.mp hin
    rw [← heq]
    exact h.positive other hother
  whole := by rw [bpsOf, hbps]; exact h.whole

theorem unverified_ids (milestones : List Milestone) :
    (unverified milestones).map Milestone.id = milestones.map Milestone.id := by
  simp [unverified, Function.comp_def]

theorem unverified_bps (milestones : List Milestone) :
    (unverified milestones).map Milestone.payoutBps = milestones.map Milestone.payoutBps := by
  simp [unverified, Function.comp_def]

theorem verifiedAt_ids (milestoneId : Nat) (milestones : List Milestone) :
    (verifiedAt milestoneId milestones).map Milestone.id = milestones.map Milestone.id := by
  simp only [verifiedAt, List.map_map]
  refine List.map_congr_left fun milestone _ => ?_
  dsimp only [Function.comp_apply]
  split <;> rfl

theorem verifiedAt_bps (milestoneId : Nat) (milestones : List Milestone) :
    (verifiedAt milestoneId milestones).map Milestone.payoutBps =
      milestones.map Milestone.payoutBps := by
  simp only [verifiedAt, List.map_map]
  refine List.map_congr_left fun milestone _ => ?_
  dsimp only [Function.comp_apply]
  split <;> rfl

theorem Plan.shape {milestones : List Milestone} (h : Plan milestones) :
    PlanShape (unverified milestones) :=
  PlanShape.congr ⟨h.distinct, h.positive, h.total⟩ (unverified_ids _) (unverified_bps _)

/-- No plan and nothing claimed, or a plan that stands. -/
def Account.Planned (a : Account) : Prop :=
  (a.funds.milestones = [] ∧ ∀ milestoneId, a.funds.claimed milestoneId = false) ∨
    a.funds.milestones ≠ [] ∧ PlanShape a.funds.milestones

theorem Account.Planned.shape {milestone : Milestone} (planned : a.Planned)
    (mem : milestone ∈ a.funds.milestones) : PlanShape a.funds.milestones := by
  rcases planned with ⟨hempty, -⟩ | ⟨-, shape⟩
  · rw [hempty] at mem
    cases mem
  · exact shape

theorem AccountStep.planned_step (h : AccountStep env v c act moves delta a a')
    (planned : a.Planned) : a'.Planned := by
  cases h with
  | contributed nonempty pos accepts =>
      obtain ⟨_, _, _, _, heq⟩ := a.contributeAll_eq v.admin.admin _ _
      rw [heq]
      exact planned
  | @planned _ moves milestones notCancelled unpaid noPlan hplan =>
      refine .inr ⟨fun hempty => hplan.nonempty ?_, hplan.shape⟩
      exact List.map_eq_nil_iff.mp hempty
  | marked =>
      rcases planned with ⟨hempty, hclaimed⟩ | ⟨hsome, shape⟩
      · exact .inl ⟨by simp [hempty, verifiedAt], hclaimed⟩
      · refine .inr ⟨fun hempty => hsome ?_, shape.congr (verifiedAt_ids _ _) (verifiedAt_bps _ _)⟩
        exact List.map_eq_nil_iff.mp hempty
  | claimed payable mem =>
      exact .inr ⟨List.ne_nil_of_mem mem, planned.shape mem⟩
  | _ => exact planned

theorem account_plan {s : State} (ha : (view s).account c = some a) :
    s.campaigns.campaignMilestones c = a.funds.milestones ∧
      s.campaigns.milestoneClaimed c = a.funds.claimed := by
  rw [milestones_view, claimed_view, (View.account_eq_some.mp ha).2]
  exact ⟨rfl, rfl⟩

theorem run_planned (run : Run (machine host) tr cfg)
    (ha : (view cfg.state).account c = some a) : a.Planned := by
  refine account_invariant (I := fun _ _ a => a.Planned) (fun _ hborn => ?_)
    (fun passage ih => passage.step.planned_step ih) run ha
  cases hborn
  exact .inl ⟨rfl, fun _ => rfl⟩

/-- A plan belongs to a campaign. -/
theorem run_owner (run : Run (machine host) tr cfg)
    (hplan : cfg.state.campaigns.campaignMilestones c ≠ []) :
    ∃ a, (view cfg.state).account c = some a := by
  cases hc : (view cfg.state).account c with
  | none =>
      rw [milestones_view, (run_sane run).blank c hc] at hplan
      exact absurd rfl hplan
  | some a => exact ⟨a, rfl⟩

theorem run_shape (run : Run (machine host) tr cfg)
    (hplan : cfg.state.campaigns.campaignMilestones c ≠ []) :
    PlanShape (cfg.state.campaigns.campaignMilestones c) := by
  obtain ⟨a, ha⟩ := run_owner run hplan
  rw [(account_plan ha).1] at hplan ⊢
  rcases run_planned run ha with ⟨hempty, -⟩ | ⟨-, shape⟩
  · exact absurd hempty hplan
  · exact shape

/-! ## Slices -/

theorem slicesOf_claimed (amount : Int) (milestones : List Milestone) (claimed : Nat → Bool) :
    slicesOf amount (claimedOf milestones claimed) =
      Parts.sumTaken Milestone.id (fun milestone => floorBps amount milestone.payoutBps)
        milestones claimed := rfl

theorem bpsOf_claimed (milestones : List Milestone) (claimed : Nat → Bool) :
    bpsOf (claimedOf milestones claimed) =
      Parts.sumTaken Milestone.id Milestone.payoutBps milestones claimed := rfl

/-- Slices as rounded-down shares of a list of weights. -/
theorem slicesOf_eq (amount : Int) (milestones : List Milestone) :
    slicesOf amount milestones =
      Shares.floors 10000 amount (milestones.map fun milestone => (milestone.payoutBps : Int)) := by
  rw [slicesOf, Shares.floors, List.map_map]
  rfl

theorem slicesOf_nonneg {amount : Int} (h : 0 ≤ amount) (milestones : List Milestone) :
    0 ≤ slicesOf amount milestones := by
  rw [slicesOf_eq]
  exact Shares.floors_nonneg (by decide) h (by simp)

theorem slicesOf_mono {amount amount' : Int} (h : 0 ≤ amount) (hle : amount ≤ amount')
    (milestones : List Milestone) : slicesOf amount milestones ≤ slicesOf amount' milestones := by
  rw [slicesOf_eq, slicesOf_eq]
  exact Shares.floors_mono (by decide) h hle (by simp)

theorem bpsOf_cast (milestones : List Milestone) : (bpsOf milestones : Int) =
    (milestones.map fun milestone => (milestone.payoutBps : Int)).sum := by
  rw [bpsOf, Nat.cast_list_sum, List.map_map]
  rfl

theorem slicesOf_le {amount : Int} (h : 0 ≤ amount) {milestones : List Milestone}
    (hbps : bpsOf milestones ≤ bpsDenominator) : slicesOf amount milestones ≤ amount := by
  rw [slicesOf_eq]
  refine Shares.floors_le (by decide) h (by simp) ?_
  rw [← bpsOf_cast]
  exact Int.ofNat_le.mpr hbps

/-- The slices of the fee and of the net amount of the claimed milestones, under the
terms `raised` and `feeBps`. -/
def sliced (raised : Int) (feeBps : Nat) (milestones : List Milestone) (claimed : Nat → Bool) :
    Int :=
  slicesOf (raised - ceilBps raised feeBps) (claimedOf milestones claimed) +
    slicesOf (ceilBps raised feeBps) (claimedOf milestones claimed)

section Sliced

variable {raised : Int} {feeBps : Nat} {milestones : List Milestone} {claimed : Nat → Bool}

/-- A part within the whole and what it leaves are not negative. -/
theorem ceilBps_within {bps : Nat} (hraised : 0 ≤ raised) (hbps : bps ≤ bpsDenominator) :
    0 ≤ ceilBps raised bps ∧ 0 ≤ raised - ceilBps raised bps := by
  have hle : (bps : Int) ≤ 10000 := Int.ofNat_le.mpr hbps
  rw [ceilBps_eq]
  have hnonneg := Shares.ceil_nonneg (d := 10000) (by decide) hraised (Int.natCast_nonneg bps)
  have hrest := Shares.ceil_le (d := 10000) (by decide) hraised (Int.natCast_nonneg bps) hle
  omega

theorem ceilBps_bounds (hraised : 0 ≤ raised) (hfee : feeBps ≤ platformFeeMaxBps) :
    0 ≤ ceilBps raised feeBps ∧ 0 ≤ raised - ceilBps raised feeBps :=
  ceilBps_within hraised (Nat.le_trans hfee (by decide))

theorem sliced_none (h : ∀ milestoneId, claimed milestoneId = false) :
    sliced raised feeBps milestones claimed = 0 := by
  rw [sliced, slicesOf_claimed, slicesOf_claimed, Parts.sumTaken_none fun _ _ => h _,
    Parts.sumTaken_none fun _ _ => h _]
  rfl

theorem sliced_nonneg (hraised : 0 ≤ raised) (hfee : feeBps ≤ platformFeeMaxBps) :
    0 ≤ sliced raised feeBps milestones claimed := by
  obtain ⟨hnonneg, hrest⟩ := ceilBps_bounds hraised hfee
  exact Int.add_nonneg (slicesOf_nonneg hrest _) (slicesOf_nonneg hnonneg _)

theorem sliced_mono {raised' : Int} (hraised : 0 ≤ raised) (hle : raised ≤ raised')
    (hfee : feeBps ≤ platformFeeMaxBps) :
    sliced raised feeBps milestones claimed ≤ sliced raised' feeBps milestones claimed := by
  have hle' : (feeBps : Int) ≤ 10000 := by
    have hmax : platformFeeMaxBps = 1000 := rfl
    omega
  obtain ⟨hnonneg, hrest⟩ := ceilBps_bounds hraised hfee
  refine Int.add_le_add (slicesOf_mono hrest ?_ _) (slicesOf_mono hnonneg ?_ _)
  · rw [ceilBps_eq, ceilBps_eq]
    exact Shares.rest_mono (by decide) hraised (Int.natCast_nonneg _) hle' hle
  · rw [ceilBps_eq, ceilBps_eq]
    exact Shares.ceil_mono (by decide) hraised (Int.natCast_nonneg _) hle

theorem bpsOf_claimed_le (shape : PlanShape milestones) :
    bpsOf (claimedOf milestones claimed) ≤ bpsDenominator := by
  rw [bpsOf_claimed, ← shape.whole]
  exact Parts.sumTaken_le

theorem sliced_le (shape : PlanShape milestones) (hraised : 0 ≤ raised)
    (hfee : feeBps ≤ platformFeeMaxBps) : sliced raised feeBps milestones claimed ≤ raised := by
  obtain ⟨hnonneg, hrest⟩ := ceilBps_bounds hraised hfee
  have hle : bpsOf (claimedOf milestones claimed) ≤ bpsDenominator := bpsOf_claimed_le shape
  have hnet := slicesOf_le hrest hle
  have hfees := slicesOf_le hnonneg hle
  unfold sliced
  omega

theorem slicesOf_verifiedAt {amount : Int} {milestoneId : Nat} :
    slicesOf amount (claimedOf (verifiedAt milestoneId milestones) claimed) =
      slicesOf amount (claimedOf milestones claimed) := by
  rw [slicesOf_claimed, slicesOf_claimed]
  induction milestones with
  | nil => rfl
  | cons milestone rest ih =>
      rw [verifiedAt, List.map_cons, Parts.sumTaken_cons, Parts.sumTaken_cons]
      rw [verifiedAt] at ih
      rw [ih]
      split <;> rfl

theorem bpsOf_verifiedAt {milestoneId : Nat} :
    bpsOf (claimedOf (verifiedAt milestoneId milestones) claimed) =
      bpsOf (claimedOf milestones claimed) := by
  rw [bpsOf_claimed, bpsOf_claimed]
  induction milestones with
  | nil => rfl
  | cons milestone rest ih =>
      rw [verifiedAt, List.map_cons, Parts.sumTaken_cons, Parts.sumTaken_cons]
      rw [verifiedAt] at ih
      rw [ih]
      split <;> rfl

theorem sliced_verifiedAt {milestoneId : Nat} :
    sliced raised feeBps (verifiedAt milestoneId milestones) claimed =
      sliced raised feeBps milestones claimed := by
  rw [sliced, sliced, slicesOf_verifiedAt, slicesOf_verifiedAt]

/-! ## One claim -/

variable {milestone : Milestone}

/-- The test on basis points recognises the last claim. -/
theorem last_iff (shape : PlanShape milestones) (mem : milestone ∈ milestones)
    (unclaimed : claimed milestone.id = false) :
    bpsDenominator - bpsOf (claimedOf milestones claimed) = milestone.payoutBps ↔
      allClaimed milestones claimed milestone.id = true := by
  have htake : Parts.sumTaken Milestone.id Milestone.payoutBps milestones
      (update claimed milestone.id true) =
      Parts.sumTaken Milestone.id Milestone.payoutBps milestones claimed + milestone.payoutBps :=
    Parts.sumTaken_take shape.distinct mem unclaimed
  have hle : bpsOf (claimedOf milestones (update claimed milestone.id true)) ≤ bpsDenominator :=
    bpsOf_claimed_le shape
  have hwhole : Parts.sumTaken Milestone.id Milestone.payoutBps milestones
      (update claimed milestone.id true) = (milestones.map Milestone.payoutBps).sum ↔
      ∀ other ∈ milestones, update claimed milestone.id true other.id = true :=
    Parts.sumTaken_eq_whole shape.positive
  rw [allClaimed_iff, ← hwhole]
  rw [bpsOf_claimed] at hle ⊢
  have htotal : (milestones.map Milestone.payoutBps).sum = bpsDenominator := shape.whole
  omega

theorem slicesOf_take (amount : Int) (shape : PlanShape milestones) (mem : milestone ∈ milestones)
    (unclaimed : claimed milestone.id = false) :
    slicesOf amount (claimedOf milestones (update claimed milestone.id true)) =
      slicesOf amount (claimedOf milestones claimed) + floorBps amount milestone.payoutBps :=
  Parts.sumTaken_take shape.distinct mem unclaimed

/-- The part of `amount` that a claim pays: the slice of its milestone, and for the last
claim what the slices claimed before have left. -/
def sliceOf (amount : Int) (milestones : List Milestone) (claimed : Nat → Bool)
    (milestone : Milestone) : Int :=
  if allClaimed milestones claimed milestone.id then
    amount - slicesOf amount (claimedOf milestones claimed)
  else floorBps amount milestone.payoutBps

/-- A claim takes the slices claimed before it to those claimed after it, and the last
claim to the whole. -/
theorem sliceOf_sum (amount : Int) (shape : PlanShape milestones) (mem : milestone ∈ milestones)
    (unclaimed : claimed milestone.id = false) :
    sliceOf amount milestones claimed milestone + slicesOf amount (claimedOf milestones claimed) =
      if allClaimed milestones claimed milestone.id then amount
      else slicesOf amount (claimedOf milestones (update claimed milestone.id true)) := by
  unfold sliceOf
  split
  next hlast => omega
  next hmore =>
      rw [slicesOf_take amount shape mem unclaimed]
      omega

theorem floorBps_le_sliceOf {amount : Int} (hamount : 0 ≤ amount) (shape : PlanShape milestones)
    (mem : milestone ∈ milestones) (unclaimed : claimed milestone.id = false) :
    floorBps amount milestone.payoutBps ≤ sliceOf amount milestones claimed milestone := by
  have htake := slicesOf_take amount shape mem unclaimed
  have hle : bpsOf (claimedOf milestones (update claimed milestone.id true)) ≤ bpsDenominator :=
    bpsOf_claimed_le shape
  have hfit := slicesOf_le hamount hle
  unfold sliceOf
  split <;> omega

theorem sliceOf_nonneg {amount : Int} (hamount : 0 ≤ amount) (shape : PlanShape milestones)
    (mem : milestone ∈ milestones) (unclaimed : claimed milestone.id = false) :
    0 ≤ sliceOf amount milestones claimed milestone :=
  Int.le_trans (Shares.floor_nonneg (by decide) hamount (Int.natCast_nonneg _))
    (floorBps_le_sliceOf hamount shape mem unclaimed)

/-- A claim takes a slice of the fee and one of the rest. -/
theorem payMilestone_eq {feeTotal net : Int} (hfee : 0 ≤ feeTotal) (shape : PlanShape milestones)
    (mem : milestone ∈ milestones) (unclaimed : claimed milestone.id = false) :
    payMilestone milestones claimed milestone feeTotal net =
      { creator := sliceOf net milestones claimed milestone
        fee := sliceOf feeTotal milestones claimed milestone } := by
  have hle := floorBps_le_sliceOf hfee shape mem unclaimed
  unfold payMilestone sliceOf
  by_cases hlast : allClaimed milestones claimed milestone.id = true
  · rw [sliceOf, if_pos hlast] at hle
    rw [if_pos ((last_iff shape mem unclaimed).mpr hlast), if_pos hlast, if_pos hlast,
      Int.max_eq_right hle]
  · rw [if_neg (mt (last_iff shape mem unclaimed).mp hlast), if_neg hlast, if_neg hlast]

/-- A claim pays what takes the slices claimed before to those claimed after it, and
the last claim pays up to the whole. -/
theorem payMilestone_sum (shape : PlanShape milestones) (mem : milestone ∈ milestones)
    (unclaimed : claimed milestone.id = false) (hraised : 0 ≤ raised)
    (hfee : feeBps ≤ platformFeeMaxBps) :
    let pay := payMilestone milestones claimed milestone (ceilBps raised feeBps)
      (raised - ceilBps raised feeBps)
    0 ≤ pay.fee ∧ pay.fee + pay.creator + sliced raised feeBps milestones claimed =
      if allClaimed milestones claimed milestone.id then raised
      else sliced raised feeBps milestones (update claimed milestone.id true) := by
  obtain ⟨hnonneg, -⟩ := ceilBps_bounds hraised hfee
  have hnet := sliceOf_sum (raised - ceilBps raised feeBps) shape mem unclaimed
  have hfees := sliceOf_sum (ceilBps raised feeBps) shape mem unclaimed
  intro pay
  have hpay : pay = _ := payMilestone_eq hnonneg shape mem unclaimed
  rw [hpay, sliced, sliced]
  refine ⟨sliceOf_nonneg hnonneg shape mem unclaimed, ?_⟩
  dsimp only
  split at hnet
  next hlast =>
      rw [if_pos hlast] at hfees ⊢
      omega
  next hmore =>
      rw [if_neg hmore] at hfees ⊢
      omega

end Sliced

/-! ## The two parts of a claim -/

/-- The creator's part is the last transfer of a claim. -/
def creatorCut (moves : List Transfer) : Int := moves.getLast?.elim 0 Transfer.amount

/-- The platform has what goes before it. -/
def platformCut (moves : List Transfer) : Int := (moves.dropLast.map Transfer.amount).sum

theorem cuts_sum (moves : List Transfer) :
    platformCut moves + creatorCut moves = (moves.map Transfer.amount).sum := by
  rcases List.eq_nil_or_concat moves with rfl | ⟨init, last, rfl⟩
  · rfl
  · simp [platformCut, creatorCut]

section Cuts

variable {token admin creator : Address} {pay : MilestonePay}

theorem creatorCut_claim : creatorCut (claimTransfers token admin creator pay) = pay.creator := by
  rw [creatorCut, claimTransfers, List.getLast?_concat]
  rfl

theorem platformCut_claim (h : 0 ≤ pay.fee) :
    platformCut (claimTransfers token admin creator pay) = pay.fee := by
  rw [platformCut, claimTransfers, List.dropLast_concat]
  split
  next hpos => exact Int.add_zero _
  next hzero => exact Int.le_antisymm h (Int.not_lt.mp hzero)

end Cuts

theorem AccountStep.claim_transfers (h : AccountStep env v c act moves delta a a')
    (hact : act.isMilestoneClaim = true) :
    ∃ milestone ∈ a.funds.milestones, ∃ token admin, act = .claimMilestone milestone.id ∧
      a.Payable ∧ a.funds.claimed milestone.id = false ∧ a' = a.claimMilestone milestone.id ∧
      v.currency c = some token ∧ v.admin.admin = some admin ∧
      moves = claimTransfers token admin a.record.creator (v.milestonePay a milestone) ∧
      delta = -((v.milestonePay a milestone).fee + (v.milestonePay a milestone).creator) := by
  cases h with
  | claimed payable mem unclaimed pos currency hadmin =>
      exact ⟨_, mem, _, _, rfl, payable, unclaimed, rfl, currency, hadmin, rfl, rfl⟩
  | _ => cases hact

/-- Under the present terms the platform's part is a slice of the fee, the creator's
a slice of the rest. -/
theorem View.milestonePay_eq {milestone : Milestone} (phase : a.Phase) (books : a.Books)
    (planned : a.Planned) (conf : v.Configured) (mem : milestone ∈ a.funds.milestones)
    (unclaimed : a.funds.claimed milestone.id = false) :
    v.milestonePay a milestone =
      { creator := sliceOf
          (a.record.amountRaised - ceilBps a.record.amountRaised (v.effectiveFee a.record))
          a.funds.milestones a.funds.claimed milestone
        fee := sliceOf (ceilBps a.record.amountRaised (v.effectiveFee a.record))
          a.funds.milestones a.funds.claimed milestone } := by
  have hraised : 0 ≤ a.record.amountRaised := books.raised_nonneg
  obtain ⟨hfee, -⟩ := ceilBps_bounds hraised (View.effectiveFee_le conf phase)
  exact payMilestone_eq hfee (planned.shape mem) mem unclaimed

/-- What a claim pays, whatever was paid before. -/
theorem AccountStep.claim_pays (h : AccountStep env v c act moves delta a a')
    (hact : act.isMilestoneClaim = true) (phase : a.Phase) (books : a.Books)
    (planned : a.Planned) (conf : v.Configured) :
    ∃ milestone ∈ a.funds.milestones, act = .claimMilestone milestone.id ∧ a.Payable ∧
      a.funds.claimed milestone.id = false ∧ a' = a.claimMilestone milestone.id ∧
      delta = -act.pays Act.isMilestoneClaim moves ∧
      act.pays Act.isMilestoneClaim moves +
          sliced a.record.amountRaised (v.effectiveFee a.record) a.funds.milestones
            a.funds.claimed =
        if allClaimed a.funds.milestones a.funds.claimed milestone.id then a.record.amountRaised
        else sliced a.record.amountRaised (v.effectiveFee a.record) a.funds.milestones
          (update a.funds.claimed milestone.id true) := by
  obtain ⟨milestone, mem, token, admin, rfl, payable, unclaimed, rfl, -, -, rfl, hdelta⟩ :=
    h.claim_transfers hact
  have hraised : 0 ≤ a.record.amountRaised := books.raised_nonneg
  obtain ⟨hfee, hsum⟩ := payMilestone_sum (planned.shape mem) mem unclaimed hraised
    (View.effectiveFee_le conf phase)
  have hplatform : platformCut (claimTransfers token admin a.record.creator
      (v.milestonePay a milestone)) = (v.milestonePay a milestone).fee := platformCut_claim hfee
  have hpays : (Act.claimMilestone milestone.id).pays Act.isMilestoneClaim
      (claimTransfers token admin a.record.creator (v.milestonePay a milestone)) =
      (v.milestonePay a milestone).fee + (v.milestonePay a milestone).creator := by
    rw [Act.pays, if_pos hact, ← cuts_sum, creatorCut_claim, hplatform]
  refine ⟨milestone, mem, rfl, payable, unclaimed, rfl, ?_, ?_⟩
  · rw [hpays, hdelta]
  · rw [hpays]
    exact hsum

theorem Passage.planned {r : Receipt} (passage : Passage host c tr cfg r act moves delta a a') :
    a.Planned := run_planned passage.run (passage.pre ▸ passage.before)

/-! ## Before the last claim -/

/-- The payments of the claims on `c`. -/
abbrev milestonesPaid (c : Nat) (tr : List Receipt) : Int := paidFor Act.isMilestoneClaim c tr

theorem milestonesPaid_cons {r : Receipt} (hact : r.call.act c = act)
    (hmoves : r.post.tokens.moved = moves) : milestonesPaid c (r :: tr) =
      act.pays Act.isMilestoneClaim moves + milestonesPaid c tr := by
  rw [milestonesPaid, paidFor_cons, hact, hmoves]

theorem milestonesPaid_cons_of_not {r : Receipt} (hact : r.call.act c = act)
    (h : ¬ act.isMilestoneClaim = true) : milestonesPaid c (r :: tr) = milestonesPaid c tr := by
  rw [milestonesPaid, paidFor_cons, hact, Act.pays_of_not (Bool.eq_false_of_not_eq_true h),
    Int.zero_add]

/-- The last claim on `c`, which closes it. -/
def Receipt.Closes (c : Nat) (r : Receipt) : Prop :=
  ∃ milestoneId, r.call.act c = .claimMilestone milestoneId ∧
    allClaimed (r.pre.campaigns.campaignMilestones c) (r.pre.campaigns.milestoneClaimed c)
      milestoneId = true

theorem Passage.closes {r : Receipt} {milestoneId : Nat}
    (passage : Passage host c tr cfg r act moves delta a a')
    (hact : act = .claimMilestone milestoneId)
    (hlast : allClaimed a.funds.milestones a.funds.claimed milestoneId = true) :
    r.Closes c := by
  refine ⟨milestoneId, passage.hact.trans hact, ?_⟩
  obtain ⟨hlist, hmarks⟩ := account_plan passage.before
  rw [hlist, hmarks]
  exact hlast

/-- Without a claim nothing has been paid, and until the last claim no more than the
claimed part of what was raised, whatever the terms were. -/
structure Prorated (c : Nat) (tr : List Receipt) (a : Account) : Prop where
  none : (∀ milestoneId, a.funds.claimed milestoneId = false) → milestonesPaid c tr = 0
  share : a.record.fundsWithdrawn = false → milestonesPaid c tr * 10000 ≤
    a.record.amountRaised * bpsOf (claimedOf a.funds.milestones a.funds.claimed)
  closed : a.record.fundsWithdrawn = true → a.funds.milestones ≠ [] → ∃ r ∈ tr, r.Closes c

/-- Two slices of a split amount are no more than the slice of the amount. -/
theorem floorBps_split {raised fee : Int} {bps : Nat} (hfee : 0 ≤ fee) (hrest : 0 ≤ raised - fee) :
    (floorBps (raised - fee) bps + floorBps fee bps) * 10000 ≤ raised * bps := by
  have hnet := Shares.floor_mul_le (d := 10000) (by decide) hrest (Int.natCast_nonneg bps)
  have hfees := Shares.floor_mul_le (d := 10000) (by decide) hfee (Int.natCast_nonneg bps)
  rw [Int.sub_mul] at hnet
  rw [floorBps_eq, floorBps_eq, Int.add_mul]
  omega

theorem Prorated.claim {r : Receipt} (ih : Prorated c tr a)
    (passage : Passage host c tr cfg r act moves delta a a')
    (hclaim : act.isMilestoneClaim = true) : Prorated c (r :: tr) a' := by
  have phase := passage.phase
  have books := passage.books
  obtain ⟨milestone, mem, hact, payable, unclaimed, rfl, -, hsum⟩ :=
    passage.step.claim_pays hclaim phase books passage.planned passage.configured
  have shape := passage.planned.shape mem
  have hcloses := passage.closes hact
  refine ⟨fun hnone => ?_, fun hopen => ?_, fun hnow _ => ?_⟩
  · have hself := hnone milestone.id
    simp only [Account.claimMilestone, update_self] at hself
    cases hself
  · have hmore : allClaimed a.funds.milestones a.funds.claimed milestone.id = false := by
      by_contra hlast
      simp only [Account.claimMilestone, if_pos (Bool.eq_true_of_not_eq_false hlast)] at hopen
      cases hopen
    rw [if_neg (by rw [hmore]; exact Bool.false_ne_true)] at hsum
    have hshare := ih.share payable.notWithdrawn
    obtain ⟨hfee, hrest⟩ := ceilBps_bounds books.raised_nonneg
      (View.effectiveFee_le passage.configured phase)
    have hsplit : (floorBps (a.record.amountRaised - _) milestone.payoutBps +
        floorBps _ milestone.payoutBps) * 10000 ≤ a.record.amountRaised * milestone.payoutBps :=
      floorBps_split hfee hrest
    have hbps : bpsOf (claimedOf a.funds.milestones (update a.funds.claimed milestone.id true)) =
        bpsOf (claimedOf a.funds.milestones a.funds.claimed) + milestone.payoutBps :=
      Parts.sumTaken_take shape.distinct mem unclaimed
    rw [sliced, sliced, slicesOf_take _ shape mem unclaimed, slicesOf_take _ shape mem unclaimed]
      at hsum
    have hafter : (a.claimMilestone milestone.id).record = a.record := by
      rw [Account.claimMilestone, if_neg (by rw [hmore]; exact Bool.false_ne_true)]
    rw [hafter, milestonesPaid_cons passage.hact passage.hmoves]
    change _ ≤ a.record.amountRaised *
      (bpsOf (claimedOf a.funds.milestones (update a.funds.claimed milestone.id true)) : Int)
    rw [hbps, Int.natCast_add, Int.mul_add, Int.add_mul]
    have hpaid : act.pays Act.isMilestoneClaim moves =
        floorBps (a.record.amountRaised - ceilBps a.record.amountRaised
          ((view r.pre).effectiveFee a.record)) milestone.payoutBps +
        floorBps (ceilBps a.record.amountRaised ((view r.pre).effectiveFee a.record))
          milestone.payoutBps := by omega
    rw [hpaid]
    omega
  · refine ⟨r, List.mem_cons_self, hcloses ?_⟩
    by_contra hmore
    simp only [Account.claimMilestone, if_neg hmore, payable.notWithdrawn] at hnow
    cases hnow

theorem Passage.prorated {r : Receipt} (passage : Passage host c tr cfg r act moves delta a a')
    (ih : Prorated c tr a) : Prorated c (r :: tr) a' := by
  by_cases hclaim : act.isMilestoneClaim = true
  · exact ih.claim passage hclaim
  · obtain ⟨none, share, closed⟩ := ih
    have phase := passage.phase
    have planned := passage.planned
    rw [← milestonesPaid_cons_of_not passage.hact hclaim] at none share
    have closed' : a.record.fundsWithdrawn = true → a.funds.milestones ≠ [] →
        ∃ x ∈ r :: tr, x.Closes c := by
      intro hnow hplan
      obtain ⟨x, hx, hcloses⟩ := closed hnow hplan
      exact ⟨x, List.mem_cons_of_mem _ hx, hcloses⟩
    cases passage.step with
    | @contributed _ moves who amounts nonempty pos accepts =>
        have hsum : 0 ≤ amounts.sum := List.sum_nonneg fun x hx => Int.le_of_lt (pos x hx)
        obtain ⟨_, _, _, _, heq⟩ := a.contributeAll_eq (view r.pre).admin.admin who amounts
        rw [heq]
        refine ⟨none, fun hopen => Int.le_trans (share hopen) ?_, closed'⟩
        exact Int.mul_le_mul_of_nonneg_right (Int.le_add_of_nonneg_right hsum)
          (Int.natCast_nonneg _)
    | withdrew payable noPlan =>
        exact ⟨none, fun hstill => Bool.noConfusion hstill, fun _ hplan => absurd noPlan hplan⟩
    | planned notCancelled unpaid noPlan hplan =>
        rcases planned with ⟨-, hnone⟩ | ⟨hsome, -⟩
        · refine ⟨none, fun _ => ?_, fun hnow => Bool.noConfusion (unpaid.symm.trans hnow)⟩
          rw [none hnone, Int.zero_mul]
          have hraised := passage.books.raised_nonneg
          exact Int.mul_nonneg hraised (Int.natCast_nonneg _)
        · exact absurd noPlan hsome
    | marked =>
        refine ⟨none, fun hopen => ?_, fun hnow hplan => closed' hnow fun hempty => hplan ?_⟩
        · dsimp only
          rw [bpsOf_verifiedAt]
          exact share hopen
        · simp only [hempty, verifiedAt, List.map_nil]
    | claimed => exact absurd rfl hclaim
    | cancelled live unpaid =>
        exact ⟨none, share, fun hnow => Bool.noConfusion (unpaid.symm.trans hnow)⟩
    | adminCancelled live unpaid =>
        exact ⟨none, share, fun hnow => Bool.noConfusion (unpaid.symm.trans hnow)⟩
    | _ => exact ⟨none, share, closed'⟩

theorem run_prorated (run : Run (machine host) tr cfg)
    (ha : (view cfg.state).account c = some a) : Prorated c tr a := by
  refine account_invariant (I := fun tr _ a => Prorated c tr a) ?_
    (fun passage ih => passage.prorated ih) run ha
  intro tr r a hacts hborn
  have hnone : milestonesPaid c (r :: tr) = 0 := paidFor_eq_zero rfl hacts
  cases hborn
  refine ⟨fun _ => hnone, fun _ => ?_, fun hnow => Bool.noConfusion hnow⟩
  rw [hnone, Int.zero_mul]
  exact Int.le_refl 0

/-- Until the last claim no more has been paid than was raised. -/
theorem Prorated.le_raised (prorated : Prorated c tr a) (planned : a.Planned)
    (hraised : 0 ≤ a.record.amountRaised) (hopen : a.record.fundsWithdrawn = false) :
    milestonesPaid c tr ≤ a.record.amountRaised := by
  have hshare := prorated.share hopen
  have hle : bpsOf (claimedOf a.funds.milestones a.funds.claimed) ≤ bpsDenominator := by
    rcases planned with ⟨hempty, -⟩ | ⟨-, shape⟩
    · rw [hempty]
      exact Nat.zero_le _
    · exact bpsOf_claimed_le shape
  have hwhole : a.record.amountRaised * bpsOf (claimedOf a.funds.milestones a.funds.claimed) ≤
      a.record.amountRaised * 10000 :=
    Int.mul_le_mul_of_nonneg_left (Int.ofNat_le.mpr hle) hraised
  omega

/-! ## Claims under the same terms -/

/-- What a call that is no milestone claim leaves to the plan: the slices claimed so
far, and, once the last of them is claimed, the amount raised. -/
structure SlicesKept (a a' : Account) : Prop where
  slices : ∀ amount, slicesOf amount (claimedOf a'.funds.milestones a'.funds.claimed) =
    slicesOf amount (claimedOf a.funds.milestones a.funds.claimed)
  opened : a'.record.fundsWithdrawn = false → a.record.fundsWithdrawn = false
  closed : a'.record.fundsWithdrawn = true → a'.funds.milestones ≠ [] →
    a.record.fundsWithdrawn = true ∧ a.funds.milestones ≠ [] ∧
      a'.record.amountRaised = a.record.amountRaised

theorem AccountStep.slicesKept (h : AccountStep env v c act moves delta a a')
    (hclaim : act.isMilestoneClaim = false) (phase : a.Phase) (planned : a.Planned) :
    SlicesKept a a' := by
  cases h with
  | contributed nonempty pos accepts =>
      have hunpaid := phase.unpaid accepts.of_live
      obtain ⟨_, _, _, _, heq⟩ := a.contributeAll_eq v.admin.admin _ _
      rw [heq]
      exact ⟨fun _ => rfl, id, fun hnow => Bool.noConfusion (hunpaid.symm.trans hnow)⟩
  | withdrew payable noPlan =>
      exact ⟨fun _ => rfl, fun hstill => Bool.noConfusion hstill,
        fun _ hplan => absurd noPlan hplan⟩
  | planned notCancelled unpaid noPlan hplan =>
      rcases planned with ⟨-, hnone⟩ | ⟨hsome, -⟩
      · refine ⟨fun amount => ?_, id, fun hnow => Bool.noConfusion (unpaid.symm.trans hnow)⟩
        rw [slicesOf_claimed, slicesOf_claimed, Parts.sumTaken_none fun _ _ => hnone _,
          Parts.sumTaken_none fun _ _ => hnone _]
      · exact absurd noPlan hsome
  | marked =>
      refine ⟨fun _ => slicesOf_verifiedAt, id, fun hnow hplan => ⟨hnow, fun hempty => ?_, rfl⟩⟩
      exact hplan (by simp only [hempty, verifiedAt, List.map_nil])
  | claimed => cases hclaim
  | _ => exact ⟨fun _ => rfl, id, fun hnow hplan => ⟨hnow, hplan, rfl⟩⟩

theorem Passage.slicesKept {r : Receipt} (passage : Passage host c tr cfg r act moves delta a a')
    (hclaim : act.isMilestoneClaim = false) : SlicesKept a a' :=
  passage.step.slicesKept hclaim passage.phase passage.planned

/-- A milestone claim on `c` is made while `raised` has been raised and the fee in
force is `feeBps`. -/
def Receipt.ClaimsUnder (c : Nat) (raised : Int) (feeBps : Nat) (r : Receipt) : Prop :=
  (r.call.act c).isMilestoneClaim = true →
    ∀ campaign, r.pre.campaigns.campaign c = some campaign →
      campaign.amountRaised = raised ∧ effectiveFee r.pre campaign = feeBps

instance (c : Nat) (raised : Int) (feeBps : Nat) (r : Receipt) :
    Decidable (r.ClaimsUnder c raised feeBps) :=
  inferInstanceAs (Decidable (_ → ∀ _, _ = some _ → _))

/-- What the claims on `c` have given to one party. -/
def claimedBy (cut : List Transfer → Int) (c : Nat) (tr : List Receipt) : Int :=
  (tr.map fun r => if (r.call.act c).isMilestoneClaim then cut r.post.tokens.moved else 0).sum

theorem claimedBy_cons {cut : List Transfer → Int} {r : Receipt} (hact : r.call.act c = act)
    (hmoves : r.post.tokens.moved = moves) (hclaim : act.isMilestoneClaim = true) :
    claimedBy cut c (r :: tr) = cut moves + claimedBy cut c tr := by
  rw [claimedBy, List.map_cons, List.sum_cons, hact, hmoves, if_pos hclaim]
  rfl

theorem claimedBy_cons_of_not {cut : List Transfer → Int} {r : Receipt}
    (h : (r.call.act c).isMilestoneClaim = false) :
    claimedBy cut c (r :: tr) = claimedBy cut c tr := by
  rw [claimedBy, List.map_cons, List.sum_cons, h, if_neg Bool.false_ne_true]
  exact Int.zero_add _

theorem claimedBy_eq_zero {cut : List Transfer → Int} (h : ∀ r ∈ tr, r.call.act c = .other) :
    claimedBy cut c tr = 0 := by
  induction tr with
  | nil => rfl
  | cons r rest ih =>
      rw [claimedBy_cons_of_not (by rw [h r List.mem_cons_self]; rfl)]
      exact ih fun x hx => h x (List.mem_cons_of_mem _ hx)

theorem milestonesPaid_eq (c : Nat) (tr : List Receipt) :
    milestonesPaid c tr = claimedBy platformCut c tr + claimedBy creatorCut c tr := by
  induction tr with
  | nil => rfl
  | cons r rest ih =>
      by_cases hclaim : (r.call.act c).isMilestoneClaim = true
      · rw [milestonesPaid_cons rfl rfl, claimedBy_cons rfl rfl hclaim,
          claimedBy_cons rfl rfl hclaim, ih, Act.pays, if_pos hclaim, ← cuts_sum]
        omega
      · have hnot := Bool.eq_false_of_not_eq_true hclaim
        rw [milestonesPaid_cons_of_not rfl hclaim, claimedBy_cons_of_not hnot,
          claimedBy_cons_of_not hnot, ih]

/-- A claim made under the terms `raised` and `feeBps`: its transfers, and the parts of
either party in them. -/
structure ClaimUnder (v : View) (c : Nat) (raised : Int) (feeBps : Nat) (moves : List Transfer)
    (a a' : Account) (milestone : Milestone) : Prop where
  mem : milestone ∈ a.funds.milestones
  unclaimed : a.funds.claimed milestone.id = false
  payable : a.Payable
  after : a' = a.claimMilestone milestone.id
  terms : a.record.amountRaised = raised
  transfers : ∃ token admin, v.currency c = some token ∧ v.admin.admin = some admin ∧
    moves = claimTransfers token admin a.record.creator
      { creator := creatorCut moves, fee := platformCut moves }
  platform : platformCut moves =
    sliceOf (ceilBps raised feeBps) a.funds.milestones a.funds.claimed milestone
  creator : creatorCut moves =
    sliceOf (raised - ceilBps raised feeBps) a.funds.milestones a.funds.claimed milestone

theorem Passage.claimUnder {raised : Int} {feeBps : Nat} {r : Receipt}
    (passage : Passage host c tr cfg r act moves delta a a')
    (hterms : r.ClaimsUnder c raised feeBps) (hclaim : act.isMilestoneClaim = true) :
    ∃ milestone, act = .claimMilestone milestone.id ∧
      ClaimUnder (view r.pre) c raised feeBps moves a a' milestone := by
  obtain ⟨milestone, mem, token, admin, hact, payable, unclaimed, hafter, currency, hadmin, hmoves,
    -⟩ := passage.step.claim_transfers hclaim
  have books := passage.books
  obtain ⟨hraised, hfee⟩ := hterms (by rw [passage.hact]; exact hclaim) a.record
    (View.account_eq_some.mp passage.before).1
  rw [effectiveFee_view] at hfee
  have hnonneg : 0 ≤ ceilBps raised feeBps := by
    rw [← hraised, ← hfee]
    exact (ceilBps_bounds books.raised_nonneg
      (View.effectiveFee_le passage.configured passage.phase)).1
  rw [View.milestonePay_eq passage.phase books passage.planned passage.configured mem unclaimed,
    hraised, hfee] at hmoves
  have hplatform : platformCut moves = _ := hmoves ▸ platformCut_claim
    (sliceOf_nonneg hnonneg (passage.planned.shape mem) mem unclaimed)
  have hcreator : creatorCut moves = _ := hmoves ▸ creatorCut_claim
  refine ⟨milestone, hact, mem, unclaimed, payable, hafter, hraised,
    ⟨token, admin, currency, hadmin, ?_⟩, hplatform, hcreator⟩
  rw [hplatform, hcreator]
  exact hmoves

/-- What the claims on `c` have given to either party when all were made under the same
terms. -/
structure Streamed (c : Nat) (raised : Int) (feeBps : Nat) (tr : List Receipt) (a : Account) :
    Prop where
  slices : a.record.fundsWithdrawn = false →
    claimedBy platformCut c tr =
        slicesOf (ceilBps raised feeBps) (claimedOf a.funds.milestones a.funds.claimed) ∧
      claimedBy creatorCut c tr =
        slicesOf (raised - ceilBps raised feeBps) (claimedOf a.funds.milestones a.funds.claimed)
  whole : a.record.fundsWithdrawn = true → a.funds.milestones ≠ [] →
    a.record.amountRaised = raised ∧ claimedBy platformCut c tr = ceilBps raised feeBps ∧
      claimedBy creatorCut c tr = raised - ceilBps raised feeBps

theorem Streamed.claim {raised : Int} {feeBps : Nat} {r : Receipt}
    (ih : Streamed c raised feeBps tr a) (passage : Passage host c tr cfg r act moves delta a a')
    (hterms : r.ClaimsUnder c raised feeBps) (hclaim : act.isMilestoneClaim = true) :
    Streamed c raised feeBps (r :: tr) a' := by
  obtain ⟨milestone, -, claim⟩ := passage.claimUnder hterms hclaim
  have shape := passage.planned.shape claim.mem
  have hopen := claim.payable.notWithdrawn
  obtain ⟨hplatform, hcreator⟩ := ih.slices hopen
  have hplatformSum := sliceOf_sum (ceilBps raised feeBps) shape claim.mem claim.unclaimed
  have hcreatorSum := sliceOf_sum (raised - ceilBps raised feeBps) shape claim.mem claim.unclaimed
  rw [← hplatform, ← claim.platform, ← claimedBy_cons passage.hact passage.hmoves hclaim]
    at hplatformSum
  rw [← hcreator, ← claim.creator, ← claimedBy_cons passage.hact passage.hmoves hclaim]
    at hcreatorSum
  rw [claim.after]
  unfold Account.claimMilestone
  by_cases hlast : allClaimed a.funds.milestones a.funds.claimed milestone.id = true
  · rw [if_pos hlast] at hplatformSum hcreatorSum ⊢
    exact ⟨fun hstill => Bool.noConfusion hstill,
      fun _ _ => ⟨claim.terms, hplatformSum, hcreatorSum⟩⟩
  · rw [if_neg hlast] at hplatformSum hcreatorSum ⊢
    exact ⟨fun _ => ⟨hplatformSum, hcreatorSum⟩,
      fun hnow => Bool.noConfusion (hopen.symm.trans hnow)⟩

theorem Passage.streamed {r : Receipt} {raised : Int} {feeBps : Nat}
    (passage : Passage host c tr cfg r act moves delta a a')
    (hterms : r.ClaimsUnder c raised feeBps) (ih : Streamed c raised feeBps tr a) :
    Streamed c raised feeBps (r :: tr) a' := by
  by_cases hclaim : act.isMilestoneClaim = true
  · exact ih.claim passage hterms hclaim
  · have hnot := Bool.eq_false_of_not_eq_true hclaim
    have kept := passage.slicesKept hnot
    rw [← passage.hact] at hnot
    refine ⟨fun hopen => ?_, fun hclosed hplan => ?_⟩
    · rw [claimedBy_cons_of_not hnot, claimedBy_cons_of_not hnot, kept.slices, kept.slices]
      exact ih.slices (kept.opened hopen)
    · obtain ⟨hbefore, hsome, hraised⟩ := kept.closed hclosed hplan
      rw [claimedBy_cons_of_not hnot, claimedBy_cons_of_not hnot, hraised]
      exact ih.whole hbefore hsome

theorem run_streamed {raised : Int} {feeBps : Nat} (run : Run (machine host) tr cfg)
    (hterms : ∀ r ∈ tr, r.ClaimsUnder c raised feeBps)
    (ha : (view cfg.state).account c = some a) : Streamed c raised feeBps tr a := by
  refine account_run (C := Receipt.ClaimsUnder c raised feeBps)
    (I := fun tr _ a => Streamed c raised feeBps tr a) ?_
    (fun passage _ hr ih => passage.streamed hr ih) run hterms ha
  intro tr r a hacts hborn
  have hnone : ∀ amount, slicesOf amount (claimedOf [] fun _ => false) = 0 := fun _ => rfl
  cases hborn
  refine ⟨fun _ => ?_, fun hnow => Bool.noConfusion hnow⟩
  rw [claimedBy_eq_zero hacts, claimedBy_eq_zero hacts]
  exact ⟨(hnone _).symm, (hnone _).symm⟩

/-- What the claims on `c` have paid when all were made under the same terms. -/
structure PaidUnder (c : Nat) (raised : Int) (feeBps : Nat) (tr : List Receipt) (a : Account) :
    Prop where
  slices : a.record.fundsWithdrawn = false →
    milestonesPaid c tr = sliced raised feeBps a.funds.milestones a.funds.claimed
  whole : a.record.fundsWithdrawn = true → a.funds.milestones ≠ [] →
    milestonesPaid c tr = a.record.amountRaised

theorem run_paidUnder {raised : Int} {feeBps : Nat} (run : Run (machine host) tr cfg)
    (hterms : ∀ r ∈ tr, r.ClaimsUnder c raised feeBps)
    (ha : (view cfg.state).account c = some a) : PaidUnder c raised feeBps tr a := by
  have streamed := run_streamed run hterms ha
  refine ⟨fun hopen => ?_, fun hclosed hplan => ?_⟩
  · obtain ⟨hplatform, hcreator⟩ := streamed.slices hopen
    rw [milestonesPaid_eq, hplatform, hcreator, sliced]
    omega
  · obtain ⟨hraised, hplatform, hcreator⟩ := streamed.whole hclosed hplan
    rw [milestonesPaid_eq, hplatform, hcreator, hraised]
    omega

/-- If the last claim on `c` is made, all claims on it are made under the same terms. -/
def ClosedUnder (c : Nat) (raised : Int) (feeBps : Nat) (tr : List Receipt) : Prop :=
  (∃ r ∈ tr, r.Closes c) → ∀ r ∈ tr, r.ClaimsUnder c raised feeBps

theorem run_paidWhole {raised : Int} {feeBps : Nat} (run : Run (machine host) tr cfg)
    (hterms : ClosedUnder c raised feeBps tr) (ha : (view cfg.state).account c = some a)
    (hclosed : a.record.fundsWithdrawn = true) (hplan : a.funds.milestones ≠ []) :
    milestonesPaid c tr = a.record.amountRaised :=
  (run_paidUnder run (hterms ((run_prorated run ha).closed hclosed hplan)) ha).whole hclosed hplan

/-- The claims never pay more than was raised, and the last one brings the payments
to exactly that, if it is made under the terms of the claims before. -/
theorem milestones_conserved {raised : Int} {feeBps : Nat} (run : Run (machine host) tr cfg)
    (hterms : ClosedUnder c raised feeBps tr) {campaign : Campaign}
    (hcampaign : cfg.state.campaigns.campaign c = some campaign) :
    milestonesPaid c tr ≤ campaign.amountRaised ∧
      (campaign.fundsWithdrawn = true → cfg.state.campaigns.campaignMilestones c ≠ [] →
        milestonesPaid c tr = campaign.amountRaised) := by
  have ha := View.account_of_campaign (v := view cfg.state) hcampaign
  have prorated := run_prorated run ha
  have planned := run_planned run ha
  obtain ⟨books, -⟩ := run_books run ha
  have hraised : 0 ≤ campaign.amountRaised := books.raised_nonneg
  refine ⟨?_, run_paidWhole run hterms ha⟩
  by_cases hopen : campaign.fundsWithdrawn = false
  · exact prorated.le_raised planned hraised hopen
  · rcases planned with ⟨-, hnone⟩ | ⟨hplan, -⟩
    · rw [prorated.none hnone]
      exact hraised
    · exact Int.le_of_eq
        (run_paidWhole run hterms ha (Bool.eq_true_of_not_eq_false hopen) hplan)

/-- Two contributors meet the goal of a planned campaign, and one half is paid out. -/
def Sample.halfPaid : List Request :=
  planned ++ [ask 1 alice (.contribute 1 alice 50000), ask 1 bob (.contribute 1 bob 50000),
    ask 2 creator (.claimMilestone 1 0)]

theorem milestones_sample :
    ∃ tr cfg, Run (machine Sample.host) tr cfg ∧
      ∃ campaign, cfg.state.campaigns.campaign 1 = some campaign ∧
        campaign.amountRaised = 100000 ∧ milestonesPaid 1 tr = 100000 := by
  have h : Sample.Ends 300 (Sample.halfPaid ++ [Sample.ask 3 Sample.creator (.claimMilestone 1 1)])
      fun tr cfg => (cfg.state.campaigns.campaign 1).map
          (fun campaign => (campaign.amountRaised, campaign.fundsWithdrawn)) =
            some (100000, true) ∧
        cfg.state.campaigns.campaignMilestones 1 ≠ [] ∧ ∀ r ∈ tr, r.ClaimsUnder 1 100000 300 := by
    decide +kernel
  obtain ⟨tr, cfg, run, hcampaign, hplan, hterms⟩ := h.run
  obtain ⟨campaign, hcampaign, hpair⟩ := Option.map_eq_some_iff.mp hcampaign
  obtain ⟨hraised, hclosed⟩ := Prod.mk.inj hpair
  have hpaid := (milestones_conserved run (fun _ => hterms) hcampaign).2 hclosed hplan
  exact ⟨tr, cfg, run, campaign, hcampaign, hraised, hpaid.trans hraised⟩

/-- A contribution between the halves: the last claim takes the first to have paid half
of the new amount. -/
theorem milestones_stranded :
    ∃ tr cfg, Run (machine Sample.host) tr cfg ∧
      ∃ campaign, cfg.state.campaigns.campaign 1 = some campaign ∧
        campaign.fundsWithdrawn = true ∧ campaign.amountRaised = 150000 ∧
        milestonesPaid 1 tr = 125000 := by
  have h : Sample.Ends 0 (Sample.halfPaid ++
      [Sample.ask 3 Sample.alice (.contribute 1 Sample.alice 50000),
        Sample.ask 4 Sample.creator (.claimMilestone 1 1)])
      fun tr cfg => (cfg.state.campaigns.campaign 1).map
          (fun campaign => (campaign.fundsWithdrawn, campaign.amountRaised)) =
            some (true, 150000) ∧ milestonesPaid 1 tr = 125000 := by
    decide +kernel
  obtain ⟨tr, cfg, run, hcampaign, hpaid⟩ := h.run
  obtain ⟨campaign, hcampaign, hpair⟩ := Option.map_eq_some_iff.mp hcampaign
  obtain ⟨hclosed, hraised⟩ := Prod.mk.inj hpair
  exact ⟨tr, cfg, run, campaign, hcampaign, hclosed, hraised, hpaid⟩

end ProofOfHeart
