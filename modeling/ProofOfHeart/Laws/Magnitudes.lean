import ProofOfHeart.Laws.ContributionCaps
import ProofOfHeart.Laws.Milestones
import ProofOfHeart.Laws.RevenueClaims

/-! # How large the amounts can get

The burst guard multiplies a contribution and the amount raised so far by ten thousand
before it admits the contribution, so that no campaign raises more than a small part of
the machine's range. A pool of revenue is only kept within the range itself, and what is
distributed of it never exceeds it.
-/

namespace ProofOfHeart

open Checked Function Trace Balances Entitlements

variable {host : Host} {tr : List Receipt} {cfg : Config} {r : Receipt} {c : Nat} {a a' : Account}
  {env : Env} {v : View} {act : Act} {moves : List Transfer} {delta : Int} {s s' : State}
  {who : Address} {amount : Int}

/-! ## What contributions keep -/

section Contributing

variable {P : View → Prop}
  (accepted : ∀ {s s' : State} {c : Nat} {who : Address} {amount : Int}, P (view s) →
    acceptContribution env s c who amount = .ok s' → P (view s'))
  (moved : ∀ {v : View} (tokens : Tokens), P v → P { v with tokens := tokens })

include accepted moved

theorem contribute_keeps (h : contribute env s c who amount = .ok s') (hP : P (view s)) :
    P (view s') := by
  simp only [contribute, bind_eq_ok, okOr_eq_ok] at h
  obtain ⟨_, -, _, -, s1, hs1, total, -, token, -, h⟩ := h
  obtain ⟨-, -, hview⟩ := transfer_view _ h
  rw [view_setLastContributionTime, updateTopContributor_view] at hview
  rw [hview]
  exact moved _ (accepted hP hs1)

theorem batchContribute_keeps {items : List (Nat × Int)}
    (h : batchContribute env s who items = .ok s') (hP : P (view s)) : P (view s') := by
  simp only [batchContribute, bind_eq_ok] at h
  obtain ⟨_, -, _, -, _, -, progress, hprogress, h⟩ := h
  have hitems : P (view progress.state) :=
    each_preserves (fun progress : BatchProgress => P (view progress.state))
      (fun _ _ _ hmid hstep => accepted hmid (batchContributeItem_view hstep)) items _ _ hP
      hprogress
  refine each_preserves (fun s => P (view s)) (fun s debt t hmid hstep => ?_) _ _ _ hitems h
  obtain ⟨-, -, hview⟩ := transfer_view _ hstep
  rw [hview]
  exact moved _ hmid

end Contributing

/-! ## Bounds -/

/-- Twice what the burst guard can multiply. -/
def raisedMax : Int := 2 * (I128.maxValue / 10000)

structure Account.Bounded (a : Account) : Prop where
  raised : a.record.amountRaised ≤ raisedMax
  contributors : a.funds.contributors < 2 ^ 32
  pool : a.funds.pool ≤ I128.maxValue

structure View.Bounded (v : View) : Prop where
  account : ∀ c a, v.account c = some a → a.Bounded
  totalRaised : v.totalRaised ≤ I128.maxValue

theorem View.Bounded.of_tokens (bounded : v.Bounded) (tokens : Tokens) :
    ({ v with tokens := tokens } : View).Bounded :=
  ⟨bounded.account, bounded.totalRaised⟩

theorem checkBurstGuard_bounds {campaign : Campaign}
    (h : checkBurstGuard env s c campaign amount = .ok s') :
    amount ≤ I128.maxValue / 10000 ∧ campaign.amountRaised ≤ I128.maxValue / 10000 := by
  simp only [checkBurstGuard, bind_eq_ok, okOr_eq_ok, I128.checkedMul_eq_some] at h
  obtain ⟨_, ⟨rfl, hamount⟩, _, -, _, -, _, ⟨rfl, hraised⟩, -⟩ := h
  have hmax : (bpsDenominator : Int) = 10000 := rfl
  rw [hmax] at hamount hraised
  exact ⟨(Int.le_ediv_iff_mul_le (by decide)).mpr hamount.2,
    (Int.le_ediv_iff_mul_le (by decide)).mpr hraised.2⟩

theorem updateContributionAccounting_bounds {campaign : Campaign} {current lifetime : Int}
    (h : updateContributionAccounting s c who campaign current lifetime amount = .ok s') :
    (lifetime = 0 → ((view s).funds c).contributors + 1 < 2 ^ 32) ∧
      (view s).totalRaised + amount ≤ I128.maxValue := by
  simp only [updateContributionAccounting, bind_eq_ok, okOr_eq_ok, I128.checkedAdd_eq_some,
    pure_eq_ok, totalRaised_view] at h
  obtain ⟨s1, hs1, _, ⟨rfl, -⟩, _, ⟨rfl, -⟩, _, ⟨rfl, -⟩, _, ⟨rfl, -⟩, s2, hs2, _, ⟨rfl, htotal⟩,
    -⟩ := h
  refine ⟨fun hfirst => ?_, ?_⟩
  · rw [countContributor, if_pos hfirst] at hs2
    have hcount := ((incrementContributorCount_eq_ok _ c).mp hs2).1
    simpa [snapshotFeeRecipient_view hs1] using hcount
  · rw [countContributor_view hs2] at htotal
    simpa [snapshotFeeRecipient_view hs1] using htotal.2

theorem acceptContribution_bounded (bounded : (view s).Bounded)
    (h : acceptContribution env s c who amount = .ok s') : (view s').Bounded := by
  obtain ⟨a, ha, -, -, hview⟩ := acceptContribution_spec h
  obtain ⟨hrecord, hfunds⟩ := View.account_eq_some.mp ha
  have hbefore := bounded.account c a ha
  simp only [acceptContribution, getCampaignOrError, bind_eq_ok, okOr_eq_ok] at h
  obtain ⟨_, -, record, hsame, _, -, _, -, _, -, _, -, _, -, _, -, _, -, s1, hs1, h⟩ := h
  obtain rfl : record = a.record := Option.some.inj (hsame.symm.trans hrecord)
  obtain ⟨hamount, hraised⟩ := checkBurstGuard_bounds hs1
  obtain ⟨hcount, htotal⟩ := updateContributionAccounting_bounds h
  rw [checkBurstGuard_view hs1, hfunds] at hcount
  rw [checkBurstGuard_view hs1] at htotal
  have hafter : (a.contribute (view s).admin.admin who amount).Bounded := by
    refine ⟨?_, ?_, hbefore.pool⟩
    · simp only [Account.contribute, raisedMax]
      omega
    · have hlifetime : s.contributions.lifetimeContribution c who = a.funds.lifetime who :=
        congrArg (fun funds : Funds => funds.lifetime who) hfunds
      rw [hlifetime] at hcount
      simp only [Account.contribute]
      split
      next hfirst => exact hcount hfirst
      next => exact hbefore.contributors
  have haccount : (view s').account =
      ((view s).setAccount c (a.contribute (view s).admin.admin who amount)).account := by
    rw [hview]
    rfl
  refine ⟨fun other b hb => ?_, by rw [hview]; exact htotal⟩
  rw [haccount, View.setAccount_account] at hb
  split at hb
  next => rwa [← Option.some.inj hb]
  next => exact bounded.account other b hb

/-! ## Every call -/

theorem depositRevenue_bounded (bounded : (view s).Bounded)
    (h : depositRevenue env s c amount = .ok s') : (view s').Bounded := by
  obtain ⟨a, token, ha, -, -, -, -, hview⟩ := depositRevenue_spec h
  have hbefore := bounded.account c a ha
  simp only [depositRevenue, bind_eq_ok, okOr_eq_ok, I128.checkedAdd_eq_some] at h
  obtain ⟨_, -, _, -, _, -, _, -, _, -, _, -, _, -, _, ⟨rfl, hpool⟩, -⟩ := h
  rw [pool_view, (View.account_eq_some.mp ha).2] at hpool
  have haccount : (view s').account = ((view s).setAccount c (a.deposit amount)).account := by
    rw [hview]
    rfl
  refine ⟨fun other b hb => ?_, by rw [hview]; exact bounded.totalRaised⟩
  rw [haccount, View.setAccount_account] at hb
  split at hb
  next =>
      rw [← Option.some.inj hb]
      exact ⟨hbefore.raised, hbefore.contributors, hpool.2⟩
  next => exact bounded.account other b hb

/-- Apart from contributions and deposits nothing grows. -/
theorem AccountStep.bounded (h : AccountStep env v c act moves delta a a')
    (hcontribution : act.isContribution = false) (hdeposit : act.isDeposit = false)
    (bounded : a.Bounded) : a'.Bounded := by
  obtain ⟨raised, contributors, pool⟩ := bounded
  cases h with
  | contributed => cases hcontribution
  | deposited => cases hdeposit
  | refunded =>
      refine ⟨raised, ?_, pool⟩
      exact Nat.lt_of_le_of_lt (Nat.sub_le _ _) contributors
  | cancelled =>
      refine ⟨raised, contributors, ?_⟩
      simp only [Account.cancelByCreator, Account.cancel]
      split
      next => decide
      next => exact pool
  | claimed =>
      unfold Account.claimMilestone
      split <;> exact ⟨raised, contributors, pool⟩
  | _ => exact ⟨raised, contributors, pool⟩

/-- Only contributions raise the global counter. -/
theorem AccountStep.delta_nonpos (h : AccountStep env v c act moves delta a a')
    (hcontribution : act.isContribution = false) (phase : a.Phase) (books : a.Books)
    (planned : a.Planned) (conf : v.Configured) : delta ≤ 0 := by
  by_cases hclaim : act.isMilestoneClaim = true
  · obtain ⟨milestone, mem, -, -, -, -, unclaimed, -, -, -, -, hdelta⟩ :=
      h.claim_transfers hclaim
    have shape := planned.shape mem
    obtain ⟨hfee, hnet⟩ := ceilBps_bounds books.raised_nonneg (View.effectiveFee_le conf phase)
    have hplatform := sliceOf_nonneg hfee shape mem unclaimed
    have hcreator := sliceOf_nonneg hnet shape mem unclaimed
    rw [View.milestonePay_eq phase books planned conf mem unclaimed] at hdelta
    dsimp only at hdelta
    omega
  · cases h with
    | contributed => cases hcontribution
    | refunded refundable pos =>
        split
        next => exact Int.le_refl 0
        next => omega
    | withdrew payable noPlan currency hrecipient feePos creatorPos =>
        have hsum := splitFunds_sum a.record.effectiveAmountRaised (v.effectiveFee a.record)
          (v.vesting a).2
        rw [View.split] at feePos creatorPos ⊢
        omega
    | released hreserve unreleased due withdrawn currency pos => omega
    | claimed => exact absurd rfl hclaim
    | cancelled | adminCancelled => omega
    | _ => exact Int.le_refl 0

theorem Born.bounded {call : Call} (h : Born env v call c a) : a.Bounded := by
  have hraised : (0 : Int) ≤ raisedMax := by decide
  have hcontributors : 0 < 2 ^ 32 := by decide
  have hpool : (0 : Int) ≤ I128.maxValue := by decide
  cases h
  exact ⟨hraised, hcontributors, hpool⟩

theorem Receipt.Valid.bounded_of_not (h : r.Valid host) (run : Run (machine host) tr cfg)
    (hpre : r.pre = cfg.state) (hcontribution : r.call.contributes = false)
    (hdeposit : ∀ c, (r.call.act c).isDeposit = false) (bounded : (view r.pre).Bounded) :
    (view r.post).Bounded := by
  have sane := run_sane run
  rw [← hpre] at sane
  have hstepped := h.stepped sane
  have hact := Call.act_of_not_contributes hcontribution
  obtain ⟨delta, htotal, hexisting⟩ := hstepped.existing
  refine ⟨fun c a' ha' => ?_, ?_⟩
  · cases hc : (view r.pre).account c with
    | none =>
        rcases (hstepped.free c hc).2 with ⟨hgone, -⟩ | ⟨-, b, hb, hborn⟩
        · rw [hgone] at ha'
          cases ha'
        · rw [Option.some.inj (ha'.symm.trans hb)]
          exact hborn.bounded
    | some a =>
        obtain ⟨b, hb, hstep⟩ := hexisting c a hc
        rw [Option.some.inj (ha'.symm.trans hb)]
        exact hstep.bounded (hact c) (hdeposit c) (bounded.account c a hc)
  · have hsum : ∑ c ∈ (view r.pre).ids, delta c ≤ 0 := by
      refine Finset.sum_nonpos fun c hc => ?_
      obtain ⟨a, ha⟩ := sane.toRegistered.account_of_mem hc
      obtain ⟨b, -, hstep⟩ := hexisting c a ha
      have hrun : (view cfg.state).account c = some a := hpre ▸ ha
      exact hstep.delta_nonpos (hact c) (run_phase run hrun) (run_books run hrun).1
        (run_planned run hrun) sane.toConfigured
    have hbefore := bounded.totalRaised
    omega

theorem Receipt.Valid.bounded (h : r.Valid host) (run : Run (machine host) tr cfg)
    (hpre : r.pre = cfg.state) (bounded : (view r.pre).Bounded) : (view r.post).Bounded := by
  have hdispatch := h.dispatched
  have hclear : (view r.pre.clearMoved).Bounded := bounded.of_tokens _
  have hother := h.bounded_of_not run hpre
  generalize r.call = call at hdispatch hother
  cases call with
  | contribute c who amount =>
      exact contribute_keeps acceptContribution_bounded (fun tokens h => h.of_tokens tokens)
        hdispatch hclear
  | batchContribute who items =>
      exact batchContribute_keeps acceptContribution_bounded (fun tokens h => h.of_tokens tokens)
        hdispatch hclear
  | depositRevenue c amount => exact depositRevenue_bounded hclear hdispatch
  | _ =>
      refine hother rfl (fun c => ?_) bounded
      dsimp only [Call.act]
      first
      | rfl
      | (split <;> rfl)

theorem run_bounded (run : Run (machine host) tr cfg) : (view cfg.state).Bounded := by
  refine run.invariant (I := fun _ cfg => (view cfg.state).Bounded) ?_ ?_ ?_
  · intro r cfg hstart
    have fresh := start_fresh hstart
    refine ⟨fun c a ha => ?_, ?_⟩
    · rw [fresh.account_none] at ha
      cases ha
    · rw [fresh.totalRaised]
      decide
  · rintro tr cfg r cfg' run bounded ⟨hvalid, -, hpre, rfl⟩
    rw [← hpre] at bounded
    exact hvalid.bounded run hpre bounded
  · rintro tr cfg cfg' bounded ⟨tokens, -, rfl⟩
    exact bounded.of_tokens tokens

/-! ## What is distributed of a pool -/

section Sides

variable {pool pool' : Int}

theorem Account.due_mono (books : a.Books) (hpool : 0 ≤ pool) (hle : pool ≤ pool')
    (who : Address) : a.due pool who ≤ a.due pool' who := by
  rw [Account.due_eq, Account.due_eq]
  exact part_mono books.contribution_nonneg (Int.mul_nonneg hpool (Int.natCast_nonneg _))
    (Int.mul_le_mul_of_nonneg_right hle (Int.natCast_nonneg _)) (by decide)
    books.effective_nonneg who

theorem Account.Phase.rest_le : (10000 : Int) - a.record.revenueSharePercentage ≤ 10000 :=
  Int.sub_le_self _ (Int.natCast_nonneg _)

theorem Account.contributorSide_nonneg (phase : a.Phase) (hpool : 0 ≤ pool) :
    0 ≤ a.contributorSide pool :=
  Int.sub_nonneg_of_le
    (Shares.floor_le (d := 10000) (by decide) hpool phase.share_le Account.Phase.rest_le)

theorem Account.contributorSide_mono (phase : a.Phase) (hpool : 0 ≤ pool) (hle : pool ≤ pool') :
    a.contributorSide pool ≤ a.contributorSide pool' := by
  have hgrowth : a.creatorSide pool' - a.creatorSide pool ≤ pool' - pool :=
    Shares.floor_sub_le (d := 10000) (by decide) hpool phase.share_le Account.Phase.rest_le hle
  rw [Account.contributorSide, Account.contributorSide]
  omega

end Sides

/-- While a contributor has not claimed nobody has more than the present share, and what
a sweep has taken beyond fits the contributors' side. -/
structure Account.Moderate (a : Account) : Prop where
  within : (∃ who, 0 < a.funds.contribution who ∧ a.funds.revenueClaimed who = 0) →
    ∀ who, a.funds.revenueClaimed who ≤ a.due a.funds.pool who
  overdrawn : a.overdrawn a.funds.pool ≤ a.contributorSide a.funds.pool

theorem RevenueBooks.moderate_of_unpaid (revenue : RevenueBooks c tr a)
    (hopen : a.record.fundsWithdrawn = false) : a.Moderate := by
  obtain ⟨hpool, hclaimed, -⟩ := revenue.unpaid hopen
  have hle : ∀ who, a.funds.revenueClaimed who ≤ a.due a.funds.pool who := by
    intro who
    rw [hclaimed, hpool, Account.due_zero]
  refine ⟨fun _ => hle, ?_⟩
  rw [Account.overdrawn, overdrawn_of_le hle, hpool, Account.contributorSide,
    Account.creatorSide_zero]
  exact Int.le_refl 0

theorem Account.Moderate.deposit (moderate : a.Moderate) (phase : a.Phase) (books : a.Books)
    (revenue : RevenueBooks c tr a) (pos : 0 < amount) : (a.deposit amount).Moderate := by
  have hnonneg := revenue.poolNonneg
  have hle : a.funds.pool ≤ a.funds.pool + amount := Int.le_add_of_nonneg_right (Int.le_of_lt pos)
  have hdue : ∀ who, a.due a.funds.pool who ≤ a.due (a.funds.pool + amount) who :=
    Account.due_mono books hnonneg hle
  refine ⟨fun hopen who => Int.le_trans (moderate.within hopen who) (hdue who), ?_⟩
  calc Entitlements.overdrawn a.funds.revenueClaimed (a.due (a.funds.pool + amount))
      ≤ a.overdrawn a.funds.pool :=
        overdrawn_anti revenue.finite (books.due_finite _) (books.due_finite _) hdue
    _ ≤ a.contributorSide a.funds.pool := moderate.overdrawn
    _ ≤ a.contributorSide (a.funds.pool + amount) := Account.contributorSide_mono phase hnonneg hle

/-- Only the last to claim for the first time goes beyond the share. -/
theorem Account.Moderate.claim (moderate : a.Moderate) (phase : a.Phase) (books : a.Books)
    (revenue : RevenueBooks c tr a) (claimers : a.Claimers) (hwho : 0 < a.funds.contribution who)
    (undrawn : a.funds.revenueClaimed who < a.due a.funds.pool who) : (a.claim who).Moderate := by
  have hclaimed : (a.claim who).funds.revenueClaimed = update a.funds.revenueClaimed who
      (a.funds.revenueClaimed who + a.claimable who) := rfl
  have hnonneg := claimers.nonneg
  by_cases hsweep : a.LastClaim who ∧ a.contributorSide a.funds.pool - a.funds.distributed >
      a.due a.funds.pool who - a.funds.revenueClaimed who
  · obtain ⟨hfirst, hothers⟩ := (Account.lastClaim_iff books claimers hwho).mp hsweep.1
    have hpays : a.claimable who = a.contributorSide a.funds.pool - a.funds.distributed :=
      if_pos hsweep
    have hdistributed : 0 ≤ a.funds.distributed := by
      rw [revenue.distributed]
      exact total_nonneg hnonneg
    have hdue := Account.due_nonneg books revenue.poolNonneg who
    refine ⟨?_, ?_⟩
    · rintro ⟨other, hother, hzero⟩
      rw [hclaimed] at hzero
      by_cases heq : other = who
      · rw [heq, update_self, hfirst] at hzero
        omega
      · rw [update_of_ne heq] at hzero
        exact absurd (hothers other heq hother) (by omega)
    · change Entitlements.overdrawn (a.claim who).funds.revenueClaimed (a.due a.funds.pool) ≤
        a.contributorSide a.funds.pool
      rw [hclaimed, overdrawn_sweep (moderate.within ⟨who, hwho, hfirst⟩), hfirst, hpays]
      have hside := Account.contributorSide_nonneg phase revenue.poolNonneg
      omega
  · have hpays : a.funds.revenueClaimed who + a.claimable who = a.due a.funds.pool who := by
      rw [Account.claimable, if_neg hsweep]
      omega
    rw [hpays] at hclaimed
    refine ⟨?_, ?_⟩
    · rintro ⟨other, hother, hzero⟩ j
      have hne : other ≠ who := by
        rintro rfl
        rw [hclaimed, update_self] at hzero
        exact absurd undrawn (Int.not_lt.mpr (hzero ▸ hnonneg other))
      rw [hclaimed, update_of_ne hne] at hzero
      have hle := moderate.within ⟨other, hother, hzero⟩
      rw [hclaimed]
      by_cases hj : j = who
      · rw [hj, update_self]
        exact Int.le_refl _
      · rw [update_of_ne hj]
        exact hle j
    · change Entitlements.overdrawn (a.claim who).funds.revenueClaimed (a.due a.funds.pool) ≤
        a.contributorSide a.funds.pool
      rw [hclaimed, overdrawn_claim (Int.le_of_lt undrawn)]
      exact moderate.overdrawn

theorem Passage.moderate (passage : Passage host c tr cfg r act moves delta a a')
    (ih : a.Moderate) : a'.Moderate := by
  have phase := passage.phase
  have books := passage.books
  have revenue := passage.revenue
  have hunpaid := (passage.revenueBooks revenue).moderate_of_unpaid
  cases passage.step with
  | contributed nonempty pos accepts =>
      refine hunpaid ?_
      rw [Account.contributeAll_record]
      exact phase.unpaid accepts.of_live
  | refunded refundable => exact hunpaid (refundable.unpaid phase)
  | cancelled live unpaid => exact hunpaid unpaid
  | deposited shares raised pos => exact ih.deposit phase books revenue pos
  | @claimedRevenue _ token who shares contributed undrawn =>
      have hwho : 0 < a.funds.contribution who := books.contribution_pos contributed
      exact ih.claim phase books revenue
        (run_claimers passage.run (passage.pre ▸ passage.before)) hwho undrawn
  | claimed =>
      unfold Account.claimMilestone
      split <;> exact ⟨ih.within, ih.overdrawn⟩
  | _ => exact ⟨ih.within, ih.overdrawn⟩

theorem run_moderate (run : Run (machine host) tr cfg)
    (ha : (view cfg.state).account c = some a) : a.Moderate :=
  account_invariant (I := fun _ _ a => a.Moderate)
    (fun hacts hborn => (hborn.revenueBooks hacts).moderate_of_unpaid (by cases hborn; rfl))
    (fun passage ih => passage.moderate ih) run ha

theorem run_share_le (run : Run (machine host) tr cfg)
    (ha : (view cfg.state).account c = some a) :
    a.record.revenueSharePercentage ≤ revenueShareMaxBps := by
  refine account_invariant (I := fun _ _ a => a.record.revenueSharePercentage ≤ revenueShareMaxBps)
    (fun _ hborn => ?_) (fun passage ih => ?_) run ha
  · cases hborn
    assumption
  · rw [passage.step.share_kept]
    exact ih

/-- Nobody is due more than half of the pool, so the shares and what a sweep has taken
beyond them fit the pool. -/
theorem Account.claimed_le_pool {claimed : Address → Int} (phase : a.Phase) (books : a.Books)
    (hshare : a.record.revenueSharePercentage ≤ revenueShareMaxBps) (hpool : 0 ≤ a.funds.pool)
    (hfinite : Balances.Finite claimed)
    (h : Entitlements.overdrawn claimed (a.due a.funds.pool) ≤ a.contributorSide a.funds.pool) :
    total claimed ≤ a.funds.pool := by
  have hle := total_le_overdrawn hfinite (books.due_finite a.funds.pool)
  have hparts := total_part_mul_le books.contribution_finite books.contribution_nonneg
    (Int.mul_nonneg hpool (Int.natCast_nonneg a.record.revenueSharePercentage)) (d := 10000)
    (by decide)
  rw [books.live, ← Account.due_eq] at hparts
  have hhalf : a.funds.pool * a.record.revenueSharePercentage ≤
      a.funds.pool * (10000 - a.record.revenueSharePercentage) := by
    refine Int.mul_le_mul_of_nonneg_left ?_ hpool
    have hmax : revenueShareMaxBps = 5000 := rfl
    omega
  have hdue : total (a.due a.funds.pool) ≤ a.creatorSide a.funds.pool := by
    rw [Account.creatorSide_eq phase hpool]
    exact (Int.le_ediv_iff_mul_le (by decide)).mpr (Int.le_trans hparts hhalf)
  rw [Account.contributorSide] at h
  omega

end ProofOfHeart
