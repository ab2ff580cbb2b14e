import ProofOfHeart.Laws.ContributionLedger
import ProofOfHeart.Lib.Entitlements

/-! # Solvency of revenue sharing

Revenue flows only after the payout, when the contributions no longer change. Each
contributor is due a part of the pool in proportion; the last to claim for the first
time takes all that is left. The contributors' side stays solvent as long as that
sweep takes nothing that another contributor can still claim, now or after a later
deposit.
-/

namespace ProofOfHeart

open Checked Function Trace Balances

variable {host : Host} {tr : List Receipt} {cfg : Config} {c : Nat} {a a' : Account}
  {env : Env} {v : View} {act : Act} {moves : List Transfer} {delta : Int}

/-! ## What is due -/

theorem Account.due_eq (pool : Int) : a.due pool = Entitlements.part a.funds.contribution
    a.record.effectiveAmountRaised (pool * a.record.revenueSharePercentage) 10000 := by
  funext who
  rw [Account.due, Entitlements.part, Int.mul_assoc]
  rfl

theorem Account.Books.due_finite (books : a.Books) (pool : Int) :
    Balances.Finite (a.due pool) := by
  rw [Account.due_eq]
  exact Entitlements.part_finite books.contribution_finite _

theorem Account.due_zero (who : Address) : a.due 0 who = 0 := by
  rw [Account.due_eq, Int.zero_mul, Entitlements.part_zero]

theorem Account.creatorSide_zero : a.creatorSide 0 = 0 := by
  rw [Account.creatorSide, Int.zero_mul, Int.zero_tdiv]

theorem Account.Phase.share_le (phase : a.Phase) :
    (0 : Int) ≤ 10000 - a.record.revenueSharePercentage := by
  have hbound := phase.shareBound
  have hmax : (bpsDenominator : Nat) = 10000 := rfl
  omega

theorem Account.creatorSide_eq {pool : Int} (phase : a.Phase) (hpool : 0 ≤ pool) :
    a.creatorSide pool = pool * (10000 - a.record.revenueSharePercentage) / 10000 :=
  Shares.floor_eq (d := 10000) hpool phase.share_le

theorem Account.creatorSide_mul_le {pool : Int} (phase : a.Phase) (hpool : 0 ≤ pool) :
    a.creatorSide pool * 10000 ≤ pool * (10000 - a.record.revenueSharePercentage) :=
  Shares.floor_mul_le (d := 10000) (by decide) hpool phase.share_le

theorem Account.creatorSide_mono {pool pool' : Int} (phase : a.Phase) (hpool : 0 ≤ pool)
    (hle : pool ≤ pool') : a.creatorSide pool ≤ a.creatorSide pool' :=
  Shares.floor_mono (d := 10000) (by decide) hpool phase.share_le hle

/-- The shares of all contributors fit their side of the pool. -/
theorem Account.total_due_le {pool : Int} (phase : a.Phase) (books : a.Books) (hpool : 0 ≤ pool) :
    total (a.due pool) ≤ a.contributorSide pool := by
  have hparts := Entitlements.total_part_mul_le books.contribution_finite
    books.contribution_nonneg (Int.mul_nonneg hpool (Int.natCast_nonneg
      a.record.revenueSharePercentage)) (d := 10000) (by decide)
  rw [books.live, ← Account.due_eq] at hparts
  have hcreator := Account.creatorSide_mul_le phase hpool
  rw [Int.mul_sub] at hcreator
  rw [Account.contributorSide]
  omega

/-- What earlier sweeps have taken beyond the shares in a pool. -/
noncomputable def Account.overdrawn (a : Account) (pool : Int) : Int :=
  Entitlements.overdrawn a.funds.revenueClaimed (a.due pool)

/-- What rounding leaves of the contributors' side when all shares are paid. -/
noncomputable def Account.dust (a : Account) (pool : Int) : Int :=
  a.contributorSide pool - total (a.due pool)

/-! ## The two conditions -/

/-- A claim that takes more than its share as the last one finds every other
contributor's share of the present pool drawn. -/
def Receipt.SweepsDust (c : Nat) (r : Receipt) : Prop :=
  ∀ who a, r.call.act c = .claimRevenue who → (view r.pre).account c = some a →
    a.LastClaim who →
    a.due a.funds.pool who - a.funds.revenueClaimed who <
      a.contributorSide a.funds.pool - a.funds.distributed →
    ∀ other, other ≠ who → a.due a.funds.pool other ≤ a.funds.revenueClaimed other

/-- A deposit after somebody has drawn more than the share of the enlarged pool: the
excess is no more than the rounding of the enlarged pool leaves. -/
def Receipt.DepositsOverDust (c : Nat) (r : Receipt) : Prop :=
  ∀ amount a, r.call.act c = .deposit amount → (view r.pre).account c = some a →
    (∃ who, a.due (a.funds.pool + amount) who < a.funds.revenueClaimed who) →
    a.overdrawn (a.funds.pool + amount) ≤ a.dust (a.funds.pool + amount)

/-! ## The books of the pool -/

/-- The books of the revenue of campaign `c`. -/
structure RevenueBooks (c : Nat) (tr : List Receipt) (a : Account) : Prop where
  unpaid : a.record.fundsWithdrawn = false → a.funds.pool = 0 ∧
    (∀ who, a.funds.revenueClaimed who = 0) ∧ a.funds.creatorClaimed = 0
  poolNonneg : 0 ≤ a.funds.pool
  deposits : a.funds.pool = paidFor Act.isDeposit c tr
  finite : Balances.Finite a.funds.revenueClaimed
  distributed : a.funds.distributed = total a.funds.revenueClaimed
  paid : paidFor Act.isRevenueClaim c tr = a.funds.distributed + a.funds.creatorClaimed
  creator : a.funds.creatorClaimed ≤ a.creatorSide a.funds.pool

/-- Everything claimed and still claimable fits the contributors' side. -/
def Account.Solvent (a : Account) : Prop :=
  Entitlements.reserved a.funds.revenueClaimed (a.due a.funds.pool) ≤
    a.contributorSide a.funds.pool

theorem RevenueBooks.solvent_of_unpaid (revenue : RevenueBooks c tr a)
    (hopen : a.record.fundsWithdrawn = false) : a.Solvent := by
  obtain ⟨hpool, hclaimed, -⟩ := revenue.unpaid hopen
  rw [Account.Solvent, hpool, Entitlements.reserved_zero hclaimed Account.due_zero,
    Account.contributorSide, Account.creatorSide_zero]
  exact Int.le_refl 0

/-- Revenue is drawn only after the payout. -/
theorem RevenueBooks.withdrawn_of_undrawn (revenue : RevenueBooks c tr a)
    (h : a.funds.creatorClaimed < a.creatorSide a.funds.pool) :
    a.record.fundsWithdrawn = true := by
  by_contra hopen
  obtain ⟨hpool, -, hclaimed⟩ := revenue.unpaid (Bool.eq_false_of_not_eq_true hopen)
  rw [hpool, hclaimed, Account.creatorSide_zero] at h
  exact Int.lt_irrefl 0 h

theorem Passage.revenueBooks {r : Receipt}
    (passage : Passage host c tr cfg r act moves delta a a') (ih : RevenueBooks c tr a) :
    RevenueBooks c (r :: tr) a' := by
  have phase := passage.phase
  have hdeposits : paidFor Act.isDeposit c (r :: tr) = _ := passage.paidFor_cons
  have hpaid : paidFor Act.isRevenueClaim c (r :: tr) = _ := passage.paidFor_cons
  rw [← ih.deposits] at hdeposits
  rw [ih.paid] at hpaid
  -- most acts neither deposit nor draw revenue
  have noDeposit : act.isDeposit = false → a.funds.pool = paidFor Act.isDeposit c (r :: tr) := by
    intro hnot
    rw [hdeposits, Act.pays_of_not hnot, Int.zero_add]
  have noClaim : act.isRevenueClaim = false → paidFor Act.isRevenueClaim c (r :: tr) =
      a.funds.distributed + a.funds.creatorClaimed := by
    intro hnot
    rw [hpaid, Act.pays_of_not hnot, Int.zero_add]
  have hundrawn := ih.withdrawn_of_undrawn
  obtain ⟨unpaid, poolNonneg, deposits, finite, distributed, paid, creator⟩ := ih
  cases passage.step with
  | contributed nonempty pos accepts =>
      obtain ⟨_, _, _, _, heq⟩ := a.contributeAll_eq (view r.pre).admin.admin _ _
      rw [heq]
      exact ⟨unpaid, poolNonneg, noDeposit rfl, finite, distributed, noClaim rfl, creator⟩
  | @refunded _ who token refundable pos currency =>
      obtain ⟨-, hclaimed, -⟩ := unpaid (refundable.unpaid phase)
      have hsame : update a.funds.revenueClaimed who 0 = a.funds.revenueClaimed := by
        rw [← hclaimed who, update_eq_self]
      refine ⟨fun hopen => ?_, poolNonneg, noDeposit rfl, ?_, ?_, noClaim rfl, creator⟩
      · simp only [Account.refund, hsame]
        exact unpaid hopen
      · simp only [Account.refund, hsame]
        exact finite
      · simp only [Account.refund, hsame]
        exact distributed
  | cancelled live hopen =>
      have hpool : a.cancelByCreator.funds = a.funds := by
        obtain ⟨hzero, -⟩ := unpaid hopen
        have hkept : (if a.funds.pool > 0 then 0 else a.funds.pool) = a.funds.pool := by
          rw [hzero]
          rfl
        rw [Account.cancelByCreator, hkept]
      exact ⟨fun _ => hpool ▸ unpaid hopen, hpool ▸ poolNonneg, hpool ▸ noDeposit rfl,
        hpool ▸ finite, hpool ▸ distributed, hpool ▸ noClaim rfl, hpool ▸ creator⟩
  | @deposited _ token amount shares raised pos =>
      simp only [Act.pays, Act.isDeposit, if_true, List.map_cons, List.map_nil,
        List.sum_singleton] at hdeposits
      refine ⟨fun hopen => Bool.noConfusion (shares.withdrawn.symm.trans hopen), ?_, ?_, finite,
        distributed, noClaim rfl, ?_⟩
      · exact Int.add_nonneg poolNonneg (Int.le_of_lt pos)
      · rw [hdeposits]
        exact Int.add_comm _ _
      · exact Int.le_trans creator
          (Account.creatorSide_mono phase poolNonneg
            (Int.le_add_of_nonneg_right (Int.le_of_lt pos)))
  | @claimedRevenue _ token who shares contributed undrawn pos =>
      simp only [Act.pays, Act.isRevenueClaim, if_true, List.map_cons, List.map_nil,
        List.sum_singleton] at hpaid
      refine ⟨fun hopen => Bool.noConfusion (shares.withdrawn.symm.trans hopen), poolNonneg,
        noDeposit rfl, finite.update, ?_, ?_, creator⟩
      · simp only [Account.claim]
        rw [total_update finite, distributed]
        omega
      · simp only [Account.claim]
        omega
  | claimedCreatorRevenue undrawn =>
      have hwithdrawn := hundrawn undrawn
      simp only [Act.pays, Act.isRevenueClaim, if_true, List.map_cons, List.map_nil,
        List.sum_singleton] at hpaid
      refine ⟨fun hopen => Bool.noConfusion (hwithdrawn.symm.trans hopen), poolNonneg,
        noDeposit rfl, finite, distributed, ?_, Int.le_refl _⟩
      simp only [Account.claimCreator]
      omega
  | withdrew payable =>
      exact ⟨fun hopen => Bool.noConfusion hopen, poolNonneg, noDeposit rfl, finite, distributed,
        noClaim rfl, creator⟩
  | claimed payable =>
      refine ⟨fun _ => unpaid payable.notWithdrawn, poolNonneg, noDeposit rfl, finite,
        distributed, noClaim rfl, ?_⟩
      unfold Account.claimMilestone
      split <;> exact creator
  | _ => exact ⟨unpaid, poolNonneg, noDeposit rfl, finite, distributed, noClaim rfl, creator⟩

theorem Born.revenueBooks {call : Call} (hborn : Born env v call c a)
    (hacts : ∀ r ∈ tr, r.call.act c = .other) : RevenueBooks c tr a := by
  have hdeposits : paidFor Act.isDeposit c tr = 0 := paidFor_eq_zero rfl hacts
  have hpaid : paidFor Act.isRevenueClaim c tr = 0 := paidFor_eq_zero rfl hacts
  cases hborn
  refine ⟨fun _ => ⟨rfl, fun _ => rfl, rfl⟩, Int.le_refl 0, hdeposits.symm, finite_zero,
    total_zero.symm, hpaid, ?_⟩
  exact Int.le_of_eq Account.creatorSide_zero.symm

theorem run_revenueBooks (run : Run (machine host) tr cfg)
    (ha : (view cfg.state).account c = some a) : RevenueBooks c tr a :=
  account_invariant (I := fun tr _ a => RevenueBooks c tr a)
    (fun hacts hborn => hborn.revenueBooks hacts) (fun passage ih => passage.revenueBooks ih) run ha

theorem Passage.revenue {r : Receipt} (passage : Passage host c tr cfg r act moves delta a a') :
    RevenueBooks c tr a := run_revenueBooks passage.run (passage.pre ▸ passage.before)

/-! ## Solvency -/

/-- A claim keeps the contributors' side solvent, a sweep under its condition. -/
theorem Account.Solvent.claim {who : Address} (solvent : a.Solvent)
    (revenue : RevenueBooks c tr a) (undrawn : a.funds.revenueClaimed who < a.due a.funds.pool who)
    (hsweep : a.LastClaim who → a.due a.funds.pool who - a.funds.revenueClaimed who <
        a.contributorSide a.funds.pool - a.funds.distributed →
      ∀ other, other ≠ who → a.due a.funds.pool other ≤ a.funds.revenueClaimed other) :
    (a.claim who).Solvent := by
  change Entitlements.reserved (update a.funds.revenueClaimed who
    (a.funds.revenueClaimed who + a.claimable who)) (a.due a.funds.pool) ≤
      a.contributorSide a.funds.pool
  unfold Account.claimable
  dsimp only
  split
  next hlast =>
      obtain ⟨hlast, hmore⟩ := hlast
      rw [Entitlements.reserved_sweep (by omega) (hsweep hlast hmore),
        total_update revenue.finite, revenue.distributed]
      omega
  next hshare =>
      have hdue : a.funds.revenueClaimed who +
          (a.due a.funds.pool who - a.funds.revenueClaimed who) = a.due a.funds.pool who := by omega
      rw [hdue, Entitlements.reserved_claim (Int.le_of_lt undrawn)]
      exact solvent

/-- A deposit keeps the contributors' side solvent under its condition. -/
theorem Account.Solvent.deposit {amount : Int} (phase : a.Phase) (books : a.Books)
    (revenue : RevenueBooks c tr a) (pos : 0 < amount)
    (hdeposit : (∃ who, a.due (a.funds.pool + amount) who < a.funds.revenueClaimed who) →
      a.overdrawn (a.funds.pool + amount) ≤ a.dust (a.funds.pool + amount)) :
    (a.deposit amount).Solvent := by
  change Entitlements.reserved a.funds.revenueClaimed (a.due (a.funds.pool + amount)) ≤
    a.contributorSide (a.funds.pool + amount)
  by_cases hover : ∃ who, a.due (a.funds.pool + amount) who < a.funds.revenueClaimed who
  · have hdust := hdeposit hover
    rw [Entitlements.reserved_eq revenue.finite (books.due_finite _)]
    rw [Account.overdrawn, Account.dust] at hdust
    omega
  · have hwithin : ∀ who, a.funds.revenueClaimed who ≤ a.due (a.funds.pool + amount) who :=
      fun who => Int.not_lt.mp fun h => hover ⟨who, h⟩
    rw [Entitlements.reserved_of_le hwithin]
    exact Account.total_due_le phase books
      (Int.add_nonneg revenue.poolNonneg (Int.le_of_lt pos))

theorem Passage.solvent {r : Receipt} (passage : Passage host c tr cfg r act moves delta a a')
    (hsweep : r.SweepsDust c) (hdeposit : r.DepositsOverDust c) (ih : a.Solvent) :
    a'.Solvent := by
  have phase := passage.phase
  have books := passage.books
  have revenue := passage.revenue
  have revenue' := passage.revenueBooks revenue
  have hact := passage.hact
  have hbefore := passage.before
  have hunpaid := revenue'.solvent_of_unpaid
  cases passage.step with
  | contributed nonempty pos accepts =>
      refine hunpaid ?_
      rw [Account.contributeAll_record]
      exact phase.unpaid accepts.of_live
  | refunded refundable => exact hunpaid (refundable.unpaid phase)
  | cancelled live unpaid => exact hunpaid unpaid
  | deposited shares raised pos =>
      exact Account.Solvent.deposit phase books revenue pos (hdeposit _ a hact hbefore)
  | claimedRevenue shares contributed undrawn pos =>
      exact ih.claim revenue undrawn (hsweep _ a hact hbefore)
  | claimed payable =>
      unfold Account.claimMilestone
      split <;> exact ih
  | _ => exact ih

theorem run_solvent (run : Run (machine host) tr cfg)
    (hright : ∀ r ∈ tr, r.SweepsDust c ∧ r.DepositsOverDust c)
    (ha : (view cfg.state).account c = some a) : a.Solvent := by
  refine account_run (C := fun r => r.SweepsDust c ∧ r.DepositsOverDust c)
    (I := fun _ _ a => a.Solvent) ?_ (fun passage _ hr ih => passage.solvent hr.1 hr.2 ih) run
    hright ha
  intro tr r a hacts hborn
  exact (hborn.revenueBooks hacts).solvent_of_unpaid (by cases hborn; rfl)

/-- What has been distributed fits the contributors' side. -/
theorem Account.Solvent.distributed_le (solvent : a.Solvent) (revenue : RevenueBooks c tr a)
    (books : a.Books) : a.funds.distributed ≤ a.contributorSide a.funds.pool := by
  rw [revenue.distributed]
  exact Int.le_trans
    (Entitlements.total_le_reserved revenue.finite (books.due_finite a.funds.pool)) solvent

/-! ## Runs that meet the conditions -/

/-- The claim takes more than its share as the last one. -/
def Receipt.sweeps (c : Nat) (r : Receipt) : Bool :=
  match r.call.act c, (view r.pre).account c with
  | .claimRevenue who, some a =>
      decide (a.LastClaim who ∧ a.due a.funds.pool who - a.funds.revenueClaimed who <
        a.contributorSide a.funds.pool - a.funds.distributed)
  | _, _ => false

theorem Receipt.SweepsDust.of_not_sweeps {r : Receipt} (h : r.sweeps c = false) :
    r.SweepsDust c := by
  intro who a hact ha hlast hmore
  simp [Receipt.sweeps, hact, ha, hlast, hmore] at h

/-- Before the first claim nobody has drawn anything. -/
theorem run_undrawn (run : Run (machine host) tr cfg)
    (hnone : ∀ r ∈ tr, (r.call.act c).isRevenueClaim = false)
    (ha : (view cfg.state).account c = some a) (who : Address) :
    a.funds.revenueClaimed who = 0 := by
  refine account_run (C := fun r => (r.call.act c).isRevenueClaim = false)
    (I := fun _ _ a => a.funds.revenueClaimed who = 0) ?_ ?_ run hnone ha
  · intro tr r a hacts hborn
    cases hborn
    rfl
  · intro tr cfg r act moves delta a a' passage _ hr ih
    rw [passage.hact] at hr
    cases passage.step with
    | contributed nonempty pos accepts =>
        obtain ⟨_, _, _, _, heq⟩ := a.contributeAll_eq (view r.pre).admin.admin _ _
        rw [heq]
        exact ih
    | @refunded _ other =>
        by_cases hwho : who = other
        · simp [Account.refund, hwho]
        · simpa [Account.refund, hwho] using ih
    | claimedRevenue => cases hr
    | claimedCreatorRevenue => cases hr
    | _ => exact ih

def DepositsFirst (c : Nat) (tr : List Receipt) : Prop :=
  tr.Pairwise fun later earlier => (earlier.call.act c).isRevenueClaim = true →
    (later.call.act c).isDeposit = false

instance (tr : List Receipt) : Decidable (DepositsFirst c tr) :=
  inferInstanceAs (Decidable (List.Pairwise _ _))

theorem Passage.depositsOverDust {r : Receipt}
    (passage : Passage host c tr cfg r act moves delta a a') (hfirst : DepositsFirst c (r :: tr)) :
    r.DepositsOverDust c := by
  intro amount b hact hb
  rintro ⟨who, hover⟩
  obtain rfl : a = b := Option.some.inj (passage.before.symm.trans hb)
  have hnone : ∀ e ∈ tr, (e.call.act c).isRevenueClaim = false := by
    refine fun e he => Bool.eq_false_of_not_eq_true fun hclaim => ?_
    have hdeposit := (List.pairwise_cons.mp hfirst).1 e he hclaim
    rw [hact] at hdeposit
    cases hdeposit
  have hundrawn := run_undrawn passage.run hnone (passage.pre ▸ passage.before) who
  have hdeposited := passage.step
  rw [← passage.hact, hact] at hdeposited
  cases hdeposited with
  | deposited shares raised pos =>
      have hpool := Int.add_nonneg passage.revenue.poolNonneg (Int.le_of_lt pos)
      have hdue : 0 ≤ a.due (a.funds.pool + amount) who := by
        rw [Account.due_eq]
        exact Entitlements.part_nonneg passage.books.contribution_nonneg
          (Int.mul_nonneg hpool (Int.natCast_nonneg _)) (by decide)
          passage.books.effective_nonneg who
      omega

/-- Deposits that all come before the first claim leave nobody overdrawn. -/
theorem run_depositsFirst (run : Run (machine host) tr cfg) (hfirst : DepositsFirst c tr) :
    ∀ r ∈ tr, r.DepositsOverDust c := by
  have absent : ∀ {tr : List Receipt}, (∀ r ∈ tr, r.call.act c = .other) →
      ∀ r ∈ tr, r.DepositsOverDust c := by
    intro tr hacts r hr amount a hact
    rw [hacts r hr] at hact
    cases hact
  cases hc : (view cfg.state).account c with
  | none => exact absent (run_absent run hc)
  | some a =>
      refine account_invariant (c := c) (I := fun tr _ _ => DepositsFirst c tr →
        ∀ r ∈ tr, r.DepositsOverDust c) (fun hacts _ _ => absent hacts) ?_ run hc hfirst
      intro tr cfg r act moves delta a a' passage ih hfirst
      exact List.forall_mem_cons.mpr
        ⟨passage.depositsOverDust hfirst, ih (List.pairwise_cons.mp hfirst).2⟩

/-- The two sides of the pool are never exceeded and no more revenue is paid out than
was deposited, while sweeps take only dust and later deposits cover what they took. -/
theorem revenueSharing_solvent (run : Run (machine host) tr cfg)
    (hsweep : ∀ r ∈ tr, r.SweepsDust c) (hdeposit : ∀ r ∈ tr, r.DepositsOverDust c)
    {campaign : Campaign} (hcampaign : cfg.state.campaigns.campaign c = some campaign) :
    let pool := cfg.state.revenue.revenuePool c
    let creatorSide := pool * (10000 - campaign.revenueSharePercentage) / 10000
    pool = paidFor Act.isDeposit c tr ∧
      cfg.state.revenue.contributorRevenueDistributed c ≤ pool - creatorSide ∧
      cfg.state.revenue.creatorRevenueClaimed c ≤ creatorSide ∧
      paidFor Act.isRevenueClaim c tr ≤ paidFor Act.isDeposit c tr := by
  intro pool creatorSide
  have ha := View.account_of_campaign (v := view cfg.state) hcampaign
  have revenue := run_revenueBooks run ha
  have hside : _ = creatorSide := Account.creatorSide_eq (run_phase run ha) revenue.poolNonneg
  have hcreator : cfg.state.revenue.creatorRevenueClaimed c ≤ creatorSide :=
    Int.le_trans revenue.creator (Int.le_of_eq hside)
  have solvent := run_solvent run (fun r hr => ⟨hsweep r hr, hdeposit r hr⟩) ha
  have hdistributed : cfg.state.revenue.contributorRevenueDistributed c ≤ pool - creatorSide :=
    Int.le_trans (solvent.distributed_le revenue (run_books run ha).1)
      (Int.le_of_eq (congrArg (pool - ·) hside))
  have hpaid : paidFor Act.isRevenueClaim c tr =
    cfg.state.revenue.contributorRevenueDistributed c +
      cfg.state.revenue.creatorRevenueClaimed c := revenue.paid
  have hdeposits : pool = paidFor Act.isDeposit c tr := revenue.deposits
  exact ⟨hdeposits, hdistributed, hcreator, by omega⟩

/-- Two equal contributors share half of the pool. -/
def Sample.funded : List Request :=
  opened 5000 ++
    [ask 1 alice (.contribute 1 alice 50000), ask 1 bob (.contribute 1 bob 50000),
      ask 2 creator (.withdrawFunds 1), ask 3 creator (.depositRevenue 1 1000)]

def Sample.drawn : List Request :=
  funded ++ [ask 4 alice (.claimRevenue 1 alice), ask 4 creator (.claimCreatorRevenue 1),
    ask 5 bob (.claimRevenue 1 bob)]

theorem revenueSharing_sample :
    ∃ tr cfg, Run (machine Sample.host) tr cfg ∧
      cfg.state.revenue.contributorRevenueDistributed 1 = 500 ∧
      paidFor Act.isRevenueClaim 1 tr ≤ paidFor Act.isDeposit 1 tr := by
  have h : Sample.Ends 0 Sample.drawn fun tr cfg =>
      (cfg.state.campaigns.campaign 1).isSome ∧ (∀ r ∈ tr, r.sweeps 1 = false) ∧
        DepositsFirst 1 tr ∧ cfg.state.revenue.contributorRevenueDistributed 1 = 500 := by
    decide +kernel
  obtain ⟨tr, cfg, run, hcampaign, hsweeps, hfirst, hdistributed⟩ := h.run
  obtain ⟨campaign, hcampaign⟩ := Option.isSome_iff_exists.mp hcampaign
  exact ⟨tr, cfg, run, hdistributed, (revenueSharing_solvent run
    (fun r hr => .of_not_sweeps (hsweeps r hr)) (run_depositsFirst run hfirst) hcampaign).2.2.2⟩

/-- After the first has drawn from the first deposit, the second sweeps what is left of
two deposits, and the first draws again. -/
def Sample.swept : List Request :=
  funded ++ [ask 3 alice (.claimRevenue 1 alice), ask 4 creator (.depositRevenue 1 1000),
    ask 4 bob (.claimRevenue 1 bob), ask 4 alice (.claimRevenue 1 alice)]

theorem revenueSharing_overdrawn :
    ∃ tr cfg, Run (machine Sample.host) tr cfg ∧
      ∃ campaign, cfg.state.campaigns.campaign 1 = some campaign ∧
        campaign.revenueSharePercentage = 5000 ∧ cfg.state.revenue.revenuePool 1 = 2000 ∧
        cfg.state.revenue.contributorRevenueDistributed 1 = 1250 ∧
        ¬ cfg.state.revenue.contributorRevenueDistributed 1 ≤
          cfg.state.revenue.revenuePool 1 - cfg.state.revenue.revenuePool 1 *
            (10000 - campaign.revenueSharePercentage) / 10000 := by
  have h : Sample.Ends 0 Sample.swept fun tr cfg =>
      (cfg.state.campaigns.campaign 1).map Campaign.revenueSharePercentage = some 5000 ∧
        cfg.state.revenue.revenuePool 1 = 2000 ∧
        cfg.state.revenue.contributorRevenueDistributed 1 = 1250 := by
    decide +kernel
  obtain ⟨tr, cfg, run, hcampaign, hpool, hdistributed⟩ := h.run
  obtain ⟨campaign, hcampaign, hshare⟩ := Option.map_eq_some_iff.mp hcampaign
  refine ⟨tr, cfg, run, campaign, hcampaign, hshare, hpool, hdistributed, ?_⟩
  rw [hdistributed, hpool, hshare]
  decide

end ProofOfHeart
