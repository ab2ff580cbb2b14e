import ProofOfHeart.Laws.Configuration
import ProofOfHeart.Laws.Magnitudes
import ProofOfHeart.Laws.Overflow

/-! # The arithmetic of settlements

In every state that can be reached the amounts are small enough for most of what a
settlement computes. What may not fit is listed by `SettlementFits`; a settlement that meets its
checks overflows exactly when one of these values does, and it never traps.
-/

namespace ProofOfHeart

open Checked Function Trace Balances

variable {host : Host} {tr : List Receipt} {cfg : Config} {env : Env} {s : State} {c : Nat}
  {a : Account} {call : Call} {who : Address} {amount : Int} {bps : Nat}

/-! ## What always fits -/

/-- The fee of an amount that can be raised. -/
theorem fee_fits (hnonneg : 0 ≤ amount) (hle : amount ≤ raisedMax)
    (hbps : bps ≤ platformFeeMaxBps) : I128.InRange (amount * bps + bpsCeilOffset) := by
  have hproduct : amount * bps ≤ raisedMax * platformFeeMaxBps :=
    Int.mul_le_mul hle (Int.ofNat_le.mpr hbps) (Int.natCast_nonneg _) (by decide)
  have hpos : 0 ≤ amount * bps := Int.mul_nonneg hnonneg (Int.natCast_nonneg _)
  have hoffset : (0 : Int) ≤ bpsCeilOffset := by decide
  have hmax : raisedMax * platformFeeMaxBps + bpsCeilOffset ≤ I128.maxValue := by decide
  exact (I128.InRange.of_nonneg (by omega)).mpr (by omega)

/-- Nothing that multiplies the fee gets too large. -/
theorem fee_small (hnonneg : 0 ≤ amount) (hle : amount ≤ raisedMax)
    (hbps : bps ≤ platformFeeMaxBps) : ceilBps amount bps * bpsDenominator ≤ I128.maxValue := by
  have hfits := fee_fits hnonneg hle hbps
  have hpos : 0 ≤ amount * bps + bpsCeilOffset :=
    Int.add_nonneg (Int.mul_nonneg hnonneg (Int.natCast_nonneg _)) (by decide)
  rw [ceilBps, Int.tdiv_eq_ediv_of_nonneg hpos]
  exact Int.le_trans (Int.ediv_mul_le _ (by decide)) hfits.2

theorem raised_inRange (hnonneg : 0 ≤ amount) (hle : amount ≤ raisedMax) : I128.InRange amount :=
  (I128.InRange.of_nonneg hnonneg).mpr (Int.le_trans hle (by decide))

theorem VestingRange.fits {delayDays reserveBps : Nat} (h : VestingRange delayDays reserveBps) :
    delayDays * secondsPerDay < 2 ^ 64 := by
  have hdelay := h.delay
  have hseconds : secondsPerDay = 86400 := rfl
  rw [hseconds]
  omega

theorem run_vesting (run : Run (machine host) tr cfg)
    (ha : (view cfg.state).account c = some a) :
    VestingRange ((view cfg.state).vesting a).1 ((view cfg.state).vesting a).2 := by
  have hfunds := (View.account_eq_some.mp ha).2
  cases hvesting : a.funds.vesting with
  | none =>
      rw [View.vesting, hvesting]
      exact (run_adminRanged run).vesting
  | some terms =>
      rw [View.vesting, hvesting]
      rw [← hfunds] at hvesting
      exact run_snapshots run hvesting

theorem run_payout (run : Run (machine host) tr cfg)
    (ha : (view cfg.state).account c = some a) : (view cfg.state).Payout a := by
  have books := (run_books run ha).1
  have hfee : (view cfg.state).effectiveFee a.record ≤ platformFeeMaxBps :=
    View.effectiveFee_le (run_sane run).toConfigured (run_phase run ha)
  have hle := Int.le_trans books.effective_le ((run_bounded run).account c a ha).raised
  have vesting := run_vesting run ha
  exact ⟨⟨books.effective_nonneg, raised_inRange books.effective_nonneg hle⟩, hfee,
    fee_fits books.effective_nonneg hle hfee, vesting.reserve, vesting.fits⟩

/-- A contributor who has not claimed leaves room in the counter. -/
theorem Account.claimants_lt (books : a.Books) (claimers : a.Claimers)
    (hwho : 0 < a.funds.contribution who) (hfirst : a.funds.revenueClaimed who = 0) :
    a.funds.claimants < a.funds.contributors := by
  have hsub : holders a.funds.revenueClaimed ⊆ holders a.funds.contribution :=
    fun other hpos => claimers.contributed other hpos
  rw [claimers.count, books.count]
  refine Set.ncard_lt_ncard ⟨hsub, fun hsup => ?_⟩ books.contribution_finite.holders
  have hclaimed : 0 < a.funds.revenueClaimed who := hsup hwho
  omega

/-- What is claimed of a pool before and after a claim fits the pool. -/
theorem run_claimable (run : Run (machine host) tr cfg)
    (ha : (view cfg.state).account c = some a) (contributed : a.funds.contribution who ≠ 0)
    (undrawn : a.funds.revenueClaimed who < a.due a.funds.pool who) : a.Claimable who := by
  have phase := run_phase run ha
  have books := (run_books run ha).1
  have bounded := (run_bounded run).account c a ha
  have revenue := run_revenueBooks run ha
  have claimers := run_claimers run ha
  have hshare := run_share_le run ha
  have hpool := revenue.poolNonneg
  have hwho : 0 < a.funds.contribution who := books.contribution_pos contributed
  have hside := Account.contributorSide_nonneg phase hpool
  have hsideLe : a.contributorSide a.funds.pool ≤ a.funds.pool :=
    Int.sub_le_self _ (Shares.floor_nonneg (d := 10000) (by decide) hpool phase.share_le)
  have hdue : a.due a.funds.pool who ≤ a.funds.pool := by
    have htotal := Account.total_due_le phase books hpool
    have hone := le_total (books.due_finite a.funds.pool)
      (fun other => Account.due_nonneg books hpool other) who
    omega
  have hclaimed := claimers.nonneg who
  have hpays : a.due a.funds.pool who - a.funds.revenueClaimed who ≤ a.claimable who :=
    Account.undrawn_le_claimable
  -- after the claim the amounts claimed still fit the pool
  have moderate := (run_moderate run ha).claim phase books revenue claimers hwho undrawn
  have hfinite : Balances.Finite (a.claim who).funds.revenueClaimed := revenue.finite.update
  have hall : total (a.claim who).funds.revenueClaimed ≤ a.funds.pool :=
    Account.claimed_le_pool phase books hshare hpool hfinite moderate.overdrawn
  have htotal : total (a.claim who).funds.revenueClaimed =
      a.funds.distributed + a.claimable who := by
    rw [Account.claim, total_update revenue.finite, revenue.distributed]
    omega
  have hown : a.funds.revenueClaimed who ≤ a.funds.distributed := by
    rw [revenue.distributed]
    exact le_total revenue.finite claimers.nonneg who
  have hdistributed : 0 ≤ a.funds.distributed := by
    rw [revenue.distributed]
    exact total_nonneg claimers.nonneg
  have hin : I128.InRange a.funds.pool := (I128.InRange.of_nonneg hpool).mpr bounded.pool
  refine ⟨books.contribution_nonneg who, ?_, hpool, phase.shareBound, fun hfirst => ?_,
    hin.of_le (by omega) (by omega), ⟨hin.of_le hside hsideLe, ?_⟩,
    hin.of_le (by omega) (by omega), hin.of_le (by omega) (by omega)⟩
  · exact Int.lt_of_lt_of_le hwho (books.contribution_le_effective who)
  · have hroom := Account.claimants_lt books claimers hwho hfirst
    have hcount := bounded.contributors
    omega
  · have hmin : I128.minValue ≤ -I128.maxValue := by decide
    have hmax := bounded.pool
    exact ⟨by omega, by omega⟩

/-- What the computation of a claim rests on: a plan that stands, an amount that can be
raised and a fee that can be charged. -/
structure View.Slicing (v : View) (a : Account) : Prop where
  shape : PlanShape a.funds.milestones
  raised_nonneg : 0 ≤ a.record.amountRaised
  raised_le : a.record.amountRaised ≤ raisedMax
  fee_le : v.effectiveFee a.record ≤ platformFeeMaxBps

theorem run_slicing (run : Run (machine host) tr cfg)
    (ha : (view cfg.state).account c = some a) (hplan : a.funds.milestones ≠ []) :
    (view cfg.state).Slicing a where
  shape := by
    rcases run_planned run ha with ⟨hnone, -⟩ | ⟨-, shape⟩
    · exact absurd hnone hplan
    · exact shape
  raised_nonneg := (run_books run ha).1.raised_nonneg
  raised_le := ((run_bounded run).account c a ha).raised
  fee_le := View.effectiveFee_le (run_sane run).toConfigured (run_phase run ha)

section Slicing

variable {milestone : Milestone}

/-- The parts of a claim fit together what was raised. -/
theorem View.Slicing.pay_inRange {v : View} (slicing : v.Slicing a)
    (mem : milestone ∈ a.funds.milestones) (unclaimed : a.funds.claimed milestone.id = false)
    (pos : 0 < (v.milestonePay a milestone).creator) :
    I128.InRange ((v.milestonePay a milestone).fee + (v.milestonePay a milestone).creator) := by
  obtain ⟨shape, hraised, hle, hfee⟩ := slicing
  have hsliced : 0 ≤ sliced a.record.amountRaised (v.effectiveFee a.record)
      a.funds.milestones a.funds.claimed := sliced_nonneg hraised hfee
  have hrest : sliced a.record.amountRaised (v.effectiveFee a.record)
      a.funds.milestones (update a.funds.claimed milestone.id true) ≤ a.record.amountRaised :=
    sliced_le shape hraised hfee
  obtain ⟨hplatform, hsum⟩ := payMilestone_sum shape mem unclaimed hraised hfee
  have hin := raised_inRange hraised hle
  rw [View.milestonePay] at pos ⊢
  refine hin.of_le (by omega) ?_
  split at hsum
  next hlast => omega
  next hmore => omega

/-- A claim that meets its checks and pays the creator something. -/
theorem View.Slicing.gated (slicing : (view s).Slicing a) (ha : (view s).account c = some a)
    (checks : MilestoneDue env s a milestone)
    (pos : 0 < ((view s).milestonePay a milestone).creator) :
    Gated (FitsMilestone (view s) a milestone) (.err .overflow) (fun abort => abort.InPayment ∧
        ¬ (view s).Affords c a.record.creator [(view s).milestonePay a milestone])
      (claimMilestone env s c milestone.id) :=
  have hraised := slicing.raised_nonneg
  have hle := slicing.raised_le
  have hfee := slicing.fee_le
  claimMilestone_gated ha checks slicing.shape hraised (raised_inRange hraised hle) hfee
    (fee_fits hraised hle hfee) (fee_small hraised hle hfee) pos
    (slicing.pay_inRange checks.mem checks.unclaimed pos)

end Slicing

/-! ## Settlements -/

/-- A settlement that meets its checks on authorisation, pause, state, time and what
there is to pay. -/
inductive Admissible (env : Env) (s : State) : Call → Prop
  | withdrawFunds {c : Nat} {a : Account} (ha : (view s).account c = some a)
      (checks : CreatorWithdraws env s a) : Admissible env s (.withdrawFunds c)
  | withdrawReserve {c : Nat} {a : Account} {reserve : CampaignReserve}
      (ha : (view s).account c = some a) (checks : ReserveDue env s a reserve) :
      Admissible env s (.withdrawReserve c)
  | claimRefund {c : Nat} {a : Account} {who : Address} (ha : (view s).account c = some a)
      (checks : RefundDue env s a who) : Admissible env s (.claimRefund c who)
  | claimMilestone {c : Nat} {a : Account} {milestone : Milestone}
      (ha : (view s).account c = some a) (checks : MilestoneDue env s a milestone)
      (pos : 0 < ((view s).milestonePay a milestone).creator) :
      Admissible env s (.claimMilestone c milestone.id)
  | claimRevenue {c : Nat} {a : Account} {who : Address} (ha : (view s).account c = some a)
      (checks : ContributorClaims env s a who)
      (undrawn : a.funds.revenueClaimed who < a.due a.funds.pool who) :
      Admissible env s (.claimRevenue c who)
  | claimCreatorRevenue {c : Nat} {a : Account} (ha : (view s).account c = some a)
      (checks : CreatorClaims env s a.record)
      (undrawn : a.funds.creatorClaimed < a.creatorSide a.funds.pool) :
      Admissible env s (.claimCreatorRevenue c)

/-- The values a settlement computes that may be too large or too small. -/
def SettlementFits (env : Env) (v : View) : Call → Prop
  | .withdrawFunds c => ∀ a, v.account c = some a → FitsPayout env.timestamp v a
  | .withdrawReserve c => ∀ a, v.account c = some a → ∀ reserve, a.funds.reserve = some reserve →
      I128.InRange (v.totalRaised - reserve.amount)
  | .claimRefund c who => ∀ a, v.account c = some a → a.record.isCancelled = false →
      I128.InRange (v.totalRaised - a.funds.contribution who)
  | .claimMilestone c milestoneId => ∀ a, v.account c = some a → ∀ milestone ∈ a.funds.milestones,
      milestone.id = milestoneId → FitsMilestone v a milestone
  | .claimRevenue c who => ∀ a, v.account c = some a →
      FitsShare (a.funds.contribution who) a.funds.pool a.record.revenueSharePercentage ∧
        (a.LastClaim who → FitsCreator a.funds.pool a.record.revenueSharePercentage)
  | .claimCreatorRevenue c => ∀ a, v.account c = some a →
      FitsCreator a.funds.pool a.record.revenueSharePercentage
  | _ => True

theorem forall_account {v : View} {p : Account → Prop} (ha : v.account c = some a) :
    (∀ b, v.account c = some b → p b) ↔ p a :=
  ⟨fun h => h a ha, fun h _ hb => Option.some.inj (ha.symm.trans hb) ▸ h⟩

/-- In a run a refund that is due depends on the counter and on the payment. -/
theorem run_refund_gated (run : Run (machine host) tr cfg)
    (ha : (view cfg.state).account c = some a) (checks : RefundDue env cfg.state a who) :
    Gated (a.record.isCancelled = false →
        I128.InRange ((view cfg.state).totalRaised - a.funds.contribution who))
      (.err .overflow) ((view cfg.state).Unpaid c (a.funds.contribution who))
      (claimRefund env cfg.state.clearMoved c who) := by
  have books := (run_books run ha).1
  have hin := raised_inRange books.effective_nonneg (Int.le_trans books.effective_le
    ((run_bounded run).account _ _ ha).raised)
  exact claimRefund_gated (s := cfg.state.clearMoved) ha
    ⟨checks.signed, checks.unpaused, checks.refundable, checks.contributed⟩
    (books.contribution_nonneg who) (hin.of_le
      (Int.sub_nonneg_of_le (books.contribution_le_effective _))
      (Int.sub_le_self _ (books.contribution_nonneg _)))

/-- Without what may not fit, only the payment of a settlement can fail. -/
theorem settlement_gated (run : Run (machine host) tr cfg) (typed : call.WellTyped)
    (admissible : Admissible env cfg.state call) :
    Gated (SettlementFits env (view cfg.state) call) (.err .overflow) Abort.InPayment
      (invoke env cfg.state call) := by
  rw [invoke_eq typed]
  cases admissible with
  | withdrawFunds ha checks =>
      have payout := run_payout run ha
      exact Gated.congr (withdrawFunds_gated (s := cfg.state.clearMoved) ha
        ⟨checks.signed, checks.unpaused, checks.noPlan, checks.payable⟩
        ⟨payout.raised, payout.feeBps, payout.fee, payout.reserveBps, payout.delay⟩)
        (forall_account ha)
  | withdrawReserve ha checks =>
      refine Gated.congr (withdrawReserve_gated (s := cfg.state.clearMoved) ha
        ⟨checks.signed, checks.unpaused, checks.held, checks.unreleased, checks.due,
          checks.withdrawn⟩) ((forall_account ha).trans ⟨fun h => h _ checks.held, ?_⟩)
      intro hfits other hother
      rwa [Option.some.inj (hother.symm.trans checks.held)]
  | claimRefund ha checks =>
      have gated := run_refund_gated run ha checks
      exact Gated.congr (gated.mono fun _ => View.Unpaid.inPayment) (forall_account ha)
  | claimMilestone ha checks pos =>
      obtain ⟨shape, hraised, hle, hfee⟩ := run_slicing run ha (List.ne_nil_of_mem checks.mem)
      have slicing : (view cfg.state.clearMoved).Slicing _ := ⟨shape, hraised, hle, hfee⟩
      have gated := slicing.gated ha ⟨checks.signed, checks.unpaused, checks.payable, checks.mem,
        checks.verified, checks.unclaimed⟩ pos
      refine Gated.congr (gated.mono fun _ => And.left)
        ((forall_account ha).trans ⟨fun h => h _ checks.mem rfl, ?_⟩)
      intro hfits other hother hid
      rwa [List.inj_on_of_nodup_map shape.distinct hother checks.mem hid]
  | claimRevenue ha checks undrawn =>
      have gated := claimRevenue_gated (s := cfg.state.clearMoved) ha
        ⟨checks.signed, checks.unpaused, checks.shares, checks.contributed⟩
        (run_claimable run ha checks.contributed undrawn) undrawn
      exact Gated.congr (gated.mono fun _ => View.Unpaid.inPayment) (forall_account ha)
  | claimCreatorRevenue ha checks undrawn =>
      have revenue := run_revenueBooks run ha
      exact Gated.congr (claimCreatorRevenue_gated (s := cfg.state.clearMoved) ha
        ⟨checks.signed, checks.unpaused, checks.sharing⟩ revenue.poolNonneg
        (run_phase run ha).shareBound (run_creatorPaid run ha).nonneg undrawn) (forall_account ha)

/-! ## The law -/

/-- A settlement that meets its checks never traps on arithmetic, and it reports an
overflow exactly when one of the values it computes does not fit. -/
theorem settlements_overflow_iff (run : Run (machine host) tr cfg) (typed : call.WellTyped)
    (admissible : Admissible env cfg.state call) :
    invoke env cfg.state call ≠ .error (.trap .arithmetic) ∧
      (invoke env cfg.state call = .error (.err .overflow) ↔
        ¬ SettlementFits env (view cfg.state) call) := by
  have gated := settlement_gated run typed admissible
  refine ⟨gated.ne_error (fun heq => ?_) (fun h => ?_), gated.eq_error_iff fun h => ?_⟩
  · cases heq
  · cases h
  · cases h

theorem settlements_sample :
    ∃ tr cfg, Run (machine Sample.host) tr cfg ∧
      invoke (Sample.env 4 Sample.alice) cfg.state (.claimRevenue 1 Sample.alice) ≠
        .error (.trap .arithmetic) ∧
      invoke (Sample.env 4 Sample.alice) cfg.state (.claimRevenue 1 Sample.alice) ≠
        .error (.err .overflow) := by
  have h : Sample.Ends 0 Sample.funded fun _ cfg => cfg.state.admin.paused = false ∧
      cfg.state.admin.autoPaused = false ∧ ∃ a ∈ (view cfg.state).account 1,
        a.record.isCancelled = false ∧ a.record.hasRevenueSharing = true ∧
        a.record.fundsWithdrawn = true ∧ a.funds.contribution Sample.alice ≠ 0 ∧
        a.funds.revenueClaimed Sample.alice < a.due a.funds.pool Sample.alice ∧
        FitsShare (a.funds.contribution Sample.alice) a.funds.pool
          a.record.revenueSharePercentage ∧
        FitsCreator a.funds.pool a.record.revenueSharePercentage := by
    decide +kernel
  obtain ⟨tr, cfg, run, hpaused, hauto, a, ha, notCancelled, sharing, withdrawn, contributed,
    undrawn, hshare, hcreator⟩ := h.run
  have admissible : Admissible (Sample.env 4 Sample.alice) cfg.state
      (.claimRevenue 1 Sample.alice) :=
    .claimRevenue ha ⟨by decide, ⟨hpaused, hauto⟩, ⟨notCancelled, sharing, withdrawn⟩,
      contributed⟩ undrawn
  obtain ⟨htrap, hoverflow⟩ := settlements_overflow_iff run (by decide) admissible
  exact ⟨tr, cfg, run, htrap, fun h =>
    hoverflow.mp h ((forall_account ha).mpr ⟨hshare, fun _ => hcreator⟩)⟩

/-- Everybody but the contract holds a fortune. -/
def Sample.fortunes : Tokens :=
  ⟨fun _ holder => if holder = contractAddress then 0 else 10 ^ 36, []⟩

/-- The creator deposits more than can be multiplied by a contribution. -/
def Sample.flooded : List Request :=
  opened 5000 ++
    [ask 1 alice (.contribute 1 alice 100000), ask 2 creator (.withdrawFunds 1),
      ask 3 creator (.depositRevenue 1 (10 ^ 36))]

/-- After a deposit neither the contributor nor the creator can draw what is due. -/
theorem settlements_blocked :
    ∃ tr cfg, Run (machine Sample.host) tr cfg ∧
      (∃ r ∈ tr, r.call = .depositRevenue 1 (10 ^ 36)) ∧
      Admissible (Sample.env 4 Sample.alice) cfg.state (.claimRevenue 1 Sample.alice) ∧
      invoke (Sample.env 4 Sample.alice) cfg.state (.claimRevenue 1 Sample.alice) =
        .error (.err .overflow) ∧
      Admissible (Sample.env 4 Sample.creator) cfg.state (.claimCreatorRevenue 1) ∧
      invoke (Sample.env 4 Sample.creator) cfg.state (.claimCreatorRevenue 1) =
        .error (.err .overflow) := by
  have h : (deploy Sample.host [Sample.token] Sample.fortunes (Sample.ledger 0) Sample.admin
      Sample.token 0 Sample.flooded).any (fun ends => decide (
        (∃ r ∈ ends.1, r.call = .depositRevenue 1 (10 ^ 36)) ∧
        ends.2.state.admin.paused = false ∧ ends.2.state.admin.autoPaused = false ∧
        ∃ a ∈ (view ends.2.state).account 1, a.record.creator = Sample.creator ∧
          a.record.isCancelled = false ∧ a.record.hasRevenueSharing = true ∧
          a.record.fundsWithdrawn = true ∧ a.funds.contribution Sample.alice ≠ 0 ∧
          a.funds.revenueClaimed Sample.alice < a.due a.funds.pool Sample.alice ∧
          a.funds.creatorClaimed < a.creatorSide a.funds.pool ∧
          ¬ FitsShare (a.funds.contribution Sample.alice) a.funds.pool
            a.record.revenueSharePercentage ∧
          ¬ FitsCreator a.funds.pool a.record.revenueSharePercentage)) = true := by
    decide +kernel
  obtain ⟨⟨tr, cfg⟩, hends, hP⟩ := (Option.any_eq_true _ _).mp h
  obtain ⟨hdeposit, hpaused, hauto, a, ha, hcreator, notCancelled, sharing, withdrawn, contributed,
    undrawn, creatorUndrawn, hshare, hside⟩ := of_decide_eq_true hP
  have run := deploy_run hends
  have contributor : Admissible (Sample.env 4 Sample.alice) cfg.state
      (.claimRevenue 1 Sample.alice) :=
    .claimRevenue ha ⟨by decide, ⟨hpaused, hauto⟩, ⟨notCancelled, sharing, withdrawn⟩,
      contributed⟩ undrawn
  have creator : Admissible (Sample.env 4 Sample.creator) cfg.state (.claimCreatorRevenue 1) :=
    .claimCreatorRevenue ha ⟨by rw [hcreator]; decide, ⟨hpaused, hauto⟩, sharing⟩ creatorUndrawn
  refine ⟨tr, cfg, run, hdeposit, contributor, (settlement_gated run (by decide) contributor).fails
    fun hfits => ?_, creator, (settlement_gated run (by decide) creator).fails fun hfits => ?_⟩
  · exact hshare ((forall_account ha).mp hfits).1
  · exact hside ((forall_account ha).mp hfits)

end ProofOfHeart
