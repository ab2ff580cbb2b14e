import ProofOfHeart.Laws.Milestones

/-! # Payout or refund, never both

A campaign is settled either by paying its creator or by refunding its contributors,
and what goes out on either way is covered by what came in. Two things can break
this: a cancellation by the admin after a milestone has been claimed, and milestone
claims under different fees.
-/

namespace ProofOfHeart

open Checked Function Trace

variable {host : Host} {tr : List Receipt} {cfg : Config} {c : Nat} {a a' : Account}
  {env : Env} {v : View} {act : Act} {moves : List Transfer} {delta : Int}

/-! ## Contributions and refunds in total -/

/-- The record counts what the history took in and what is left of it. -/
structure Tallied (c : Nat) (tr : List Receipt) (a : Account) : Prop where
  raised : contributedTo c tr = a.record.amountRaised
  refunded : paidFor Act.isRefund c tr = a.record.amountRaised - a.record.effectiveAmountRaised

theorem AccountStep.tallied {r : Receipt} (h : AccountStep env v c act moves delta a a')
    (hact : r.call.act c = act) (hmoves : r.post.tokens.moved = moves) (ih : Tallied c tr a) :
    Tallied c (r :: tr) a' := by
  have hraised : contributedTo c (r :: tr) = act.contributed + a.record.amountRaised := by
    rw [contributedTo_cons, hact, ih.raised]
  have hrefunded : paidFor Act.isRefund c (r :: tr) = act.pays Act.isRefund moves +
      (a.record.amountRaised - a.record.effectiveAmountRaised) := by
    rw [paidFor_cons, hact, hmoves, ih.refunded]
  cases h with
  | @contributed _ moves who amounts nonempty pos accepts =>
      refine ⟨hraised.trans ?_, hrefunded.trans ?_⟩
      · rw [Account.contributeAll_record, Act.contributed, Int.add_comm]
      · rw [Account.contributeAll_record, Act.pays_of_not rfl]
        dsimp only
        omega
  | refunded refundable pos currency =>
      refine ⟨hraised.trans (Int.zero_add _), hrefunded.trans ?_⟩
      simp only [Act.pays, Act.isRefund, if_true, Account.refund, List.map_cons, List.map_nil,
        List.sum_singleton]
      omega
  | claimed =>
      refine ⟨hraised.trans ?_, hrefunded.trans ?_⟩
      · rw [Account.claimMilestone_record]
        exact Int.zero_add _
      · rw [Act.pays_of_not rfl, Int.zero_add]
        rw [Account.claimMilestone_record]
  | _ => exact ⟨hraised.trans (Int.zero_add _), hrefunded.trans (Int.zero_add _)⟩

theorem run_tallied (run : Run (machine host) tr cfg)
    (ha : (view cfg.state).account c = some a) : Tallied c tr a := by
  refine account_invariant (I := fun tr _ a => Tallied c tr a) ?_
    (fun passage ih => passage.step.tallied passage.hact passage.hmoves ih) run ha
  intro tr r a hacts hborn
  cases hborn
  exact ⟨contributedTo_eq_zero hacts, paidFor_eq_zero rfl hacts⟩

/-! ## A paid campaign stays funded -/

/-- The admin cancels `c` only before any milestone of it has been claimed. -/
def Receipt.CancelsUnclaimed (c : Nat) (r : Receipt) : Prop :=
  r.call.act c = .adminCancel →
    ∀ milestoneId, r.pre.campaigns.milestoneClaimed c milestoneId = false

/-- After a payout the campaign is neither cancelled nor short of its goal, and a
milestone claim is remembered by its flag. -/
structure Funded (c : Nat) (tr : List Receipt) (a : Account) : Prop where
  kept : (∃ r ∈ tr, (r.call.act c).isPayout = true) →
    a.record.isCancelled = false ∧ a.record.fundingGoal ≤ a.record.amountRaised
  flagged : (∃ r ∈ tr, (r.call.act c).isPayout = true) →
    a.record.fundsWithdrawn = true ∨ ∃ milestoneId, a.funds.claimed milestoneId = true

theorem Passage.funded {r : Receipt} (passage : Passage host c tr cfg r act moves delta a a')
    (hcancel : r.CancelsUnclaimed c) (ih : Funded c tr a) : Funded c (r :: tr) a' := by
  have hpast : (∃ x ∈ r :: tr, (x.call.act c).isPayout = true) → act.isPayout = false →
      ∃ x ∈ tr, (x.call.act c).isPayout = true := by
    rintro ⟨x, hx, hpayout⟩ hnow
    rcases List.mem_cons.mp hx with rfl | hx
    · rw [passage.hact, hnow] at hpayout
      cases hpayout
    · exact ⟨x, hx, hpayout⟩
  obtain ⟨kept, flagged⟩ := ih
  have hcancel' := hcancel
  rw [Receipt.CancelsUnclaimed, passage.hact, claimed_view,
    (View.account_eq_some.mp passage.before).2] at hcancel'
  cases passage.step with
  | @contributed _ moves who amounts nonempty pos accepts =>
      have hsum : 0 ≤ amounts.sum := List.sum_nonneg fun x hx => Int.le_of_lt (pos x hx)
      obtain ⟨_, _, _, _, heq⟩ := a.contributeAll_eq (view r.pre).admin.admin who amounts
      rw [heq]
      refine ⟨fun h => ?_, fun h => flagged (hpast h rfl)⟩
      obtain ⟨hopen, hgoal⟩ := kept (hpast h rfl)
      exact ⟨hopen, Int.le_trans hgoal (Int.le_add_of_nonneg_right hsum)⟩
  | withdrew payable =>
      exact ⟨fun _ => ⟨payable.notCancelled, payable.goalMet⟩, fun _ => .inl rfl⟩
  | claimed payable =>
      refine ⟨fun _ => ?_, fun _ => .inr ⟨_, update_self _ _ _⟩⟩
      unfold Account.claimMilestone
      split <;> exact ⟨payable.notCancelled, payable.goalMet⟩
  | cancelled live unpaid goalMissed =>
      have hnever : ¬ ∃ x ∈ tr, (x.call.act c).isPayout = true := by
        intro h
        have hgoal := (kept h).2
        omega
      exact ⟨fun h => absurd (hpast h rfl) hnever, fun h => absurd (hpast h rfl) hnever⟩
  | adminCancelled live unpaid =>
      have hnever : ¬ ∃ x ∈ tr, (x.call.act c).isPayout = true := by
        intro h
        rcases flagged h with hpaid | ⟨milestoneId, hclaimed⟩
        · exact Bool.noConfusion (unpaid.symm.trans hpaid)
        · exact Bool.noConfusion ((hcancel' rfl milestoneId).symm.trans hclaimed)
      exact ⟨fun h => absurd (hpast h rfl) hnever, fun h => absurd (hpast h rfl) hnever⟩
  | _ => exact ⟨fun h => kept (hpast h rfl), fun h => flagged (hpast h rfl)⟩

theorem run_funded (run : Run (machine host) tr cfg)
    (hcancel : ∀ r ∈ tr, r.CancelsUnclaimed c)
    (ha : (view cfg.state).account c = some a) : Funded c tr a := by
  refine account_run (C := Receipt.CancelsUnclaimed c) (I := fun tr _ a => Funded c tr a) ?_
    (fun passage _ hr ih => passage.funded hr ih) run hcancel ha
  intro tr r a hacts _
  have hnever : ¬ ∃ x ∈ r :: tr, (x.call.act c).isPayout = true := by
    rintro ⟨x, hx, hpayout⟩
    rw [hacts x hx] at hpayout
    cases hpayout
  exact ⟨fun h => absurd h hnever, fun h => absurd h hnever⟩

/-- Open refunds exclude every earlier payout. -/
theorem Funded.no_payout {now : Nat} (funded : Funded c tr a) (refundable : a.Refundable now) :
    ¬ ∃ r ∈ tr, (r.call.act c).isPayout = true := by
  intro h
  obtain ⟨hopen, hgoal⟩ := funded.kept h
  rcases refundable with hcancelled | ⟨-, hmissed⟩
  · exact Bool.noConfusion (hopen.symm.trans hcancelled)
  · omega

/-! ## The payout in one go -/

/-- The payout and the release are covered by what was raised, and a campaign with
milestones has neither. -/
structure PaidOnce (c : Nat) (tr : List Receipt) (a : Account) : Prop where
  unpaid : a.record.fundsWithdrawn = false ∨ a.funds.milestones ≠ [] →
    paidFor Act.isWithdraw c tr = 0 ∧ paidFor Act.isRelease c tr = 0 ∧ a.funds.reserve = none
  bound : paidFor Act.isWithdraw c tr + paidFor Act.isRelease c tr +
    unreleased a.funds.reserve ≤ a.record.amountRaised

theorem Passage.paidOnce {r : Receipt} (passage : Passage host c tr cfg r act moves delta a a')
    (ih : PaidOnce c tr a) : PaidOnce c (r :: tr) a' := by
  have books := passage.books
  have hwithdraw : paidFor Act.isWithdraw c (r :: tr) = _ := passage.paidFor_cons
  have hrelease : paidFor Act.isRelease c (r :: tr) = _ := passage.paidFor_cons
  have hkept : act.isWithdraw = false → act.isRelease = false → PaidOnce c (r :: tr) a := by
    intro hnotWithdraw hnotRelease
    rw [Act.pays_of_not hnotWithdraw, Int.zero_add] at hwithdraw
    rw [Act.pays_of_not hnotRelease, Int.zero_add] at hrelease
    exact ⟨hwithdraw ▸ hrelease ▸ ih.unpaid, hwithdraw ▸ hrelease ▸ ih.bound⟩
  cases passage.step with
  | @contributed _ moves who amounts nonempty pos accepts =>
      have hsum : 0 ≤ amounts.sum := List.sum_nonneg fun x hx => Int.le_of_lt (pos x hx)
      obtain ⟨unpaid, bound⟩ := hkept rfl rfl
      obtain ⟨_, _, _, _, heq⟩ := a.contributeAll_eq (view r.pre).admin.admin who amounts
      rw [heq]
      exact ⟨unpaid, Int.le_trans bound (Int.le_add_of_nonneg_right hsum)⟩
  | withdrew payable noPlan currency hrecipient feePos creatorPos =>
      have hopen := payable.notWithdrawn
      obtain ⟨hwithdrawn, hreleased, hnone⟩ := ih.unpaid (.inl hopen)
      have hsplit := splitFunds_sum a.record.effectiveAmountRaised
        ((view r.pre).effectiveFee a.record) ((view r.pre).vesting a).2
      have hreserve : 0 ≤ ((view r.pre).split a).reserve :=
        splitFunds_reserve_nonneg books.effective_nonneg
          (View.effectiveFee_le passage.configured passage.phase)
      have hraised := books.effective_le
      refine ⟨fun hstill => ?_, ?_⟩
      · rcases hstill with hstill | hplan
        · cases hstill
        · exact absurd noPlan hplan
      · rw [unreleased_withhold hnone hreserve, hwithdraw, hrelease, hwithdrawn, hreleased]
        change _ ≤ a.record.amountRaised
        simp only [Act.pays, Act.isWithdraw, Act.isRelease, if_true, List.map_cons, List.map_nil,
          List.sum_cons, List.sum_nil, Bool.false_eq_true, if_false]
        simp only [View.split] at hsplit ⊢
        omega
  | @released _ token reserve hreserve unreleased' due withdrawn =>
      have hbefore : unreleased a.funds.reserve = reserve.amount := by
        rw [hreserve, unreleased, unreleased', if_neg Bool.false_ne_true]
      have hnow : unreleased (a.releaseReserve reserve).funds.reserve = 0 := rfl
      have bound := ih.bound
      refine ⟨fun hstill => ?_, ?_⟩
      · obtain ⟨-, -, hnone⟩ := ih.unpaid hstill
        rw [hreserve] at hnone
        cases hnone
      · rw [hnow, hwithdraw, hrelease, Act.pays_of_not rfl]
        change _ ≤ a.record.amountRaised
        simp only [Act.pays, Act.isRelease, if_true, List.map_cons, List.map_nil,
          List.sum_singleton]
        omega
  | planned notCancelled unpaid noPlan hplan =>
      obtain ⟨unpaid', bound⟩ := hkept rfl rfl
      exact ⟨fun _ => unpaid' (.inl unpaid), bound⟩
  | marked =>
      obtain ⟨unpaid, bound⟩ := hkept rfl rfl
      refine ⟨fun hstill => unpaid (hstill.imp id fun hplan hempty => hplan ?_), bound⟩
      simp only [hempty, verifiedAt, List.map_nil]
  | claimed payable mem =>
      obtain ⟨unpaid, bound⟩ := hkept rfl rfl
      refine ⟨fun _ => unpaid (.inl payable.notWithdrawn), ?_⟩
      unfold Account.claimMilestone
      split <;> exact bound
  | _ =>
      obtain ⟨unpaid, bound⟩ := hkept rfl rfl
      exact ⟨unpaid, bound⟩

theorem run_paidOnce (run : Run (machine host) tr cfg)
    (ha : (view cfg.state).account c = some a) : PaidOnce c tr a := by
  refine account_invariant (I := fun tr _ a => PaidOnce c tr a) ?_
    (fun passage ih => passage.paidOnce ih) run ha
  intro tr r a hacts hborn
  have hnone : ∀ {kind : Act → Bool}, kind .other = false → paidFor kind c (r :: tr) = 0 :=
    fun hkind => paidFor_eq_zero hkind hacts
  cases hborn
  refine ⟨fun _ => ⟨hnone rfl, hnone rfl, rfl⟩, ?_⟩
  rw [hnone rfl, hnone rfl]
  exact Int.le_refl 0

/-! ## Milestone claims under one fee -/

/-- A milestone claim on `c` is made while the fee in force is `feeBps`. -/
def Receipt.ClaimsAtFee (c : Nat) (feeBps : Nat) (r : Receipt) : Prop :=
  (r.call.act c).isMilestoneClaim = true →
    ∀ campaign, r.pre.campaigns.campaign c = some campaign → effectiveFee r.pre campaign = feeBps

instance (c feeBps : Nat) (r : Receipt) : Decidable (r.ClaimsAtFee c feeBps) :=
  inferInstanceAs (Decidable (_ → ∀ _, _ = some _ → _))

/-- Under one fee the claims never pay more than was raised, though more may be raised
between them. -/
structure Covered (c : Nat) (feeBps : Nat) (tr : List Receipt) (a : Account) : Prop where
  slices : a.record.fundsWithdrawn = false → milestonesPaid c tr = 0 ∨
    feeBps ≤ platformFeeMaxBps ∧ milestonesPaid c tr ≤
      sliced a.record.amountRaised feeBps a.funds.milestones a.funds.claimed
  bound : milestonesPaid c tr ≤ a.record.amountRaised

theorem Covered.claim {r : Receipt} {feeBps : Nat} (ih : Covered c feeBps tr a)
    (passage : Passage host c tr cfg r act moves delta a a') (hfee : r.ClaimsAtFee c feeBps)
    (hclaim : act.isMilestoneClaim = true) : Covered c feeBps (r :: tr) a' := by
  have phase := passage.phase
  have books := passage.books
  have hnonneg : 0 ≤ a.record.amountRaised := books.raised_nonneg
  obtain ⟨milestone, mem, hact, payable, unclaimed, rfl, -, hsum⟩ :=
    passage.step.claim_pays hclaim phase books passage.planned passage.configured
  have hbound := View.effectiveFee_le passage.configured phase
  have hfee' := hfee (by rw [passage.hact]; exact hclaim) a.record
    (View.account_eq_some.mp passage.before).1
  rw [effectiveFee_view] at hfee'
  rw [hfee'] at hsum hbound
  have hbefore : milestonesPaid c tr ≤
      sliced a.record.amountRaised feeBps a.funds.milestones a.funds.claimed := by
    rcases ih.slices payable.notWithdrawn with hzero | ⟨-, hle⟩
    · rw [hzero]
      exact sliced_nonneg hnonneg hbound
    · exact hle
  have hafter : milestonesPaid c (r :: tr) ≤
      if allClaimed a.funds.milestones a.funds.claimed milestone.id then a.record.amountRaised
      else sliced a.record.amountRaised feeBps a.funds.milestones
        (update a.funds.claimed milestone.id true) := by
    rw [milestonesPaid_cons passage.hact passage.hmoves, ← hsum]
    omega
  unfold Account.claimMilestone
  by_cases hlast : allClaimed a.funds.milestones a.funds.claimed milestone.id = true
  · rw [if_pos hlast] at hafter ⊢
    exact ⟨fun hstill => Bool.noConfusion hstill, hafter⟩
  · rw [if_neg hlast] at hafter ⊢
    exact ⟨fun _ => .inr ⟨hbound, hafter⟩,
      Int.le_trans hafter (sliced_le (passage.planned.shape mem) hnonneg hbound)⟩

theorem Passage.covered {r : Receipt} {feeBps : Nat}
    (passage : Passage host c tr cfg r act moves delta a a') (hfee : r.ClaimsAtFee c feeBps)
    (ih : Covered c feeBps tr a) : Covered c feeBps (r :: tr) a' := by
  by_cases hclaim : act.isMilestoneClaim = true
  · exact ih.claim passage hfee hclaim
  · obtain ⟨slices, bound⟩ := ih
    have books := passage.books
    have planned := passage.planned
    rw [← milestonesPaid_cons_of_not passage.hact hclaim] at slices bound
    cases passage.step with
    | @contributed _ moves who amounts nonempty pos accepts =>
        have hsum : 0 ≤ amounts.sum := List.sum_nonneg fun x hx => Int.le_of_lt (pos x hx)
        have hnonneg : 0 ≤ a.record.amountRaised := books.raised_nonneg
        obtain ⟨_, _, _, _, heq⟩ := a.contributeAll_eq (view r.pre).admin.admin who amounts
        rw [heq]
        refine ⟨fun hstill => ?_, Int.le_trans bound (Int.le_add_of_nonneg_right hsum)⟩
        rcases slices hstill with hzero | ⟨hbps, hle⟩
        · exact .inl hzero
        · exact .inr ⟨hbps,
            Int.le_trans hle (sliced_mono hnonneg (Int.le_add_of_nonneg_right hsum) hbps)⟩
    | withdrew => exact ⟨fun hstill => Bool.noConfusion hstill, bound⟩
    | planned notCancelled hunpaid noPlan hplan =>
        rcases planned with ⟨-, hnone⟩ | ⟨hsome, -⟩
        · refine ⟨fun hstill => ?_, bound⟩
          rw [sliced_none hnone]
          rw [sliced_none hnone] at slices
          exact slices hstill
        · exact absurd noPlan hsome
    | marked =>
        refine ⟨fun hstill => ?_, bound⟩
        rw [sliced_verifiedAt]
        exact slices hstill
    | claimed => exact absurd rfl hclaim
    | _ => exact ⟨slices, bound⟩

theorem run_covered {feeBps : Nat} (run : Run (machine host) tr cfg)
    (hfee : ∀ r ∈ tr, r.ClaimsAtFee c feeBps) (ha : (view cfg.state).account c = some a) :
    Covered c feeBps tr a := by
  refine account_run (C := Receipt.ClaimsAtFee c feeBps) (I := fun tr _ a => Covered c feeBps tr a)
    ?_ (fun passage _ hr ih => passage.covered hr ih) run hfee ha
  intro tr r a hacts hborn
  have hnone : milestonesPaid c (r :: tr) = 0 := paidFor_eq_zero rfl hacts
  cases hborn
  exact ⟨fun _ => .inl hnone, Int.le_of_eq hnone⟩

/-- If the last claim on `c` is made, all claims on it are made under one fee. -/
def ClosedAtFee (c : Nat) (feeBps : Nat) (tr : List Receipt) : Prop :=
  (∃ r ∈ tr, r.Closes c) → ∀ r ∈ tr, r.ClaimsAtFee c feeBps

/-- What leaves the escrow by way of payouts is covered. -/
theorem payouts_covered {feeBps : Nat} (run : Run (machine host) tr cfg)
    (hfee : ClosedAtFee c feeBps tr) (ha : (view cfg.state).account c = some a) :
    paidFor Act.isWithdraw c tr + milestonesPaid c tr + paidFor Act.isRelease c tr ≤
      a.record.amountRaised := by
  have paidOnce := run_paidOnce run ha
  have prorated := run_prorated run ha
  have planned := run_planned run ha
  have hreserve := (run_reserves run ha).unreleased_nonneg
  obtain ⟨books, -⟩ := run_books run ha
  have hraised : 0 ≤ a.record.amountRaised := books.raised_nonneg
  rcases planned with ⟨hempty, hnone⟩ | ⟨hplan, shape⟩
  · have hclaims := prorated.none hnone
    have hbound := paidOnce.bound
    omega
  · obtain ⟨hwithdraw, hrelease, -⟩ := paidOnce.unpaid (.inr hplan)
    have hclaims : milestonesPaid c tr ≤ a.record.amountRaised := by
      by_cases hopen : a.record.fundsWithdrawn = false
      · exact prorated.le_raised (.inr ⟨hplan, shape⟩) hraised hopen
      · have hclosed := prorated.closed (Bool.eq_true_of_not_eq_false hopen) hplan
        exact (run_covered run (hfee hclosed) ha).bound
    omega

/-- While the admin cancels `c` only before its first milestone claim, and a campaign
closed by milestone claims has them all under one fee, a payout and a refund exclude
each other and what goes out is covered by what came in. -/
theorem settlement_exclusive {feeBps : Nat} (run : Run (machine host) tr cfg)
    (hcancel : ∀ r ∈ tr, r.CancelsUnclaimed c) (hfee : ClosedAtFee c feeBps tr) :
    ¬ ((∃ r ∈ tr, (r.call.act c).isPayout = true) ∧ ∃ r ∈ tr, (r.call.act c).isRefund = true) ∧
    paidFor Act.isWithdraw c tr + milestonesPaid c tr + paidFor Act.isRelease c tr +
      paidFor Act.isRefund c tr ≤ contributedTo c tr := by
  cases hc : (view cfg.state).account c with
  | none =>
      have hacts := run_absent run hc
      refine ⟨?_, ?_⟩
      · rintro ⟨⟨r, hr, hpayout⟩, -⟩
        rw [hacts r hr] at hpayout
        cases hpayout
      · rw [milestonesPaid, contributedTo_eq_zero hacts, paidFor_eq_zero rfl hacts,
          paidFor_eq_zero rfl hacts, paidFor_eq_zero rfl hacts, paidFor_eq_zero rfl hacts]
        exact Int.le_refl 0
  | some a =>
      have funded := run_funded run hcancel hc
      have tallied := run_tallied run hc
      obtain ⟨books, hwhole⟩ := run_books run hc
      refine ⟨fun h => funded.no_payout (run_refunded run hc h.2) h.1, ?_⟩
      rw [tallied.raised, tallied.refunded]
      have hcovered := payouts_covered run hfee hc
      rcases hwhole with whole | hopen
      · rw [books.effective_eq whole]
        omega
      · have phase := run_phase run hc
        obtain ⟨hwithdraw, hrelease, -⟩ := (run_paidOnce run hc).unpaid (.inl (hopen.unpaid phase))
        have hclaims : milestonesPaid c tr = 0 :=
          paidFor_eq_zero_of_none fun r hr => Bool.eq_false_of_not_eq_true fun hclaim =>
            funded.no_payout hopen ⟨r, hr, by rw [Act.isPayout, hclaim, Bool.or_true]⟩
        have heffective := books.effective_nonneg
        omega

theorem settlement_sample :
    ∃ tr cfg, Run (machine Sample.host) tr cfg ∧ contributedTo 1 tr = 100000 ∧
      (∃ r ∈ tr, (r.call.act 1).isPayout = true) ∧
      ¬ ∃ r ∈ tr, (r.call.act 1).isRefund = true := by
  have h : Sample.Ends 300 (Sample.halfPaid ++ [Sample.ask 3 Sample.creator (.claimMilestone 1 1)])
      fun tr cfg => contributedTo 1 tr = 100000 ∧ (∃ r ∈ tr, (r.call.act 1).isPayout = true) ∧
        (∀ r ∈ tr, r.call.act 1 ≠ .adminCancel) ∧ ∀ r ∈ tr, r.ClaimsAtFee 1 300 := by
    decide +kernel
  obtain ⟨tr, cfg, run, hraised, hpayout, hcancel, hfee⟩ := h.run
  have hexclusive := (settlement_exclusive run
    (fun r hr hadmin => absurd hadmin (hcancel r hr)) fun _ => hfee).1
  exact ⟨tr, cfg, run, hraised, hpayout, fun hrefund => hexclusive ⟨hpayout, hrefund⟩⟩

/-- The admin cancels between the halves, and a contributor is refunded. -/
theorem settlement_both :
    ∃ tr cfg, Run (machine Sample.host) tr cfg ∧
      (∃ r ∈ tr, (r.call.act 1).isPayout = true) ∧ ∃ r ∈ tr, (r.call.act 1).isRefund = true := by
  have h : Sample.Ends 0 (Sample.halfPaid ++
      [Sample.ask 3 Sample.admin (.adminCancelCampaign Sample.admin 1 [0]),
        Sample.ask 4 Sample.alice (.claimRefund 1 Sample.alice)]) fun tr _ =>
      (∃ r ∈ tr, (r.call.act 1).isPayout = true) ∧
        ∃ r ∈ tr, (r.call.act 1).isRefund = true := by
    decide +kernel
  obtain ⟨tr, cfg, run, hboth⟩ := h.run
  exact ⟨tr, cfg, run, hboth⟩

end ProofOfHeart
