import ProofOfHeart.Laws.Settlement

/-! # Who receives the platform fee

The first contribution to a campaign records the admin of that moment. The payout in
one go pays its fee to the recorded address; a milestone claim pays the admin of the
moment, who need not be the same.
-/

namespace ProofOfHeart

open Checked Function Trace

variable {host : Host} {tr : List Receipt} {cfg : Config} {c : Nat} {a a' : Account}
  {env : Env} {v : View} {act : Act} {moves : List Transfer} {delta : Int}

/-- The transfers of a payout before the last, which goes to the creator. -/
def Act.fees (act : Act) (moves : List Transfer) : List Transfer :=
  if act.isPayout then moves.dropLast else []

/-! ## The first contribution -/

/-- The oldest receipt that contributes to `c`. -/
def firstContribution (c : Nat) (tr : List Receipt) : Option Receipt :=
  (tr.filter fun r => (r.call.act c).isContribution).getLast?

theorem firstContribution_cons {r : Receipt} : firstContribution c (r :: tr) =
    (firstContribution c tr).or (if (r.call.act c).isContribution then some r else none) := by
  unfold firstContribution
  rw [List.filter_cons]
  split
  next hyes => rw [List.getLast?_cons]; cases (List.filter _ tr).getLast? <;> rfl
  next hno => rw [Option.or_none]

theorem firstContribution_cons_of_some {r e : Receipt} (h : firstContribution c tr = some e) :
    firstContribution c (r :: tr) = some e := by
  rw [firstContribution_cons, h]
  rfl

theorem firstContribution_cons_of_not {r : Receipt} (h : (r.call.act c).isContribution = false) :
    firstContribution c (r :: tr) = firstContribution c tr := by
  rw [firstContribution_cons, h, if_neg Bool.false_ne_true, Option.or_none]

/-- The recorded recipient is the admin of the first contribution. -/
structure Recorded (c : Nat) (tr : List Receipt) (a : Account) : Prop where
  empty : firstContribution c tr = none → a.record.amountRaised = 0
  first : ∀ e, firstContribution c tr = some e → 0 < a.record.amountRaised ∧
    ∃ admin, e.pre.admin.admin = some admin ∧ a.funds.feeRecipient = some admin

theorem Account.contributeAll_feeRecipient {admin : Option Address} {who : Address}
    {amounts : List Int} (nonempty : amounts ≠ []) (pos : ∀ amount ∈ amounts, 0 < amount)
    (hraised : 0 ≤ a.record.amountRaised) :
    (a.contributeAll admin who amounts).funds.feeRecipient =
      if a.record.amountRaised = 0 then admin else a.funds.feeRecipient := by
  induction amounts generalizing a with
  | nil => exact absurd rfl nonempty
  | cons amount rest ih =>
      have hamount := pos amount List.mem_cons_self
      cases rest with
      | nil => rfl
      | cons next rest =>
          have hnext : (a.contribute admin who amount).record.amountRaised =
              a.record.amountRaised + amount := rfl
          have hih := ih (a := a.contribute admin who amount) (List.cons_ne_nil _ _)
            (fun x hx => pos x (List.mem_cons_of_mem _ hx)) (by omega)
          rw [if_neg (by omega)] at hih
          exact hih

theorem AccountStep.feeRecipient_kept (h : AccountStep env v c act moves delta a a')
    (hact : act.isContribution = false) :
    a'.record.amountRaised = a.record.amountRaised ∧
      a'.funds.feeRecipient = a.funds.feeRecipient := by
  cases h with
  | contributed => cases hact
  | claimed =>
      refine ⟨?_, rfl⟩
      rw [Account.claimMilestone_record]
  | _ => exact ⟨rfl, rfl⟩

theorem Passage.recorded {r : Receipt} (passage : Passage host c tr cfg r act moves delta a a')
    (ih : Recorded c tr a) : Recorded c (r :: tr) a' := by
  have books := passage.books
  have hnonneg : 0 ≤ a.record.amountRaised := books.raised_nonneg
  obtain ⟨empty, first⟩ := ih
  by_cases hcontribution : act.isContribution = true
  · have hact := passage.hact
    cases passage.step with
    | @contributed _ moves who amounts nonempty pos accepts =>
        have hsum : 0 < amounts.sum := List.sum_pos _ pos nonempty
        have hrecipient :
            (a.contributeAll (view r.pre).admin.admin who amounts).funds.feeRecipient =
            if a.record.amountRaised = 0 then (view r.pre).admin.admin else a.funds.feeRecipient :=
          Account.contributeAll_feeRecipient nonempty pos hnonneg
        have hraised : (a.contributeAll (view r.pre).admin.admin who amounts).record.amountRaised =
            a.record.amountRaised + amounts.sum := by rw [Account.contributeAll_record]
        cases hfirst : firstContribution c tr with
        | none =>
            have hnew : firstContribution c (r :: tr) = some r := by
              rw [firstContribution_cons, hfirst, hact]
              rfl
            rw [if_pos (empty hfirst)] at hrecipient
            refine ⟨fun hnone => (by rw [hnew] at hnone; cases hnone), fun e he => ⟨by omega, ?_⟩⟩
            rw [hnew, Option.some.injEq] at he
            subst he
            obtain ⟨admin, hadmin⟩ := passage.configured.administered
            exact ⟨admin, hadmin, hrecipient.trans hadmin⟩
        | some e =>
            have hold := firstContribution_cons_of_some (r := r) hfirst
            obtain ⟨hpos, admin, hadmin, hstored⟩ := first e hfirst
            rw [if_neg (by omega)] at hrecipient
            refine ⟨fun hnone => (by rw [hold] at hnone; cases hnone), fun e' he => ⟨by omega, ?_⟩⟩
            rw [hold, Option.some.injEq] at he
            subst he
            exact ⟨admin, hadmin, hrecipient.trans hstored⟩
    | _ => cases hcontribution
  · have hnot := Bool.eq_false_of_not_eq_true hcontribution
    obtain ⟨hraised, hrecipient⟩ := passage.step.feeRecipient_kept hnot
    have hsame : firstContribution c (r :: tr) = firstContribution c tr :=
      firstContribution_cons_of_not (by rw [passage.hact]; exact hnot)
    refine ⟨fun hnone => ?_, fun e he => ?_⟩
    · rw [hraised]
      exact empty (hsame.symm.trans hnone)
    · rw [hraised, hrecipient]
      exact first e (hsame.symm.trans he)

theorem run_recorded (run : Run (machine host) tr cfg)
    (ha : (view cfg.state).account c = some a) : Recorded c tr a := by
  refine account_invariant (I := fun tr _ a => Recorded c tr a) ?_
    (fun passage ih => passage.recorded ih) run ha
  intro tr r a hacts hborn
  have hnone : firstContribution c (r :: tr) = none := by
    rw [firstContribution, List.getLast?_eq_none_iff, List.filter_eq_nil_iff]
    intro x hx
    rw [hacts x hx]
    exact Bool.false_ne_true
  cases hborn
  refine ⟨fun _ => rfl, fun e he => ?_⟩
  rw [hnone] at he
  cases he

/-! ## Fees of milestone claims -/

/-- A milestone claim on `c` is made while the admin is the recorded recipient, or
where no fee is due: the fee is zero, or the slice of a milestone that is not the last
rounds to zero. -/
def Receipt.FeePinned (c : Nat) (r : Receipt) : Prop :=
  ∀ milestoneId, r.call.act c = .claimMilestone milestoneId →
    ∀ campaign, r.pre.campaigns.campaign c = some campaign →
    ∀ milestone ∈ r.pre.campaigns.campaignMilestones c, milestone.id = milestoneId →
      r.pre.admin.admin = r.pre.campaigns.campaignFeeRecipient c ∨
      effectiveFee r.pre campaign = 0 ∨
      allClaimed (r.pre.campaigns.campaignMilestones c) (r.pre.campaigns.milestoneClaimed c)
          milestoneId = false ∧
        ceilBps campaign.amountRaised (effectiveFee r.pre campaign) * milestone.payoutBps < 10000

theorem slicesOf_zero (milestones : List Milestone) : slicesOf 0 milestones = 0 := by
  rw [slicesOf, List.sum_eq_zero]
  intro slice hslice
  obtain ⟨milestone, -, rfl⟩ := List.mem_map.mp hslice
  rw [floorBps, Int.zero_mul, Int.zero_tdiv]

theorem payMilestone_free {milestones : List Milestone} {claimed : Nat → Bool}
    {milestone : Milestone} {net : Int} :
    (payMilestone milestones claimed milestone 0 net).fee = 0 := by
  unfold payMilestone
  have hslice : floorBps 0 milestone.payoutBps = 0 := by
    rw [floorBps, Int.zero_mul, Int.zero_tdiv]
  split
  next hlast =>
      dsimp only
      rw [hslice, slicesOf_zero]
      rfl
  next hmore => exact hslice

/-- Where no fee is due none is transferred. -/
theorem milestonePay_free {milestone : Milestone} (shape : PlanShape a.funds.milestones)
    (mem : milestone ∈ a.funds.milestones) (unclaimed : a.funds.claimed milestone.id = false)
    (hraised : 0 ≤ a.record.amountRaised) (hbps : v.effectiveFee a.record ≤ platformFeeMaxBps)
    (h : v.effectiveFee a.record = 0 ∨
      allClaimed a.funds.milestones a.funds.claimed milestone.id = false ∧
        ceilBps a.record.amountRaised (v.effectiveFee a.record) * milestone.payoutBps < 10000) :
    (v.milestonePay a milestone).fee = 0 := by
  unfold View.milestonePay
  dsimp only
  rcases h with hfee | ⟨hmore, hsmall⟩
  · have hzero : ceilBps a.record.amountRaised 0 = 0 := by
      rw [ceilBps, Int.natCast_zero, Int.mul_zero, Int.zero_add]
      decide
    rw [hfee, hzero]
    exact payMilestone_free
  · have hlast := mt (last_iff shape mem unclaimed).mp (by rw [hmore]; exact Bool.false_ne_true)
    obtain ⟨hnonneg, -⟩ := ceilBps_bounds hraised hbps
    unfold payMilestone
    rw [if_neg hlast]
    dsimp only
    rw [floorBps_eq, Shares.floor_eq hnonneg (Int.natCast_nonneg _)]
    exact Int.ediv_eq_zero_of_lt (Int.mul_nonneg hnonneg (Int.natCast_nonneg _)) hsmall

/-- Every fee of a payout of `c` has gone to the admin of the first contribution. -/
def FeesPinned (c : Nat) (tr : List Receipt) : Prop :=
  ∀ r ∈ tr, ∀ fee ∈ (r.call.act c).fees r.post.tokens.moved,
    ∃ e, firstContribution c tr = some e ∧ e.pre.admin.admin = some fee.recipient

theorem Passage.feesPinned {r : Receipt} (passage : Passage host c tr cfg r act moves delta a a')
    (hpinned : r.FeePinned c) (ih : FeesPinned c tr) : FeesPinned c (r :: tr) := by
  intro x hx fee hfee
  rcases List.mem_cons.mp hx with rfl | hx
  · have recorded := run_recorded passage.run (passage.pre ▸ passage.before)
    have books := passage.books
    have hnonneg : 0 ≤ a.record.amountRaised := books.raised_nonneg
    have haccount := View.account_eq_some.mp passage.before
    have hpayable : a.Payable → ∃ e, firstContribution c tr = some e ∧
        ∃ admin, e.pre.admin.admin = some admin ∧ a.funds.feeRecipient = some admin := by
      intro payable
      cases hfirst : firstContribution c tr with
      | none => exact absurd (recorded.empty hfirst) payable.raised
      | some e => exact ⟨e, rfl, (recorded.first e hfirst).2⟩
    have hact := passage.hact
    rw [hact, passage.hmoves] at hfee
    cases hstep : passage.step with
    | @withdrew _ token recipient payable noPlan currency hrecipient feePos creatorPos =>
        obtain ⟨e, hfirst, admin, hadmin, hstored⟩ := hpayable payable
        rw [hstored, Option.some_or, Option.some.injEq] at hrecipient
        rw [List.mem_singleton.mp hfee, ← hrecipient]
        exact ⟨e, firstContribution_cons_of_some hfirst, hadmin⟩
    | @claimed _ token admin milestone payable mem unclaimed pos currency hadmin =>
        obtain ⟨e, hfirst, first, hfirstAdmin, hstored⟩ := hpayable payable
        simp only [Act.fees, Act.isPayout, Act.isMilestoneClaim, Bool.or_true, if_true,
          List.dropLast_concat] at hfee
        split at hfee
        next hpos =>
            have hfunds := haccount.2
            have hcondition := hpinned milestone.id hact a.record haccount.1 milestone
              (by rw [milestones_view, hfunds]; exact mem) rfl
            rw [milestones_view, claimed_view, feeRecipient_view, hfunds, hstored,
              effectiveFee_view, admin_view, hadmin] at hcondition
            rcases hcondition with hsame | hfree
            · rw [List.mem_singleton.mp hfee]
              exact ⟨e, firstContribution_cons_of_some hfirst, hfirstAdmin.trans hsame.symm⟩
            · have hzero := milestonePay_free (passage.planned.shape mem) mem unclaimed hnonneg
                (View.effectiveFee_le passage.configured passage.phase) hfree
              omega
        next hzero => cases hfee
    | _ => cases hfee
  · obtain ⟨e, hfirst, hadmin⟩ := ih x hx fee hfee
    exact ⟨e, firstContribution_cons_of_some hfirst, hadmin⟩

/-- While milestone claims with a fee due are made under the recorded admin, every
fee goes to the admin of the first contribution. -/
theorem fees_pinned (run : Run (machine host) tr cfg) (hpinned : ∀ r ∈ tr, r.FeePinned c) :
    ∀ r ∈ tr, ∀ fee ∈ (r.call.act c).fees r.post.tokens.moved,
      ∃ e, firstContribution c tr = some e ∧ e.pre.admin.admin = some fee.recipient := by
  have absent : ∀ {tr : List Receipt}, (∀ r ∈ tr, r.call.act c = .other) → FeesPinned c tr := by
    intro tr hacts r hr fee hfee
    rw [hacts r hr] at hfee
    cases hfee
  cases hc : (view cfg.state).account c with
  | none => exact absent (run_absent run hc)
  | some a =>
      exact account_run (C := Receipt.FeePinned c) (I := fun tr _ _ => FeesPinned c tr)
        (fun hacts _ => absent hacts) (fun passage _ hr ih => passage.feesPinned hr ih) run
        hpinned hc

/-- The admin of the first contribution has handed over when the funds are paid out. -/
def Sample.handedOver : List Request :=
  [ask 2 admin (.initiateAdminTransfer admin heir), ask 2 heir .acceptAdminTransfer]

theorem feeRecipient_sample :
    ∃ tr cfg, Run (machine Sample.host) tr cfg ∧ cfg.state.admin.admin = some Sample.heir ∧
      ∃ r ∈ tr, (r.call.act 1).fees r.post.tokens.moved ≠ [] ∧
        ∀ fee ∈ (r.call.act 1).fees r.post.tokens.moved,
          ∃ e, firstContribution 1 tr = some e ∧ e.pre.admin.admin = some fee.recipient := by
  have h : Sample.Ends 300 (Sample.opened 0 ++
      [Sample.ask 1 Sample.alice (.contribute 1 Sample.alice 100000)] ++ Sample.handedOver ++
      [Sample.ask 3 Sample.creator (.withdrawFunds 1)]) fun tr cfg =>
      cfg.state.admin.admin = some Sample.heir ∧
        (∃ r ∈ tr, (r.call.act 1).fees r.post.tokens.moved ≠ []) ∧
        ∀ r ∈ tr, (r.call.act 1).isMilestoneClaim = false := by
    decide +kernel
  obtain ⟨tr, cfg, run, hadmin, ⟨r, hr, hfees⟩, hclaims⟩ := h.run
  have hpinned : ∀ r ∈ tr, r.FeePinned 1 := by
    intro r hr milestoneId hact
    have hclaim := hclaims r hr
    rw [hact] at hclaim
    cases hclaim
  exact ⟨tr, cfg, run, hadmin, r, hr, hfees, fees_pinned run hpinned r hr⟩

/-- A milestone claim pays its fee to the new admin. -/
theorem fees_unpinned :
    ∃ tr cfg, Run (machine Sample.host) tr cfg ∧
      ∃ r ∈ tr, ∃ fee ∈ (r.call.act 1).fees r.post.tokens.moved,
        fee.recipient = Sample.heir ∧
        ∃ e, firstContribution 1 tr = some e ∧ e.pre.admin.admin = some Sample.admin := by
  have h : Sample.Ends 300 (Sample.planned ++
      [Sample.ask 1 Sample.alice (.contribute 1 Sample.alice 100000)] ++ Sample.handedOver ++
      [Sample.ask 3 Sample.creator (.claimMilestone 1 0)]) fun tr _ =>
      (∃ r ∈ tr, ∃ fee ∈ (r.call.act 1).fees r.post.tokens.moved,
        fee.recipient = Sample.heir) ∧
        (firstContribution 1 tr).map (fun e => e.pre.admin.admin) =
          some (some Sample.admin) := by
    decide +kernel
  obtain ⟨tr, cfg, run, ⟨r, hr, fee, hfee, hrecipient⟩, hfirst⟩ := h.run
  obtain ⟨e, hfirst, hadmin⟩ := Option.map_eq_some_iff.mp hfirst
  exact ⟨tr, cfg, run, r, hr, fee, hfee, hrecipient, e, hfirst, hadmin⟩

end ProofOfHeart
