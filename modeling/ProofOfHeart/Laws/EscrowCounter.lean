import Mathlib.Algebra.BigOperators.Intervals
import ProofOfHeart.Laws.Settlement

/-! # The global escrow counter

`total_raised_global` is meant to be the sum of what the contract holds for all
campaigns. A cancellation deducts everything ever raised, which is right only while
nothing has been refunded or claimed; the last milestone claim leaves nothing behind
only when all claims were made under the same terms.
-/

namespace ProofOfHeart

open Checked Function Trace Balances

variable {host : Host} {tr : List Receipt} {cfg : Config} {c : Nat} {a a' : Account}
  {env : Env} {v : View} {act : Act} {moves : List Transfer} {delta : Int}

/-- What the contract holds for campaign `c`; a cancelled campaign no longer counts. -/
noncomputable def escrow (tr : List Receipt) (s : State) (c : Nat) : Int :=
  match s.campaigns.campaign c with
  | none => 0
  | some campaign =>
      if campaign.isCancelled then 0
      else if campaign.fundsWithdrawn then unreleased (s.campaigns.campaignReserve c)
      else ∑ᶠ who, s.contributions.contribution c who - milestonesPaid c tr

/-- A cancellation of `c` finds nothing refunded and nothing claimed. -/
def Receipt.CancelsWhole (c : Nat) (r : Receipt) : Prop :=
  r.call.act c = .cancel ∨ r.call.act c = .adminCancel →
    (∀ campaign, r.pre.campaigns.campaign c = some campaign →
      campaign.effectiveAmountRaised = campaign.amountRaised) ∧
    ∀ milestoneId, r.pre.campaigns.milestoneClaimed c milestoneId = false

theorem Receipt.CancelsWhole.unclaimed {r : Receipt} (h : r.CancelsWhole c) :
    r.CancelsUnclaimed c := fun hact => (h (.inr hact)).2

/-! ## One campaign -/

noncomputable def Account.escrow (a : Account) (paid : Int) : Int :=
  if a.record.isCancelled then 0
  else if a.record.fundsWithdrawn then unreleased a.funds.reserve
  else total a.funds.contribution - paid

theorem escrow_eq {s : State} (ha : (view s).account c = some a) :
    escrow tr s c = a.escrow (milestonesPaid c tr) := by
  obtain ⟨hrecord, hfunds⟩ := View.account_eq_some.mp ha
  rw [← campaign_view] at hrecord
  rw [escrow, hrecord, Account.escrow, ← hfunds]
  rfl

theorem Account.Books.escrow_open (books : a.Books) {paid : Int}
    (hlive : a.record.isCancelled = false) (hopen : a.record.fundsWithdrawn = false) :
    a.escrow paid = a.record.effectiveAmountRaised - paid := by
  rw [Account.escrow, hlive, hopen, if_neg Bool.false_ne_true, if_neg Bool.false_ne_true,
    books.live]

/-- A milestone claim takes its payment off the escrow; the last one empties it. -/
theorem Passage.escrow_claim {r : Receipt}
    (passage : Passage host c tr cfg r act moves delta a a') (hclaim : act.isMilestoneClaim = true)
    (hclosed : a'.record.fundsWithdrawn = true → a'.funds.milestones ≠ [] →
      milestonesPaid c (r :: tr) = a'.record.amountRaised) :
    a'.escrow (milestonesPaid c (r :: tr)) = a.escrow (milestonesPaid c tr) + delta := by
  have books := passage.books
  have reserves := passage.reserves
  obtain ⟨milestone, mem, hact, payable, unclaimed, rfl, hdelta, -⟩ :=
    passage.step.claim_pays hclaim passage.phase books passage.planned passage.configured
  have hpays : milestonesPaid c (r :: tr) =
      act.pays Act.isMilestoneClaim moves + milestonesPaid c tr :=
    milestonesPaid_cons passage.hact passage.hmoves
  rw [books.escrow_open payable.notCancelled payable.notWithdrawn, hdelta]
  by_cases hlast : allClaimed a.funds.milestones a.funds.claimed milestone.id = true
  · have heffective := books.effective_eq (passage.whole payable)
    simp only [Account.claimMilestone, if_pos hlast, Account.close] at hclosed
    have hall := hclosed trivial (List.ne_nil_of_mem mem)
    simp only [Account.escrow, Account.claimMilestone, if_pos hlast, Account.close,
      payable.notCancelled, reserves.afterPayout payable.notWithdrawn, unreleased, if_true,
      Bool.false_eq_true, if_false]
    omega
  · simp only [Account.escrow, Account.claimMilestone, if_neg hlast, payable.notCancelled,
      payable.notWithdrawn, Bool.false_eq_true, if_false, books.live]
    omega

/-- After the payout the contract holds the reserve that was withheld. -/
theorem Passage.escrow_withheld {r : Receipt} {paid : Int}
    (passage : Passage host c tr cfg r act moves delta a a') (payable : a.Payable) :
    (a.close.withhold r.env.timestamp ((view r.pre).vesting a).1
      ((view r.pre).split a).reserve).escrow paid = ((view r.pre).split a).reserve := by
  have hreserve : 0 ≤ ((view r.pre).split a).reserve :=
    splitFunds_reserve_nonneg passage.books.effective_nonneg
      (View.effectiveFee_le passage.configured passage.phase)
  have hheld : unreleased (a.close.withhold r.env.timestamp ((view r.pre).vesting a).1
      ((view r.pre).split a).reserve).funds.reserve = ((view r.pre).split a).reserve :=
    unreleased_withhold (passage.reserves.afterPayout payable.notWithdrawn) hreserve
  simpa only [Account.escrow, Account.withhold, Account.close, payable.notCancelled,
    Bool.false_eq_true, if_false, if_true] using hheld

/-- Each act moves the escrow of the campaign by what it adds to the counter. -/
theorem Passage.escrow {r : Receipt} (passage : Passage host c tr cfg r act moves delta a a')
    (hclean : r.CancelsWhole c)
    (hclosed : a'.record.fundsWithdrawn = true → a'.funds.milestones ≠ [] →
      milestonesPaid c (r :: tr) = a'.record.amountRaised) :
    a'.escrow (milestonesPaid c (r :: tr)) = a.escrow (milestonesPaid c tr) + delta := by
  have phase := passage.phase
  have books := passage.books
  have books' := passage.books_after
  have planned := passage.planned
  have prorated := run_prorated passage.run (passage.pre ▸ passage.before)
  have hpaid : ¬ act.isMilestoneClaim = true → milestonesPaid c (r :: tr) = milestonesPaid c tr :=
    milestonesPaid_cons_of_not passage.hact
  rw [Receipt.CancelsWhole, passage.hact, campaign_view, claimed_view,
    (View.account_eq_some.mp passage.before).1, (View.account_eq_some.mp passage.before).2]
    at hclean
  by_cases hclaim : act.isMilestoneClaim = true
  · exact passage.escrow_claim hclaim hclosed
  · rw [hpaid hclaim]
    cases passage.step with
    | contributed nonempty pos accepts =>
        have hopen := phase.unpaid accepts.of_live
        have hlive := accepts.notCancelled
        rw [books.escrow_open hlive hopen, books'.escrow_open
          (by rw [Account.contributeAll_record]; exact hlive)
          (by rw [Account.contributeAll_record]; exact hopen), Account.contributeAll_record]
        dsimp only
        omega
    | @refunded _ who token refundable pos currency =>
        have hopen := refundable.unpaid phase
        by_cases hlive : a.record.isCancelled = false
        · rw [books.escrow_open hlive hopen, books'.escrow_open hlive hopen, hlive]
          simp only [Account.refund, Bool.false_eq_true, if_false]
          omega
        · simp [Account.escrow, Account.refund, Bool.eq_true_of_not_eq_false hlive]
    | withdrew payable noPlan =>
        have hnone : milestonesPaid c tr = 0 := by
          rcases planned with ⟨-, hnone⟩ | ⟨hplan, -⟩
          · exact prorated.none hnone
          · exact absurd noPlan hplan
        rw [passage.escrow_withheld payable,
          books.escrow_open payable.notCancelled payable.notWithdrawn, hnone]
        omega
    | @released _ token reserve hreserve unreleased' due withdrawn =>
        have hlive := phase.notCancelled withdrawn
        simp [Account.escrow, Account.releaseReserve, hlive, withdrawn, hreserve, unreleased,
          unreleased']
    | cancelled live unpaid goalMissed =>
        obtain ⟨heffective, hnone⟩ := hclean (.inl rfl)
        have hraised := books.effective_nonneg
        have hsame := heffective a.record rfl
        rw [books.escrow_open live.notCancelled unpaid, prorated.none hnone]
        simp only [Account.escrow, Account.cancelByCreator, Account.cancel, if_true]
        omega
    | adminCancelled live unpaid =>
        obtain ⟨heffective, hnone⟩ := hclean (.inr rfl)
        have hraised := books.effective_nonneg
        have hsame := heffective a.record rfl
        rw [books.escrow_open live.notCancelled unpaid, prorated.none hnone]
        simp only [Account.escrow, Account.cancel, if_true]
        omega
    | claimed => exact absurd rfl hclaim
    | _ => exact (Int.add_zero _).symm

/-! ## All campaigns -/

/-- The conditions under which the counter is right, as a run meets them. -/
structure CountsRight (terms : Nat → Int × Nat) (tr : List Receipt) : Prop where
  cancels : ∀ r ∈ tr, ∀ c, r.CancelsWhole c
  closes : ∀ c, ClosedUnder c (terms c).1 (terms c).2 tr

theorem CountsRight.earlier {terms : Nat → Int × Nat} {r : Receipt}
    (h : CountsRight terms (r :: tr)) : CountsRight terms tr where
  cancels x hx := h.cancels x (List.mem_cons_of_mem _ hx)
  closes c := by
    rintro ⟨x, hx, hcloses⟩ y hy
    exact h.closes c ⟨x, List.mem_cons_of_mem _ hx, hcloses⟩ y (List.mem_cons_of_mem _ hy)

theorem escrow_of_none {s : State} (hnone : (view s).account c = none) : escrow tr s c = 0 := by
  have hcampaign : (view s).campaign c = none := by simpa [View.account] using hnone
  rw [escrow, campaign_view, hcampaign]

/-- A newborn campaign holds nothing. -/
theorem Born.escrow {s : State} {call : Call} (ha : (view s).account c = some a)
    (hborn : Born env v call c a) (hacts : ∀ r ∈ tr, r.call.act c = .other) :
    escrow tr s c = 0 := by
  have hnone : milestonesPaid c tr = 0 := paidFor_eq_zero rfl hacts
  rw [escrow_eq ha, hnone]
  cases hborn
  exact (Int.sub_zero _).trans total_zero

theorem run_counter {terms : Nat → Int × Nat} (run : Run (machine host) tr cfg)
    (hright : CountsRight terms tr) : cfg.state.contributions.totalRaised =
      ∑ c ∈ Finset.Icc 1 cfg.state.campaigns.campaignCount, escrow tr cfg.state c := by
  revert hright
  refine run.invariant (I := fun tr cfg => CountsRight terms tr →
    (view cfg.state).totalRaised = ∑ c ∈ (view cfg.state).ids, escrow tr cfg.state c) ?_ ?_ ?_
  · intro r cfg hstart _
    have hfresh := start_fresh hstart
    rw [hfresh.totalRaised, View.ids, hfresh.campaignCount]
    rfl
  · rintro tr cfg r cfg' run ih ⟨hvalid, hledger, hpre, rfl⟩ hright
    have hsum := ih hright.earlier
    have sane := run_sane run
    have run' := run.step (⟨hvalid, hledger, hpre, rfl⟩ :
      (machine host).Step cfg r ⟨r.env.ledger, r.post⟩)
    have habsent := fun c => run_absent run (c := c)
    rw [← hpre] at sane hsum habsent
    obtain ⟨⟨delta, hraised, hexisting⟩, hfree, hcount⟩ := hvalid.stepped sane
    have hold : ∀ c ∈ (view r.pre).ids,
        escrow (r :: tr) r.post c = escrow tr r.pre c + delta c := by
      intro c hc
      obtain ⟨a, ha⟩ := sane.account_of_mem hc
      obtain ⟨a', ha', hstep⟩ := hexisting c a ha
      have passage : Passage host c tr cfg r _ _ _ a a' :=
        ⟨run, hpre, hledger.1, ha, sane.toConfigured, rfl, rfl, hstep⟩
      rw [escrow_eq ha, escrow_eq ha']
      exact passage.escrow (hright.cancels r List.mem_cons_self c)
        (run_paidWhole run' (hright.closes c) ha')
    have hboth : ∑ c ∈ (view r.pre).ids, escrow (r :: tr) r.post c =
        (view r.post).totalRaised := by
      rw [Finset.sum_congr rfl hold, Finset.sum_add_distrib, ← hsum, hraised]
    rcases hcount with hsame | ⟨hnext, a, ha⟩
    · have hids : (view r.post).ids = (view r.pre).ids := by rw [View.ids, View.ids, hsame]
      rw [hids, hboth]
    · have hnone := sane.next_none
      have hids : (view r.post).ids =
          Finset.Icc 1 ((view r.pre).campaignCount + 1) := by rw [View.ids, hnext]
      obtain ⟨hact, ⟨hgone, -⟩ | ⟨-, b, hb, hborn⟩⟩ := hfree _ hnone
      · rw [hgone] at ha
        cases ha
      · have hnew : escrow (r :: tr) r.post ((view r.pre).campaignCount + 1) = 0 :=
          hborn.escrow hb (List.forall_mem_cons.mpr ⟨hact, habsent _ hnone⟩)
        rw [hids, Finset.sum_Icc_succ_top (Nat.le_add_left 1 _), hnew, Int.add_zero]
        exact hboth.symm
  · rintro tr cfg cfg' ih ⟨tokens, -, rfl⟩ hright
    exact ih hright

/-- What is held for a campaign is never negative. -/
theorem run_escrow_nonneg (run : Run (machine host) tr cfg)
    (hclean : ∀ r ∈ tr, r.CancelsWhole c) : 0 ≤ escrow tr cfg.state c := by
  cases hc : (view cfg.state).account c with
  | none => rw [escrow_of_none hc]
  | some a =>
      have prorated := run_prorated run hc
      have planned := run_planned run hc
      obtain ⟨books, hwhole⟩ := run_books run hc
      have hraised : 0 ≤ a.record.amountRaised := books.raised_nonneg
      rw [escrow_eq hc, Account.escrow]
      split
      next => exact Int.le_refl 0
      next =>
          split
          next => exact (run_reserves run hc).unreleased_nonneg
          next hopen =>
              rw [books.live]
              have hopen := Bool.eq_false_of_not_eq_true hopen
              rcases hwhole with whole | hrefundable
              · have hle := prorated.le_raised planned hraised hopen
                rw [books.effective_eq whole]
                omega
              · have funded := run_funded run (fun r hr => (hclean r hr).unclaimed) hc
                have hnone : milestonesPaid c tr = 0 :=
                  paidFor_eq_zero_of_none fun r hr => Bool.eq_false_of_not_eq_true fun hclaim =>
                    funded.no_payout hrefundable
                      ⟨r, hr, by rw [Act.isPayout, hclaim, Bool.or_true]⟩
                have heffective := books.effective_nonneg
                omega

/-! ## Runs that meet the conditions -/

/-- No call cancels a campaign, and milestones are claimed of campaign `c` alone. -/
def Call.settlesOnly (c : Nat) : Call → Bool
  | .claimMilestone id _ => id == c
  | .cancelCampaign _ | .adminCancelCampaign .. => false
  | _ => true

theorem Call.settlesOnly.not_cancel {call : Call} (h : call.settlesOnly c = true) (other : Nat) :
    call.act other ≠ .cancel ∧ call.act other ≠ .adminCancel := by
  cases call with
  | cancelCampaign id => cases h
  | adminCancelCampaign admin id reason => cases h
  | _ =>
      simp only [Call.act]
      first | (split <;> simp) | simp

theorem Call.settlesOnly.claims {call : Call} (h : call.settlesOnly c = true) {other : Nat}
    (hclaim : (call.act other).isMilestoneClaim = true) : other = c := by
  cases call with
  | claimMilestone id milestoneId =>
      by_cases hid : other = id
      · exact hid.trans (beq_iff_eq.mp h)
      · rw [Call.act, if_neg hid] at hclaim
        cases hclaim
  | _ =>
      simp only [Call.act] at hclaim
      first | cases hclaim | (split at hclaim <;> cases hclaim)

theorem countsRight_of_settlesOnly {raised : Int} {feeBps : Nat}
    (h : ∀ r ∈ tr, r.call.settlesOnly c = true ∧ r.ClaimsUnder c raised feeBps) :
    CountsRight (fun _ => (raised, feeBps)) tr where
  cancels r hr other hact := by
    have hnot := Call.settlesOnly.not_cancel (h r hr).1 other
    exact (hact.elim hnot.1 hnot.2).elim
  closes other _ r hr hclaim := by
    obtain rfl := Call.settlesOnly.claims (h r hr).1 hclaim
    exact (h r hr).2 hclaim

/-! ## The law -/

/-- While cancellations find nothing refunded or claimed, and campaigns closed by
milestone claims had them all under the same terms, the counter is the sum of what is
held for the campaigns. -/
theorem escrowCounter_agrees {terms : Nat → Int × Nat} (run : Run (machine host) tr cfg)
    (hcancels : ∀ r ∈ tr, ∀ c, r.CancelsWhole c)
    (hcloses : ∀ c, ClosedUnder c (terms c).1 (terms c).2 tr) :
    cfg.state.contributions.totalRaised =
        ∑ c ∈ Finset.Icc 1 cfg.state.campaigns.campaignCount, escrow tr cfg.state c ∧
      (∀ c, 0 ≤ escrow tr cfg.state c) ∧ 0 ≤ cfg.state.contributions.totalRaised := by
  have hsum := run_counter run ⟨hcancels, hcloses⟩
  have hnonneg : ∀ c, 0 ≤ escrow tr cfg.state c :=
    fun c => run_escrow_nonneg run fun r hr => hcancels r hr c
  exact ⟨hsum, hnonneg, hsum ▸ Finset.sum_nonneg fun c _ => hnonneg c⟩

theorem escrowCounter_sample :
    ∃ tr cfg, Run (machine Sample.host) tr cfg ∧ cfg.state.campaigns.campaignCount = 1 ∧
      cfg.state.contributions.totalRaised = 50000 ∧ escrow tr cfg.state 1 = 50000 := by
  have h : Sample.Ends 300 Sample.halfPaid fun tr cfg =>
      cfg.state.campaigns.campaignCount = 1 ∧ cfg.state.contributions.totalRaised = 50000 ∧
        ∀ r ∈ tr, r.call.settlesOnly 1 = true ∧ r.ClaimsUnder 1 100000 300 := by
    decide +kernel
  obtain ⟨tr, cfg, run, hcount, htotal, honly⟩ := h.run
  have hright := countsRight_of_settlesOnly honly
  have hsum := (escrowCounter_agrees run hright.cancels hright.closes).1
  rw [hcount, Finset.Icc_self, Finset.sum_singleton] at hsum
  exact ⟨tr, cfg, run, hcount, htotal, hsum.symm.trans htotal⟩

/-- After a refund the creator cancels: the whole amount raised is deducted once more. -/
def Sample.refundedThenCancelled : List Request :=
  refunded ++ [ask 900001 creator (.cancelCampaign 1)]

theorem escrowCounter_negative :
    ∃ tr cfg, Run (machine Sample.host) tr cfg ∧
      cfg.state.contributions.totalRaised = -30000 ∧
      cfg.state.contributions.totalRaised ≠
        ∑ c ∈ Finset.Icc 1 cfg.state.campaigns.campaignCount, escrow tr cfg.state c := by
  have h : Sample.Ends 0 Sample.refundedThenCancelled fun _ cfg =>
      cfg.state.contributions.totalRaised = -30000 ∧ cfg.state.campaigns.campaignCount = 1 ∧
        (cfg.state.campaigns.campaign 1).map Campaign.isCancelled = some true := by
    decide +kernel
  obtain ⟨tr, cfg, run, htotal, hcount, hcampaign⟩ := h.run
  obtain ⟨campaign, hcampaign, hcancelled⟩ := Option.map_eq_some_iff.mp hcampaign
  refine ⟨tr, cfg, run, htotal, ?_⟩
  rw [htotal, hcount, Finset.Icc_self, Finset.sum_singleton, escrow, hcampaign]
  simp [hcancelled]

end ProofOfHeart
