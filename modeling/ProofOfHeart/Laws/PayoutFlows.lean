import ProofOfHeart.Laws.MilestonePlans

/-! # Two ways to pay a campaign out

Under unchanged terms the milestone claims, in whatever order they come, give the
platform and the creator together what the payout in one go would have given them,
and every claim but the last gives each of them its rounded-down slice.
-/

namespace ProofOfHeart

open Checked Function Trace

variable {host : Host} {tr : List Receipt} {cfg : Config} {c : Nat} {a a' : Account}
  {env : Env} {v : View} {act : Act} {moves : List Transfer} {delta raised : Int} {feeBps : Nat}

/-! ## One claim -/

/-- A milestone claim pays the admin and the creator of the moment, and unless it is the
last one exactly the rounded-down slices. -/
def Receipt.PaysSlice (c : Nat) (raised : Int) (feeBps : Nat) (r : Receipt) : Prop :=
  ∀ milestoneId, r.call.act c = .claimMilestone milestoneId →
    ∃ token admin campaign, getCampaignToken r.pre c = .ok token ∧
      r.pre.admin.admin = some admin ∧ r.pre.campaigns.campaign c = some campaign ∧
      r.post.tokens.moved = claimTransfers token admin campaign.creator
        { creator := creatorCut r.post.tokens.moved, fee := platformCut r.post.tokens.moved } ∧
      ∃ milestone ∈ r.pre.campaigns.campaignMilestones c, milestone.id = milestoneId ∧
        ((∃ other ∈ r.pre.campaigns.campaignMilestones c, other.id ≠ milestoneId ∧
            r.pre.campaigns.milestoneClaimed c other.id = false) →
          platformCut r.post.tokens.moved =
              floorBps (ceilBps raised feeBps) milestone.payoutBps ∧
            creatorCut r.post.tokens.moved =
              floorBps (raised - ceilBps raised feeBps) milestone.payoutBps)

theorem allClaimed_eq_false {milestones : List Milestone} {claimed : Nat → Bool}
    {milestoneId : Nat} : allClaimed milestones claimed milestoneId = false ↔
      ∃ other ∈ milestones, other.id ≠ milestoneId ∧ claimed other.id = false := by
  simp [allClaimed]

theorem Passage.paysSlice {r : Receipt} (passage : Passage host c tr cfg r act moves delta a a')
    (hterms : r.ClaimsUnder c raised feeBps) : r.PaysSlice c raised feeBps := by
  intro milestoneId hcall
  have hclaim : act.isMilestoneClaim = true := by
    rw [← passage.hact, hcall]
    rfl
  obtain ⟨milestone, hact, claim⟩ := passage.claimUnder hterms hclaim
  obtain rfl : milestoneId = milestone.id :=
    Act.claimMilestone.inj (hcall.symm.trans (passage.hact.trans hact))
  obtain ⟨token, admin, currency, hadmin, htransfers⟩ := claim.transfers
  obtain ⟨hrecord, hfunds⟩ := View.account_eq_some.mp passage.before
  rw [passage.hmoves, milestones_view, claimed_view, hfunds]
  refine ⟨token, admin, a.record, (getCampaignToken_eq_ok _).mpr currency, hadmin, hrecord,
    htransfers, milestone, claim.mem, rfl, fun hother => ?_⟩
  have hmore : allClaimed a.funds.milestones a.funds.claimed milestone.id = false :=
    allClaimed_eq_false.mpr hother
  rw [claim.platform, claim.creator, sliceOf, sliceOf, hmore, if_neg Bool.false_ne_true,
    if_neg Bool.false_ne_true]
  exact ⟨rfl, rfl⟩

theorem run_paysSlice (run : Run (machine host) tr cfg)
    (hterms : ∀ r ∈ tr, r.ClaimsUnder c raised feeBps) :
    ∀ r ∈ tr, r.PaysSlice c raised feeBps := by
  have absent : ∀ {tr : List Receipt}, (∀ r ∈ tr, r.call.act c = .other) →
      ∀ r ∈ tr, r.PaysSlice c raised feeBps := by
    intro tr hacts r hr milestoneId hcall
    rw [hacts r hr] at hcall
    cases hcall
  cases hc : (view cfg.state).account c with
  | none => exact absent (run_absent run hc)
  | some a =>
      refine account_run (C := Receipt.ClaimsUnder c raised feeBps)
        (I := fun tr _ _ => ∀ r ∈ tr, r.PaysSlice c raised feeBps)
        (fun hacts _ => absent hacts) (fun passage _ hr ih => ?_) run hterms hc
      exact List.forall_mem_cons.mpr ⟨passage.paysSlice hr, ih⟩

/-! ## All claims -/

/-- Until the last claim some milestone of the plan is unclaimed. -/
def Account.Unfinished (a : Account) : Prop :=
  a.record.fundsWithdrawn = false → a.funds.milestones ≠ [] →
    ∃ id ∈ a.funds.milestones.map Milestone.id, a.funds.claimed id = false

theorem run_unfinished (run : Run (machine host) tr cfg)
    (ha : (view cfg.state).account c = some a) : a.Unfinished := by
  intro hopen hsome
  by_contra hall
  have hclosed := (run_closedWhenClaimed run ha hsome).mpr fun milestone hmem => by
    by_contra hfree
    exact hall ⟨milestone.id, List.mem_map_of_mem hmem, Bool.eq_false_of_not_eq_true hfree⟩
  exact Bool.noConfusion (hopen.symm.trans hclosed)

theorem claimed_whole (run : Run (machine host) tr cfg)
    (hterms : ∀ r ∈ tr, r.ClaimsUnder c raised feeBps)
    (hplan : cfg.state.campaigns.campaignMilestones c ≠ [])
    (hclaimed : ∀ milestone ∈ cfg.state.campaigns.campaignMilestones c,
      cfg.state.campaigns.milestoneClaimed c milestone.id = true) :
    claimedBy platformCut c tr = ceilBps raised feeBps ∧
      claimedBy creatorCut c tr = raised - ceilBps raised feeBps := by
  obtain ⟨a, ha⟩ := run_owner run hplan
  obtain ⟨hlist, hmarks⟩ := account_plan ha
  rw [hlist] at hplan hclaimed
  rw [hmarks] at hclaimed
  have hclosed : a.record.fundsWithdrawn = true := by
    by_contra hopen
    obtain ⟨id, hid, hfree⟩ := run_unfinished run ha (Bool.eq_false_of_not_eq_true hopen) hplan
    obtain ⟨milestone, hmem, rfl⟩ := List.mem_map.mp hid
    exact Bool.noConfusion (hfree.symm.trans (hclaimed milestone hmem))
  exact ((run_streamed run hterms ha).whole hclosed hplan).2

/-! ## The payout in one go -/

/-- What the payout in one go gives: the fee first, then the creator's part, of which the
reserve is withheld. -/
theorem withdrawal_splits {s' : State} {campaign : Campaign} (run : Run (machine host) tr cfg)
    (h : invoke env cfg.state (.withdrawFunds c) = .ok s')
    (hcampaign : cfg.state.campaigns.campaign c = some campaign) :
    platformCut s'.tokens.moved =
        ceilBps campaign.amountRaised (effectiveFee cfg.state campaign) ∧
      creatorCut s'.tokens.moved + unreleased (s'.campaigns.campaignReserve c) =
        campaign.amountRaised -
          ceilBps campaign.amountRaised (effectiveFee cfg.state campaign) := by
  have hvalid : Receipt.Valid env.host ⟨env, .withdrawFunds c, cfg.state, s'⟩ := ⟨rfl, h⟩
  obtain ⟨a, token, recipient, ha, payable, -, -, -, -, -, hview⟩ :=
    withdrawFunds_spec hvalid.dispatched
  have hrun : (view cfg.state).account c = some a := ha
  obtain ⟨hrecord, -⟩ := View.account_eq_some.mp hrun
  obtain rfl : campaign = a.record := Option.some.inj (hcampaign.symm.trans hrecord)
  have sane := run_sane run
  obtain ⟨books, hwhole⟩ := run_books run hrun
  have heffective := books.effective_eq (hwhole.resolve_right payable.not_refundable)
  have hreserve : 0 ≤ ((view cfg.state).split a).reserve :=
    splitFunds_reserve_nonneg books.effective_nonneg
      (View.effectiveFee_le sane.toConfigured (run_phase run hrun))
  have hmoved : s'.tokens.moved =
      [⟨token, contractAddress, recipient, ((view cfg.state).split a).fee⟩,
        ⟨token, contractAddress, a.record.creator, ((view cfg.state).split a).creator⟩] :=
    congrArg (fun v : View => v.tokens.moved) hview
  have hheld : unreleased (s'.campaigns.campaignReserve c) =
      ((view cfg.state).split a).reserve := by
    have hfunds : (view s').funds c = (a.close.withhold env.timestamp
        ((view cfg.state).vesting a).1 ((view cfg.state).split a).reserve).funds := by
      have hafter := congrArg (fun v : View => v.funds c) hview
      exact hafter.trans (update_self _ _ _)
    rw [reserve_view, hfunds]
    exact unreleased_withhold ((run_reserves run hrun).afterPayout payable.notWithdrawn) hreserve
  have hsum := splitFunds_sum a.record.effectiveAmountRaised
    ((view cfg.state).effectiveFee a.record) ((view cfg.state).vesting a).2
  have hfee : ((view cfg.state).split a).fee =
      ceilBps a.record.effectiveAmountRaised ((view cfg.state).effectiveFee a.record) := rfl
  rw [hmoved, hheld, effectiveFee_view, ← heffective, ← hfee]
  refine ⟨Int.add_zero _, ?_⟩
  have hcut : creatorCut [⟨token, contractAddress, recipient, ((view cfg.state).split a).fee⟩,
      ⟨token, contractAddress, a.record.creator, ((view cfg.state).split a).creator⟩] =
      ((view cfg.state).split a).creator := rfl
  rw [hcut, View.split]
  omega

/-! ## Both flows -/

/-- Every claim but the last pays the rounded-down slices, and when all milestones have
been claimed the platform and the creator have received what the payout in one go gives
on any campaign with the same amount raised and the same fee. -/
theorem payoutFlows_agree (run : Run (machine host) tr cfg)
    (hterms : ∀ r ∈ tr, r.ClaimsUnder c raised feeBps) :
    (∀ r ∈ tr, r.PaysSlice c raised feeBps) ∧
      (cfg.state.campaigns.campaignMilestones c ≠ [] →
        (∀ milestone ∈ cfg.state.campaigns.campaignMilestones c,
          cfg.state.campaigns.milestoneClaimed c milestone.id = true) →
        (claimedBy platformCut c tr = ceilBps raised feeBps ∧
          claimedBy creatorCut c tr = raised - ceilBps raised feeBps) ∧
        ∀ (host' : Host) (tr' : List Receipt) (cfg' : Config) (env : Env) (other : Nat)
          (campaign : Campaign) (s' : State), Run (machine host') tr' cfg' →
          cfg'.state.campaigns.campaign other = some campaign →
          campaign.amountRaised = raised → effectiveFee cfg'.state campaign = feeBps →
          invoke env cfg'.state (.withdrawFunds other) = .ok s' →
          platformCut s'.tokens.moved = claimedBy platformCut c tr ∧
            creatorCut s'.tokens.moved + unreleased (s'.campaigns.campaignReserve other) =
              claimedBy creatorCut c tr) := by
  refine ⟨run_paysSlice run hterms, fun hplan hclaimed => ?_⟩
  obtain ⟨hplatform, hcreator⟩ := claimed_whole run hterms hplan hclaimed
  refine ⟨⟨hplatform, hcreator⟩, ?_⟩
  intro host' tr' cfg' env other campaign s' run' hcampaign hraised hfee hinvoke
  rw [hplatform, hcreator, ← hraised, ← hfee]
  exact withdrawal_splits run' hinvoke hcampaign

/-- An odd amount is claimed in two halves, the second one first. -/
def Sample.claimedBackwards : List Request :=
  planned ++ [ask 1 alice (.contribute 1 alice 50001), ask 1 bob (.contribute 1 bob 50002),
    ask 2 creator (.claimMilestone 1 1), ask 3 creator (.claimMilestone 1 0)]

/-- The same amount is paid out in one go. -/
theorem payoutFlows_sample :
    ∃ tr cfg, Run (machine Sample.host) tr cfg ∧ claimedBy platformCut 1 tr = 3001 ∧
      ∃ tr' cfg' s', Run (machine Sample.host) tr' cfg' ∧
        invoke (Sample.env 2 Sample.creator) cfg'.state (.withdrawFunds 1) = .ok s' ∧
        platformCut s'.tokens.moved = claimedBy platformCut 1 tr ∧
        creatorCut s'.tokens.moved + unreleased (s'.campaigns.campaignReserve 1) =
          claimedBy creatorCut 1 tr := by
  have hclaims : Sample.Ends 300 Sample.claimedBackwards fun tr cfg =>
      (∀ r ∈ tr, r.ClaimsUnder 1 100003 300) ∧
        cfg.state.campaigns.campaignMilestones 1 ≠ [] ∧
        ∀ milestone ∈ cfg.state.campaigns.campaignMilestones 1,
          cfg.state.campaigns.milestoneClaimed 1 milestone.id = true := by
    decide +kernel
  have hwhole : Sample.Ends 300 (Sample.opened 0 ++
      [Sample.ask 1 Sample.alice (.contribute 1 Sample.alice 100003)]) fun _ cfg =>
      (invoke (Sample.env 2 Sample.creator) cfg.state (.withdrawFunds 1)).toOption.isSome ∧
        (cfg.state.campaigns.campaign 1).map (fun campaign =>
          (campaign.amountRaised, effectiveFee cfg.state campaign)) = some (100003, 300) := by
    decide +kernel
  obtain ⟨tr, cfg, run, hterms, hplan, hclaimed⟩ := hclaims.run
  obtain ⟨tr', cfg', run', hsome, hcampaign⟩ := hwhole.run
  obtain ⟨campaign, hcampaign, hpair⟩ := Option.map_eq_some_iff.mp hcampaign
  obtain ⟨hraised, hfee⟩ := Prod.mk.inj hpair
  obtain ⟨⟨hplatform, -⟩, hagree⟩ := (payoutFlows_agree run hterms).2 hplan hclaimed
  cases hinvoke : invoke (Sample.env 2 Sample.creator) cfg'.state (.withdrawFunds 1) with
  | error abort =>
      rw [hinvoke] at hsome
      cases hsome
  | ok s' =>
      exact ⟨tr, cfg, run, hplatform.trans (by decide), tr', cfg', s', run', hinvoke,
        hagree _ _ _ _ _ _ _ run' hcampaign hraised hfee hinvoke⟩

end ProofOfHeart
