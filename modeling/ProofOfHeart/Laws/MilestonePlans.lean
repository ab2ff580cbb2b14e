import ProofOfHeart.Account.Turn
import ProofOfHeart.Laws.Milestones

/-! # The milestones of a campaign and the marks on them

A plan is accepted once. From then on the admin marks its milestones one at a time and
the creator claims marked ones; the campaign is closed by the claim of the last one.
-/

namespace ProofOfHeart

open Checked Function Trace

variable {host : Host} {tr : List Receipt} {cfg : Config} {c id : Nat} {a a' : Account}
  {env : Env} {v v' : View} {act : Act} {moves : List Transfer} {delta : Int} {call : Call}
  {r : Receipt} {milestones milestones' : List Milestone} {milestone : Milestone}
  {claimed claimed' : Nat → Bool}

/-! ## One call -/

/-- What a call does to the milestones of campaign `c` and to the marks of the claimed
ones. -/
inductive PlanStep (c : Nat) :
    Call → List Milestone → (Nat → Bool) → List Milestone → (Nat → Bool) → Prop
  | kept {call : Call} {milestones : List Milestone} {claimed : Nat → Bool} :
      PlanStep c call milestones claimed milestones claimed
  | plan {milestones : List Milestone} {claimed : Nat → Bool} (hplan : Plan milestones) :
      PlanStep c (.setMilestones c milestones) [] claimed (unverified milestones) claimed
  | mark {admin : Address} {milestones : List Milestone} {claimed : Nat → Bool}
      {milestone : Milestone} (mem : milestone ∈ milestones)
      (unmarked : ∀ other ∈ milestones, other.id = milestone.id → other.verified = false) :
      PlanStep c (.verifyMilestone admin c milestone.id) milestones claimed
        (verifiedAt milestone.id milestones) claimed
  | claim {milestones : List Milestone} {claimed : Nat → Bool} {milestone : Milestone}
      (mem : milestone ∈ milestones) (marked : milestone.verified = true)
      (unclaimed : claimed milestone.id = false) :
      PlanStep c (.claimMilestone c milestone.id) milestones claimed milestones
        (update claimed milestone.id true)

/-- The milestones of a campaign and the marks of the claimed ones are as before. -/
def SamePlan (f f' : Funds) : Prop := f'.milestones = f.milestones ∧ f'.claimed = f.claimed

theorem SamePlan.step {f f' : Funds} (h : SamePlan f f') :
    PlanStep c call f.milestones f.claimed f'.milestones f'.claimed := by
  rw [h.1, h.2]
  exact .kept

theorem View.setAccount_funds_self : (v.setAccount id a').funds id = a'.funds := update_self ..

theorem View.setAccount_funds_of_ne (hc : c ≠ id) : (v.setAccount id a').funds c = v.funds c :=
  update_of_ne hc ..

theorem View.setAccount_samePlan (ha : v.account id = some a) (hsame : SamePlan a.funds a'.funds)
    (c : Nat) : SamePlan (v.funds c) ((v.setAccount id a').funds c) := by
  by_cases hc : c = id
  · rw [hc, View.setAccount_funds_self, (View.account_eq_some.mp ha).2]
    exact hsame
  · rw [View.setAccount_funds_of_ne hc]
    exact ⟨rfl, rfl⟩

theorem Batched.samePlan {now : Nat} {who : Address} {items : List (Nat × Int)}
    (batched : Batched now who items v v') (c : Nat) : SamePlan (v.funds c) (v'.funds c) := by
  cases hcampaign : v.campaign c with
  | none =>
      rw [batched.funds c hcampaign]
      exact ⟨rfl, rfl⟩
  | some record =>
      have haccount := batched.account c
      rw [View.account_of_campaign hcampaign] at haccount
      obtain ⟨-, hfunds⟩ := View.account_eq_some.mp haccount
      obtain ⟨_, _, _, _, heq⟩ := Account.contributeAll_eq ⟨record, v.funds c⟩ v.admin.admin who
        (amountsTo c items)
      rw [hfunds]
      dsimp only
      rw [heq]
      exact ⟨rfl, rfl⟩

theorem Effect.planStep (h : Effect env v call v')
    (hmark : ∀ admin milestoneId, call ≠ .verifyMilestone admin c milestoneId) :
    PlanStep c call (v.funds c).milestones (v.funds c).claimed (v'.funds c).milestones
      (v'.funds c).claimed := by
  cases h with
  | contribute ha | refund ha | withdraw ha | release ha | cancel ha | adminCancel ha | edit ha
  | handOver ha | deposit ha | claimRevenue ha | claimCreatorRevenue ha =>
      refine SamePlan.step (View.setAccount_samePlan ha ?_ c)
      exact ⟨rfl, rfl⟩
  | create =>
      dsimp only
      by_cases hc : c = v.campaignCount + 1
      · rw [hc, View.setAccount_funds_self]
        exact .kept
      · rw [View.setAccount_funds_of_ne hc]
        exact .kept
  | batch batched => exact (batched.samePlan c).step
  | @plan id a milestones ha _ _ noPlan hplan =>
      by_cases hc : c = id
      · subst hc
        rw [View.setAccount_funds_self, (View.account_eq_some.mp ha).2, noPlan]
        exact .plan hplan
      · rw [View.setAccount_funds_of_ne hc]
        exact .kept
  | @verifyMilestone id milestoneId admin a ha =>
      have hc : c ≠ id := by
        rintro rfl
        exact hmark admin milestoneId rfl
      rw [View.setAccount_funds_of_ne hc]
      exact .kept
  | @claimMilestone id a token admin milestone ha payable mem marked unclaimed =>
      by_cases hc : c = id
      · subst hc
        dsimp only
        rw [View.setAccount_funds_self, (View.account_eq_some.mp ha).2]
        exact .claim mem marked unclaimed
      · dsimp only
        rw [View.setAccount_funds_of_ne hc]
        exact .kept
  | verifications h =>
      rw [h.unchanged.1]
      exact .kept
  | administer h =>
      obtain ⟨store, -, rfl⟩ := h
      exact .kept
  | outside => exact .kept

theorem Receipt.Valid.planStep (h : r.Valid host) (conf : (view r.pre).Configured) (c : Nat) :
    PlanStep c r.call (r.pre.campaigns.campaignMilestones c)
      (r.pre.campaigns.milestoneClaimed c) (r.post.campaigns.campaignMilestones c)
      (r.post.campaigns.milestoneClaimed c) := by
  by_cases hmark : ∃ admin milestoneId, r.call = .verifyMilestone admin c milestoneId
  · obtain ⟨admin, milestoneId, hcall⟩ := hmark
    have hverify := h.dispatched
    rw [hcall] at hverify ⊢
    obtain ⟨a, milestone, ha, -, mem, rfl, unmarked, hview⟩ := verifyMilestone_spec hverify
    have hpre : (view r.pre).funds c = a.funds := (View.account_eq_some.mp ha).2
    have hpost : (view r.post).funds c =
        { a.funds with milestones := verifiedAt milestone.id a.funds.milestones } := by
      rw [hview]
      exact View.setAccount_funds_self
    rw [milestones_view, milestones_view, claimed_view, claimed_view, hpre, hpost]
    exact .mark mem unmarked
  · exact (h.effect conf).planStep fun admin milestoneId hcall => hmark ⟨admin, milestoneId, hcall⟩

/-! ## Marks -/

/-- One unmarked milestone is marked, and everything else stays. -/
def MarksOne (before after : List Milestone) : Prop :=
  ∃ first milestone rest, before = first ++ milestone :: rest ∧ milestone.verified = false ∧
    after = first ++ { milestone with verified := true } :: rest

theorem verifiedAt_of_ne (h : ∀ other ∈ milestones, other.id ≠ id) :
    verifiedAt id milestones = milestones := by
  refine (List.map_congr_left fun other hother => ?_).trans (List.map_id _)
  exact if_neg (h other hother)

theorem verifiedAt_marksOne (hdistinct : (milestones.map Milestone.id).Nodup)
    (mem : milestone ∈ milestones) (unmarked : milestone.verified = false) :
    MarksOne milestones (verifiedAt milestone.id milestones) := by
  obtain ⟨first, rest, rfl⟩ := List.append_of_mem mem
  refine ⟨first, milestone, rest, rfl, unmarked, ?_⟩
  rw [List.map_append, List.map_cons, List.nodup_append, List.nodup_cons] at hdistinct
  obtain ⟨-, ⟨hrest, -⟩, hfirst⟩ := hdistinct
  have hbefore : verifiedAt milestone.id first = first :=
    verifiedAt_of_ne fun other hother =>
      hfirst other.id (List.mem_map_of_mem hother) milestone.id List.mem_cons_self
  have hafter : verifiedAt milestone.id rest = rest :=
    verifiedAt_of_ne fun other hother heq => hrest (heq ▸ List.mem_map_of_mem hother)
  rw [verifiedAt] at hbefore hafter ⊢
  rw [List.map_append, List.map_cons, hbefore, hafter, if_pos rfl]

/-- An accepted plan only has its milestones marked, one in a call. -/
theorem PlanStep.marks (h : PlanStep c call milestones claimed milestones' claimed')
    (shape : PlanShape milestones) :
    milestones' = milestones ∨ MarksOne milestones milestones' := by
  cases h with
  | kept | claim => exact .inl rfl
  | plan => exact absurd shape.whole (by decide)
  | mark mem unmarked =>
      exact .inr (verifiedAt_marksOne shape.distinct mem (unmarked _ mem rfl))

/-- A plan is short, and only its own marked milestones are claimed. -/
structure PlanSound (milestones : List Milestone) (claimed : Nat → Bool) : Prop where
  short : milestones.length ≤ maxMilestones
  listed : ∀ id, claimed id = true →
    ∃ milestone ∈ milestones, milestone.id = id ∧ milestone.verified = true

theorem PlanStep.sound (h : PlanStep c call milestones claimed milestones' claimed')
    (sound : PlanSound milestones claimed) : PlanSound milestones' claimed' := by
  cases h with
  | kept => exact sound
  | plan hplan =>
      refine ⟨?_, fun id hclaimed => ?_⟩
      · rw [unverified, List.length_map]
        exact hplan.short
      · obtain ⟨milestone, mem, -⟩ := sound.listed id hclaimed
        cases mem
  | @mark _ _ _ marked mem unmarked =>
      refine ⟨?_, fun id hclaimed => ?_⟩
      · rw [verifiedAt, List.length_map]
        exact sound.short
      · obtain ⟨milestone, hmem, rfl, hverified⟩ := sound.listed id hclaimed
        have hother : milestone.id ≠ marked.id := fun heq => by
          rw [unmarked milestone hmem heq] at hverified
          cases hverified
        refine ⟨milestone, List.mem_map.mpr ⟨milestone, hmem, if_neg hother⟩, rfl, hverified⟩
  | @claim _ _ milestone mem marked unclaimed =>
      refine ⟨sound.short, fun id hclaimed => ?_⟩
      by_cases hid : id = milestone.id
      · exact ⟨milestone, mem, hid.symm, marked⟩
      · rw [update_of_ne hid] at hclaimed
        exact sound.listed id hclaimed

theorem run_planSound (run : Run (machine host) tr cfg) (c : Nat) :
    PlanSound (cfg.state.campaigns.campaignMilestones c)
      (cfg.state.campaigns.milestoneClaimed c) := by
  refine run.invariant (I := fun _ cfg => PlanSound (cfg.state.campaigns.campaignMilestones c)
    (cfg.state.campaigns.milestoneClaimed c)) ?_ ?_ ?_
  · intro r cfg hstart
    rw [milestones_view, claimed_view, (start_fresh hstart).funds]
    exact ⟨Nat.zero_le _, fun id hclaimed => Bool.noConfusion hclaimed⟩
  · rintro tr cfg r cfg' run sound ⟨hvalid, -, hpre, rfl⟩
    have sane := run_sane run
    rw [← hpre] at sane sound
    exact (hvalid.planStep sane.toConfigured c).sound sound
  · rintro tr cfg cfg' sound ⟨tokens, -, rfl⟩
    exact sound

/-! ## The last claim -/

/-- A campaign with a plan is closed exactly when all its milestones have been claimed. -/
def Account.ClosedWhenClaimed (a : Account) : Prop :=
  a.funds.milestones ≠ [] → (a.record.fundsWithdrawn = true ↔
    ∀ milestone ∈ a.funds.milestones, a.funds.claimed milestone.id = true)

theorem AccountStep.closedWhenClaimed (h : AccountStep env v c act moves delta a a')
    (planned : a.Planned) (closed : a.ClosedWhenClaimed) : a'.ClosedWhenClaimed := by
  cases h with
  | contributed =>
      obtain ⟨_, _, _, _, heq⟩ := a.contributeAll_eq v.admin.admin _ _
      rw [heq]
      exact closed
  | withdrew payable noPlan => exact fun hsome => absurd noPlan hsome
  | @planned _ _ milestones notCancelled unpaid noPlan =>
      intro hsome
      obtain ⟨first, hfirst⟩ := List.exists_mem_of_ne_nil _ hsome
      have hunclaimed : a.funds.claimed first.id = false := by
        rcases planned with ⟨-, hnone⟩ | ⟨hplan, -⟩
        · exact hnone first.id
        · exact absurd noPlan hplan
      refine iff_of_false (fun hclosed => ?_) fun hall => ?_
      · exact Bool.noConfusion (unpaid.symm.trans hclosed)
      · exact Bool.noConfusion (hunclaimed.symm.trans (hall first hfirst))
  | @marked _ _ milestoneId =>
      intro hsome
      have hids : (∀ milestone ∈ verifiedAt milestoneId a.funds.milestones,
          a.funds.claimed milestone.id = true) ↔
          ∀ milestone ∈ a.funds.milestones, a.funds.claimed milestone.id = true := by
        have hforall : ∀ list : List Milestone,
            (∀ milestone ∈ list, a.funds.claimed milestone.id = true) ↔
              ∀ id ∈ list.map Milestone.id, a.funds.claimed id = true :=
          fun list => by rw [List.forall_mem_map]
        rw [hforall, verifiedAt_ids, ← hforall]
      refine (closed fun hempty => hsome ?_).trans hids.symm
      simp only [hempty, verifiedAt, List.map_nil]
  | @claimed _ _ _ milestone payable =>
      intro _
      rw [Account.claimMilestone_record, payable.notWithdrawn, Bool.or_false, allClaimed_iff]
      rfl
  | _ => exact closed

theorem run_closedWhenClaimed (run : Run (machine host) tr cfg)
    (ha : (view cfg.state).account c = some a) : a.ClosedWhenClaimed := by
  refine account_invariant (I := fun _ _ a => a.ClosedWhenClaimed) (fun _ hborn => ?_)
    (fun passage ih => passage.step.closedWhenClaimed passage.planned ih) run ha
  cases hborn
  exact fun hsome => absurd rfl hsome

/-- The other milestones of a plan have been claimed. -/
def OthersClaimed (milestones : List Milestone) (claimed : Nat → Bool) (milestoneId : Nat) :
    Prop :=
  ∀ other ∈ milestones, other.id ≠ milestoneId → claimed other.id = true

theorem allClaimed_iff_others {milestoneId : Nat} :
    allClaimed milestones claimed milestoneId = true ↔
      OthersClaimed milestones claimed milestoneId := by
  simp only [allClaimed, List.all_eq_true, Bool.or_eq_true, decide_eq_true_eq,
    ← or_iff_not_imp_left, OthersClaimed, ne_eq]

/-- The last claim is detected twice: the rest of the basis points is the share of the
milestone, and the loop over the marks finds no other one open. Both hold exactly when the
others have been claimed, and then the claim closes the campaign. -/
def Receipt.ClaimsLast (c : Nat) (r : Receipt) : Prop :=
  ∀ milestoneId, r.call = .claimMilestone c milestoneId →
    ∃ campaign milestone feeTotal sums remaining campaign',
      r.pre.campaigns.campaign c = some campaign ∧ campaign.fundsWithdrawn = false ∧
      milestone ∈ r.pre.campaigns.campaignMilestones c ∧ milestone.id = milestoneId ∧
      ceilShare campaign.amountRaised (effectiveFee r.pre campaign) = .ok feeTotal ∧
      each (addClaimed (r.pre.campaigns.milestoneClaimed c) (campaign.amountRaised - feeTotal))
        (0, 0) (r.pre.campaigns.campaignMilestones c) = .ok sums ∧
      Word.checkedSub bpsDenominator sums.1 = some remaining ∧
      (remaining = milestone.payoutBps ↔ OthersClaimed (r.pre.campaigns.campaignMilestones c)
        (r.pre.campaigns.milestoneClaimed c) milestoneId) ∧
      (allClaimed (r.pre.campaigns.campaignMilestones c) (r.pre.campaigns.milestoneClaimed c)
        milestoneId = true ↔ OthersClaimed (r.pre.campaigns.campaignMilestones c)
          (r.pre.campaigns.milestoneClaimed c) milestoneId) ∧
      r.post.campaigns.campaign c = some campaign' ∧
      (campaign'.fundsWithdrawn = true ↔ OthersClaimed (r.pre.campaigns.campaignMilestones c)
        (r.pre.campaigns.milestoneClaimed c) milestoneId)

theorem Receipt.Valid.claimsLast (h : r.Valid host)
    (planned : ∀ a, (view r.pre).account c = some a → a.Planned) : r.ClaimsLast c := by
  intro milestoneId hcall
  have hclaim : claimMilestone r.env r.pre.clearMoved c milestoneId = .ok r.post := by
    have hdispatch := h.dispatched
    rw [hcall] at hdispatch
    exact hdispatch
  obtain ⟨campaign, milestone, feeTotal, payout, hcampaign, hfind, hfee, hpay⟩ :=
    claimMilestone_payout hclaim
  obtain ⟨sums, hsums, hremaining⟩ := milestonePayout_remaining hpay
  have hcleared : r.pre.clearMoved.campaigns = r.pre.campaigns := rfl
  rw [hcleared] at hcampaign hfind hsums hremaining
  obtain ⟨a, token, admin, _, ha, payable, -, -, -, unclaimed, -, -, -, -, -, hview⟩ :=
    claimMilestone_spec hclaim
  obtain ⟨hlist, hmarks⟩ := account_plan ha
  rw [hcleared] at hlist hmarks
  have hrecord := (View.account_eq_some.mp ha).1
  obtain rfl : campaign = a.record := Option.some.inj (hcampaign.symm.trans hrecord)
  obtain rfl : milestone.id = milestoneId := by simpa using List.find?_some hfind
  have mem : milestone ∈ r.pre.campaigns.campaignMilestones c := List.mem_of_find?_eq_some hfind
  have hlast := last_iff ((planned a ha).shape (hlist ▸ mem)) (hlist ▸ mem) unclaimed
  have hpost : r.post.campaigns.campaign c = some (a.claimMilestone milestone.id).record := by
    have hafter := congrArg (fun v : View => v.account c) hview
    exact (View.account_eq_some.mp (hafter.trans View.setAccount_account_self)).1
  refine ⟨a.record, milestone, feeTotal, sums, _, _, hcampaign, payable.notWithdrawn, mem, rfl,
    hfee, hsums, hremaining, ?_, allClaimed_iff_others, hpost, ?_⟩
  · rw [hlist, hmarks, ← allClaimed_iff_others]
    exact hlast
  · rw [hlist, hmarks, Account.claimMilestone_record, payable.notWithdrawn, Bool.or_false]
    exact allClaimed_iff_others

/-! ## Along a run -/

/-- The milestones of a plan change only by a mark on one of them. -/
def Receipt.MarksOnly (c : Nat) (r : Receipt) : Prop :=
  r.pre.campaigns.campaignMilestones c ≠ [] →
    r.post.campaigns.campaignMilestones c = r.pre.campaigns.campaignMilestones c ∨
      MarksOne (r.pre.campaigns.campaignMilestones c) (r.post.campaigns.campaignMilestones c)

theorem run_planReceipts (run : Run (machine host) tr cfg) :
    ∀ r ∈ tr, ∀ c, r.MarksOnly c ∧ r.ClaimsLast c := by
  refine run_receipts ?_ ?_ run
  · intro r cfg hstart c
    obtain ⟨-, ⟨tokens, hpre⟩, ⟨admin, token, platformFee, hcall⟩, rfl⟩ := hstart
    refine ⟨fun hplan => absurd ?_ hplan, fun milestoneId hclaim => ?_⟩
    · rw [hpre]
      rfl
    · rw [hcall] at hclaim
      cases hclaim
  · intro tr cfg r run hvalid hpre c
    have sane := run_sane run
    rw [← hpre] at sane
    refine ⟨fun hplan => ?_, hvalid.claimsLast fun a ha => run_planned run (hpre ▸ ha)⟩
    have shape := run_shape run (hpre ▸ hplan)
    rw [← hpre] at shape
    exact (hvalid.planStep sane.toConfigured c).marks shape

/-- The books of a campaign with a plan. -/
structure PlanBooks (campaign : Campaign) (milestones : List Milestone)
    (claimed : Nat → Bool) : Prop extends PlanShape milestones, PlanSound milestones claimed where
  inhabited : 1 ≤ milestones.length
  closed : campaign.fundsWithdrawn = true ↔
    ∀ milestone ∈ milestones, claimed milestone.id = true

theorem run_planBooks (run : Run (machine host) tr cfg)
    (hplan : cfg.state.campaigns.campaignMilestones c ≠ []) :
    ∃ campaign, cfg.state.campaigns.campaign c = some campaign ∧
      PlanBooks campaign (cfg.state.campaigns.campaignMilestones c)
        (cfg.state.campaigns.milestoneClaimed c) := by
  obtain ⟨a, ha⟩ := run_owner run hplan
  obtain ⟨hlist, hmarks⟩ := account_plan ha
  have hclosed := run_closedWhenClaimed run ha
  rw [Account.ClosedWhenClaimed, ← hlist, ← hmarks] at hclosed
  exact ⟨a.record, (View.account_eq_some.mp ha).1, run_shape run hplan, run_planSound run c,
    List.length_pos_iff.mpr hplan, hclosed hplan⟩

/-- A plan keeps its books in every state, changes only by marks, and the claim that takes
the rest is the one that closes the campaign. -/
theorem milestonePlans_kept (run : Run (machine host) tr cfg) :
    (∀ r ∈ tr, ∀ c, r.MarksOnly c ∧ r.ClaimsLast c) ∧
      ∀ c, cfg.state.campaigns.campaignMilestones c ≠ [] →
        ∃ campaign, cfg.state.campaigns.campaign c = some campaign ∧
          PlanBooks campaign (cfg.state.campaigns.campaignMilestones c)
            (cfg.state.campaigns.milestoneClaimed c) :=
  ⟨run_planReceipts run, fun _ => run_planBooks run⟩

/-- Both halves are claimed, and the books say that the campaign is closed. -/
theorem milestonePlans_sample :
    ∃ tr cfg, Run (machine Sample.host) tr cfg ∧ (∀ r ∈ tr, ∀ c, r.ClaimsLast c) ∧
      ∃ campaign, cfg.state.campaigns.campaign 1 = some campaign ∧
        campaign.fundsWithdrawn = true := by
  have h : Sample.Ends 300 (Sample.halfPaid ++ [Sample.ask 3 Sample.creator (.claimMilestone 1 1)])
      fun _ cfg => cfg.state.campaigns.campaignMilestones 1 ≠ [] ∧
        ∀ milestone ∈ cfg.state.campaigns.campaignMilestones 1,
          cfg.state.campaigns.milestoneClaimed 1 milestone.id = true := by
    decide +kernel
  obtain ⟨tr, cfg, run, hplan, hall⟩ := h.run
  obtain ⟨hreceipts, hbooks⟩ := milestonePlans_kept run
  obtain ⟨campaign, hcampaign, books⟩ := hbooks 1 hplan
  exact ⟨tr, cfg, run, fun r hr c => (hreceipts r hr c).2, campaign, hcampaign,
    books.closed.mpr hall⟩

end ProofOfHeart
