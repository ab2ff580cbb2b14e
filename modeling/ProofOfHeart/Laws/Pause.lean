import ProofOfHeart.Account.Turn
import ProofOfHeart.Board.Posting

/-! # What a pause protects

Every entry point that moves money or changes a campaign asks first whether the
contract is paused; the others serve the administration, the personal caps and the
bookmarks. Only the stored admin lifts the pause, and only by `unpause`.
-/

namespace ProofOfHeart

open Checked Function Trace

variable {host : Host} {tr : List Receipt} {cfg : Config} {env : Env} {s s' : State}
  {call : Call} {r : Receipt}

/-! ## The gates -/

/-- The entry points that ask whether the contract is paused. -/
def Call.gated : Call → Bool
  | .createCampaign _ | .createCampaignWithToken .. | .contribute .. | .claimRefund ..
  | .batchContribute .. | .withdrawFunds _ | .withdrawReserve _ | .setVestingParams ..
  | .setMilestones .. | .verifyMilestone .. | .claimMilestone .. | .cancelCampaign _
  | .adminCancelCampaign .. | .updateCampaign .. | .updateCampaignDescription ..
  | .extendCampaignDeadline .. | .initiateCampaignTransfer .. | .acceptCampaignTransfer _
  | .cancelCampaignTransfer _ | .depositRevenue .. | .claimRevenue .. | .claimCreatorRevenue _
  | .voteOnCampaign .. | .verifyCampaign _ | .verifyCampaigns _ | .verifyCampaignWithVotes _
  | .censureComment .. | .uncensureComment .. => true
  | _ => false

theorem requireNotPaused_demands : Demands (s.admin.paused = false) (requireNotPaused s) :=
  .of_rejectIf fun h => Bool.eq_false_iff.mpr fun hpaused => h (.inl hpaused)

/-- A gate comes before every write, at the place the source has it. -/
theorem dispatch_demands (hgated : call.gated = true) :
    Demands (s.admin.paused = false) (dispatch env s call) := by
  have gate := requireNotPaused_demands (s := s)
  cases call with
  | createCampaign params => exact .first (.first (.later fun _ => .first gate))
  | createCampaignWithToken params token => exact .first (.first (.later fun _ => .first gate))
  | contribute c who amount => exact .later fun _ => .first gate
  | claimRefund c who => exact .later fun _ => .first gate
  | batchContribute who items => exact .later fun _ => .first gate
  | withdrawFunds c => exact .later fun _ => .first gate
  | withdrawReserve c => exact .later fun _ => .first gate
  | setVestingParams admin delayDays reserveBps => exact .later fun _ => .first gate
  | setMilestones c milestones => exact .later fun _ => .later fun _ => .first gate
  | verifyMilestone admin c milestoneId => exact .later fun _ => .first gate
  | claimMilestone c milestoneId => exact .later fun _ => .later fun _ => .first gate
  | cancelCampaign c => exact .later fun _ => .first gate
  | adminCancelCampaign admin c reason => exact .later fun _ => .first gate
  | updateCampaign c title description => exact .later fun _ => .first gate
  | updateCampaignDescription c description => exact .later fun _ => .first gate
  | extendCampaignDeadline c days => exact .later fun _ => .first gate
  | initiateCampaignTransfer c heir => exact .later fun _ => .first gate
  | acceptCampaignTransfer c => exact .later fun _ => .later fun _ => .first gate
  | cancelCampaignTransfer c => exact .later fun _ => .first gate
  | depositRevenue c amount => exact .later fun _ => .first gate
  | claimRevenue c who => exact .later fun _ => .first gate
  | claimCreatorRevenue c => exact .later fun _ => .first gate
  | voteOnCampaign c voter approve => exact .first gate
  | verifyCampaign c => exact .later fun _ => .later fun _ => .first gate
  | verifyCampaigns ids => exact .first (.later fun _ => .later fun _ => .first gate)
  | verifyCampaignWithVotes c => exact .first gate
  | censureComment c commentHash reason =>
      exact .later fun _ => .later fun _ => .first gate
  | uncensureComment c commentHash => exact .later fun _ => .later fun _ => .first gate
  | _ => cases hgated

/-! ## The calls without a gate -/

/-- A record without its fee override, which the admin may set at any time. -/
def Campaign.guarded (record : Campaign) : Campaign := { record with feeOverride := none }

/-- What no call changes while the contract is paused. -/
structure Frozen (s s' : State) : Prop where
  moved : s'.tokens.moved = []
  balance : s'.tokens.balance = s.tokens.balance
  campaign : ∀ c, (s'.campaigns.campaign c).map Campaign.guarded =
    (s.campaigns.campaign c).map Campaign.guarded
  contribution : s'.contributions.contribution = s.contributions.contribution
  lifetimeContribution :
    s'.contributions.lifetimeContribution = s.contributions.lifetimeContribution
  reserve : s'.campaigns.campaignReserve = s.campaigns.campaignReserve
  milestones : s'.campaigns.campaignMilestones = s.campaigns.campaignMilestones
  claimed : s'.campaigns.milestoneClaimed = s.campaigns.milestoneClaimed
  revenue : s'.revenue = s.revenue
  tally : ∀ c, (∀ record, s.campaigns.campaign c = some record →
      record.isCancelled = false ∧ record.fundsWithdrawn = false) →
    s'.voting.approveVotes c = s.voting.approveVotes c ∧
    s'.voting.rejectVotes c = s.voting.rejectVotes c ∧
    s'.voting.approveWeight c = s.voting.approveWeight c ∧
    s'.voting.rejectWeight c = s.voting.rejectWeight c

/-- A view whose tokens and funds are those of another, and its records but for fees. -/
structure View.FrozenAs (v v' : View) : Prop where
  tokens : v'.tokens = v.tokens
  funds : v'.funds = v.funds
  campaign : ∀ c, (v'.campaign c).map Campaign.guarded = (v.campaign c).map Campaign.guarded

theorem Effect.frozen {v v' : View} (h : Effect env v call v') (hopen : call.gated = false) :
    v.FrozenAs v' := by
  cases h with
  | administer h =>
      obtain ⟨store, -, rfl⟩ := h
      exact ⟨rfl, rfl, fun _ => rfl⟩
  | outside => exact ⟨rfl, rfl, fun _ => rfl⟩
  | @edit call id a record ha hedit =>
      have hsame : record.guarded = a.record.guarded := by
        cases hedit with
        | overrideFee => rfl
        | verify _ hcall =>
            rcases hcall with rfl | rfl | ⟨ids, -, rfl⟩
            all_goals cases hopen
        | _ => cases hopen
      obtain ⟨hrecord, hfunds⟩ := View.account_eq_some.mp ha
      rw [View.setAccount_record hfunds]
      refine ⟨rfl, rfl, fun c => ?_⟩
      by_cases hc : c = id
      · rw [hc, hrecord]
        simp [hsame]
      · simp [hc]
  | create hcall =>
      rcases hcall with ⟨rfl, -⟩ | ⟨token, rfl, -⟩
      all_goals cases hopen
  | _ => cases hopen

theorem Posting.tally_kept (h : Posting env s s' call) (hopen : call.gated = false) (c : Nat)
    (live : ∀ record, s.campaigns.campaign c = some record →
      record.isCancelled = false ∧ record.fundsWithdrawn = false) :
    s'.voting.approveVotes c = s.voting.approveVotes c ∧
    s'.voting.rejectVotes c = s.voting.rejectVotes c ∧
    s'.voting.approveWeight c = s.voting.approveWeight c ∧
    s'.voting.rejectWeight c = s.voting.rejectWeight c := by
  cases h with
  | @purge id voters finalize record hrecord hended h =>
      have hvoting : s'.voting = _ := congrArg Board.voting h
      have hc : c ≠ id := by
        rintro rfl
        obtain ⟨hlive, hunpaid⟩ := live record hrecord
        rw [hlive, hunpaid] at hended
        rcases hended with h | h <;> cases h
      rw [hvoting]
      cases finalize with
      | false => exact ⟨rfl, rfl, rfl, rfl⟩
      | true => simp [VotingStore.clear, VotingStore.unmark, board, hc]
  | votingRules _ h | entries _ h | kept _ h =>
      have hvoting : s'.voting = _ := congrArg Board.voting h
      rw [hvoting]
      exact ⟨rfl, rfl, rfl, rfl⟩
  | create hcall =>
      rcases hcall with rfl | ⟨token, rfl⟩
      all_goals cases hopen
  | cancel hcall =>
      rcases hcall with rfl | ⟨admin, reason, rfl⟩
      all_goals cases hopen
  | _ => cases hopen

theorem revenue_eq_funds (s : State) : s.revenue =
    ⟨fun c => (fundsOf s c).pool, fun c => (fundsOf s c).revenueClaimed,
      fun c => (fundsOf s c).creatorClaimed, fun c => (fundsOf s c).distributed,
      fun c => (fundsOf s c).claimants⟩ := rfl

/-- Setting the contract up touches no campaign and no money. -/
theorem init_frozen {admin token : Address} {platformFee : Nat}
    (h : init env s.clearMoved admin token platformFee = .ok s') : Frozen s s' := by
  simp only [init, bind_eq_ok, pure_eq_ok] at h
  obtain ⟨_, -, _, -, _, -, _, -, _, -, rfl⟩ := h
  exact ⟨rfl, rfl, fun _ => rfl, rfl, rfl, rfl, rfl, rfl, rfl, fun _ _ => ⟨rfl, rfl, rfl, rfl⟩⟩

theorem Receipt.Valid.frozen (h : r.Valid host) (paused : r.pre.admin.paused = true) :
    Frozen r.pre r.post := by
  have hdispatch := h.dispatched
  have hopen : r.call.gated = false := by
    by_contra hgated
    have hfalse := dispatch_demands (Bool.eq_true_of_not_eq_false hgated) _ hdispatch
    exact Bool.noConfusion (paused.symm.trans hfalse)
  cases hdeploys : r.call.deploys with
  | true =>
      generalize r.call = call at hdispatch hdeploys
      cases call with
      | init admin token platformFee => exact init_frozen hdispatch
      | _ => cases hdeploys
  | false =>
      have hview := (dispatch_effect hdeploys hdispatch).frozen hopen
      have hposting : Posting r.env r.pre r.post r.call :=
        (dispatch_posting hdeploys hdispatch).of_clearMoved
      have hfunds : fundsOf r.post = fundsOf r.pre := hview.funds
      have hbalance : r.post.tokens.balance = r.pre.clearMoved.tokens.balance :=
        congrArg Tokens.balance hview.tokens
      exact {
        moved := congrArg Tokens.moved hview.tokens
        balance := hbalance
        campaign := hview.campaign
        contribution := funext fun c => congrArg Funds.contribution (congrFun hfunds c)
        lifetimeContribution := funext fun c => congrArg Funds.lifetime (congrFun hfunds c)
        reserve := funext fun c => congrArg Funds.reserve (congrFun hfunds c)
        milestones := funext fun c => congrArg Funds.milestones (congrFun hfunds c)
        claimed := funext fun c => congrArg Funds.claimed (congrFun hfunds c)
        revenue := by rw [revenue_eq_funds r.post, hfunds, ← revenue_eq_funds]
        tally := hposting.tally_kept hopen }

/-! ## Lifting the pause -/

/-- The call is `unpause`, signed by the stored admin. -/
def Receipt.Unpauses (r : Receipt) : Prop :=
  r.call = .unpause ∧ ∃ admin, r.pre.admin.admin = some admin ∧ r.env.auth admin = true

theorem AdminStep.paused_or {v : View} {store : AdminStore} (h : AdminStep env v call store) :
    store.paused = v.admin.paused ∨ store.paused = true ∨
      call = .unpause ∧ ∃ admin, v.ByAdmin env admin := by
  cases h with
  | pause => exact .inr (.inl rfl)
  | emergencyPause => exact .inr (.inl rfl)
  | unpause byAdmin => exact .inr (.inr ⟨rfl, _, byAdmin⟩)
  | _ => exact .inl rfl

theorem Receipt.Valid.unpauses (h : r.Valid host) (paused : r.pre.admin.paused = true)
    (lifted : r.post.admin.paused = false) : r.Unpauses := by
  have hdispatch := h.dispatched
  cases hdeploys : r.call.deploys with
  | true =>
      generalize r.call = call at hdispatch hdeploys
      cases call with
      | init admin token platformFee =>
          simp only [dispatch, init, bind_eq_ok, pure_eq_ok] at hdispatch
          obtain ⟨_, -, _, -, _, -, _, -, _, -, hpost⟩ := hdispatch
          rw [← hpost] at lifted
          exact Bool.noConfusion (paused.symm.trans lifted)
      | _ => cases hdeploys
  | false =>
      rcases (dispatch_effect hdeploys hdispatch).admin with hsame | ⟨store, hstep, hstore⟩
      · have hkept : r.post.admin.paused = r.pre.admin.paused := congrArg AdminStore.paused hsame
        rw [hkept, paused] at lifted
        cases lifted
      · have hpost : r.post.admin.paused = store.paused := congrArg AdminStore.paused hstore
        rcases hstep.paused_or with hsame | htrue | ⟨hcall, admin, hadmin, hauth⟩
        · rw [hpost, hsame] at lifted
          exact Bool.noConfusion (paused.symm.trans lifted)
        · rw [hpost, htrue] at lifted
          cases lifted
        · exact ⟨hcall, admin, hadmin, hauth⟩

theorem run_unpauses (run : Run (machine host) tr cfg) :
    ∀ later x earlier, tr = later ++ x :: earlier → x.post.admin.paused = true →
      cfg.state.admin.paused = false → ∃ r ∈ later, r.Unpauses := by
  refine run.invariant (I := fun tr cfg => ∀ later x earlier, tr = later ++ x :: earlier →
    x.post.admin.paused = true → cfg.state.admin.paused = false → ∃ r ∈ later, r.Unpauses)
    ?_ ?_ ?_
  · rintro r cfg ⟨-, -, -, rfl⟩ later x earlier htr paused lifted
    cases later with
    | nil =>
        rw [List.nil_append, List.cons.injEq] at htr
        rw [← htr.1, lifted] at paused
        cases paused
    | cons y rest => simp at htr
  · rintro tr cfg r cfg' - ih ⟨hvalid, -, hpre, rfl⟩ later x earlier htr paused lifted
    cases later with
    | nil =>
        rw [List.nil_append, List.cons.injEq] at htr
        rw [← htr.1, lifted] at paused
        cases paused
    | cons y rest =>
        rw [List.cons_append, List.cons.injEq] at htr
        obtain ⟨rfl, htr⟩ := htr
        cases hbefore : r.pre.admin.paused with
        | true => exact ⟨r, List.mem_cons_self, hvalid.unpauses hbefore lifted⟩
        | false =>
            rw [hpre] at hbefore
            obtain ⟨x, hx, hunpauses⟩ := ih rest x earlier htr paused hbefore
            exact ⟨x, List.mem_cons_of_mem _ hx, hunpauses⟩
  · rintro tr cfg cfg' ih ⟨tokens, -, rfl⟩
    exact ih

/-! ## The law -/

/-- In every paused state, whether a run reaches it or not, a successful call leaves the
frozen entries; and between a paused moment of a run and a later one that is not paused
the stored admin has signed an `unpause`. -/
theorem pause_safe :
    (∀ r : Receipt, r.Valid host → r.pre.admin.paused = true → Frozen r.pre r.post) ∧
    ∀ tr cfg, Run (machine host) tr cfg → ∀ later x earlier, tr = later ++ x :: earlier →
      x.post.admin.paused = true → cfg.state.admin.paused = false →
        ∃ r ∈ later, r.Unpauses :=
  ⟨fun _ hvalid paused => hvalid.frozen paused, fun _ _ run => run_unpauses run⟩

/-- A pause during which a fee is overridden and votes of a cancelled campaign are purged. -/
def Sample.paused : List Request :=
  [ask 0 creator (.createCampaign (params [0] 0)), ask 1 alice (.voteOnCampaign 1 alice true),
    ask 2 creator (.cancelCampaign 1), ask 3 admin .pause,
    ask 4 admin (.setCampaignFeeOverride 1 admin 100),
    ask 5 admin (.purgeVotingState 1 [alice] true), ask 6 admin .unpause]

theorem pause_sample : ∃ tr cfg, Run (machine Sample.host) tr cfg ∧
    (∃ r ∈ tr, r.pre.admin.paused = true ∧ r.call = .purgeVotingState 1 [Sample.alice] true ∧
      Frozen r.pre r.post) ∧ ∃ r ∈ tr, r.Unpauses := by
  have h : Sample.Ends 300 Sample.paused fun tr cfg => cfg.state.admin.paused = false ∧
      (∃ r ∈ tr, r.pre.admin.paused = true ∧
        r.call = .purgeVotingState 1 [Sample.alice] true) ∧
      (tr.drop 3).head?.any (fun r => r.post.admin.paused) = true := by decide +kernel
  obtain ⟨tr, cfg, run, hlifted, ⟨r, hr, hpaused, hcall⟩, hmid⟩ := h.run
  have hvalid : ∀ r ∈ tr, r.Valid Sample.host :=
    run_receipts (fun _ _ hstart => hstart.1) (fun _ hvalid _ => hvalid) run
  obtain ⟨x, hx, hxpaused⟩ := (Option.any_eq_true _ _).mp hmid
  have htr : tr = tr.take 3 ++ x :: (tr.drop 3).tail := by
    rw [List.cons_head?_tail hx, List.take_append_drop]
  obtain ⟨y, hy, hunpauses⟩ := pause_safe.2 tr cfg run _ _ _ htr hxpaused hlifted
  exact ⟨tr, cfg, run, ⟨r, hr, hpaused, hcall, pause_safe.1 r (hvalid r hr) hpaused⟩,
    y, List.mem_of_mem_take hy, hunpauses⟩

end ProofOfHeart
