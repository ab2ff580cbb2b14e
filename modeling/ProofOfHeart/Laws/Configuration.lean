import ProofOfHeart.Account.Turn
import ProofOfHeart.Board.Entries
import ProofOfHeart.Laws.Escrow

/-! # The ranges of the settings

Every setter bounds its own value. What the payout arithmetic rests on is that all the
values stay in range together, the pair that a campaign keeps from its creation
included. Only the two limits of the funding goal can cross, since the setter of the
lower one does not look at the upper one.
-/

namespace ProofOfHeart

open Checked Function Trace

variable {host : Host} {tr : List Receipt} {cfg : Config} {r : Receipt} {env : Env} {v : View}
  {s s' : State} {call : Call} {store : AdminStore} {c : Nat} {a : Account}

/-! ## The ranges -/

/-- A reserve is withheld only for a delay. -/
structure VestingRange (delayDays reserveBps : Nat) : Prop where
  reserve : reserveBps ≤ 10000
  delay : delayDays ≤ 365
  delayed : delayDays = 0 → reserveBps = 0

theorem unreserved : VestingRange 0 0 :=
  ⟨Nat.zero_le _, Nat.zero_le _, fun _ => rfl⟩

/-- The ranges that every setter keeps. -/
structure Ranged (s : State) : Prop where
  platformFee : getPlatformFee s ≤ 1000
  feeOverride : ∀ c campaign feeBps, s.campaigns.campaign c = some campaign →
    campaign.feeOverride = some feeBps → feeBps ≤ 1000
  quorum : 1 ≤ getMinVotesQuorum s ∧ getMinVotesQuorum s ≤ 1000
  threshold : 1000 ≤ getApprovalThresholdBps s ∧ getApprovalThresholdBps s ≤ 10000
  categoryThreshold : ∀ category bps, s.voting.categoryThresholdBps category = some bps →
    1000 ≤ bps ∧ bps ≤ 10000
  durationCap : ∀ category days, s.campaigns.categoryDurationCap category = some days →
    1 ≤ days ∧ days ≤ 365
  vesting : VestingRange s.admin.withdrawReleaseDelayDays s.admin.withdrawReservePercentage
  snapshot : ∀ c delayDays reserveBps,
    s.campaigns.campaignVesting c = some (delayDays, reserveBps) →
    VestingRange delayDays reserveBps
  minGoal : 0 < getMinCampaignFundingGoal s

/-- The limits between which a goal has to lie. -/
def GoalAllowed (s : State) (goal : Int) : Prop :=
  0 < goal ∧ getMinCampaignFundingGoal s ≤ goal ∧ goal ≤ getMaxCampaignFundingGoal s

structure WellConfigured (s : State) : Prop extends Ranged s where
  goals : getMinCampaignFundingGoal s ≤ getMaxCampaignFundingGoal s

/-- The errors of `create_campaign` about the goal. -/
def Error.refusesGoal : Error → Bool
  | .fundingGoalMustBePositive | .fundingGoalTooLow | .fundingGoalTooHigh => true
  | _ => false

def Abort.RefusesGoal (abort : Abort) : Prop := ∃ e, abort = .err e ∧ e.refusesGoal = true

@[simp] theorem Abort.err_refusesGoal {e : Error} :
    (Abort.err e).RefusesGoal ↔ e.refusesGoal = true := by
  simp [Abort.RefusesGoal]

@[simp] theorem Abort.trap_refusesGoal {trap : Trap} : ¬ (Abort.trap trap).RefusesGoal := by
  simp [Abort.RefusesGoal]

/-- The checks on the goal, in the order in which `create_campaign` makes them. -/
theorem refusesGoal_iff (params : CreateCampaignParams) :
    Fails Abort.RefusesGoal (checkCreateParams env s params) ↔
      params.fundingGoal ≤ 0 ∨ 0 < params.fundingGoal ∧
        (params.fundingGoal < getMinCampaignFundingGoal s ∨
          getMinCampaignFundingGoal s ≤ params.fundingGoal ∧
            getMaxCampaignFundingGoal s < params.fundingGoal) := by
  simp [checkCreateParams, hashText, Error.refusesGoal]

/-- A goal is allowed exactly when the parameters are not refused for it. -/
theorem goalAllowed_iff (params : CreateCampaignParams) : GoalAllowed s params.fundingGoal ↔
    ¬ Fails Abort.RefusesGoal (checkCreateParams env s params) := by
  rw [refusesGoal_iff]
  unfold GoalAllowed
  omega

/-- `create_campaign` refuses no parameters for this goal. -/
def AcceptsGoal (s : State) (goal : Int) : Prop :=
  ∀ (env : Env) (params : CreateCampaignParams), params.fundingGoal = goal →
    ¬ Fails Abort.RefusesGoal (checkCreateParams env s params)

theorem WellConfigured.accepts (h : WellConfigured s) : ∃ goal, AcceptsGoal s goal := by
  refine ⟨getMinCampaignFundingGoal s, fun env params hgoal => ?_⟩
  have hallowed : GoalAllowed s params.fundingGoal := by
    rw [hgoal]
    exact ⟨h.minGoal, Int.le_refl _, h.goals⟩
  exact (goalAllowed_iff params).mp hallowed

/-! ## The settings of the platform -/

structure AdminStore.Ranged (store : AdminStore) : Prop where
  platformFee : store.platformFee.getD 300 ≤ 1000
  vesting : VestingRange store.withdrawReleaseDelayDays store.withdrawReservePercentage
  minGoal : 0 < store.minCampaignFundingGoal.getD campaignFundingGoalMin

theorem AdminStep.ranged (h : AdminStep env v call store) (ranged : v.admin.Ranged) :
    store.Ranged := by
  obtain ⟨platformFee, vesting, minGoal⟩ := ranged
  cases h with
  | fee byAdmin bounded => exact ⟨bounded, vesting, minGoal⟩
  | minGoal byAdmin positive => exact ⟨platformFee, vesting, positive⟩
  | vesting byAdmin bpsBound delayBound delayed =>
      exact ⟨platformFee, ⟨bpsBound, delayBound, delayed⟩, minGoal⟩
  | _ => exact ⟨platformFee, vesting, minGoal⟩

def Call.newMinGoal : Call → Option Int
  | .setMinCampaignFundingGoal _ minGoal => some minGoal
  | _ => none

/-- A new lower limit of the goal is within the upper one. -/
def Receipt.RaisesWithin (r : Receipt) : Prop :=
  ∀ minGoal, r.call.newMinGoal = some minGoal → minGoal ≤ getMaxCampaignFundingGoal r.pre

instance (r : Receipt) : Decidable r.RaisesWithin :=
  inferInstanceAs (Decidable (∀ minGoal, r.call.newMinGoal = some minGoal → _))

def AdminStore.GoalsOrdered (store : AdminStore) : Prop :=
  store.minCampaignFundingGoal.getD campaignFundingGoalMin ≤
    store.maxCampaignFundingGoal.getD campaignFundingGoalMax

/-- The limits stay ordered exactly when a new lower limit is within the upper one. -/
theorem AdminStep.goalsOrdered_iff (h : AdminStep env v call store)
    (ordered : v.admin.GoalsOrdered) :
    store.GoalsOrdered ↔ ∀ minGoal, call.newMinGoal = some minGoal →
      minGoal ≤ v.admin.maxCampaignFundingGoal.getD campaignFundingGoalMax := by
  cases h with
  | @minGoal admin goal byAdmin positive =>
      constructor
      · intro hordered minGoal hgoal
        rw [← Option.some.inj hgoal]
        exact hordered
      · intro hwithin
        exact hwithin goal rfl
  | maxGoal byAdmin positive aboveMin =>
      exact ⟨fun _ _ hgoal => (nomatch hgoal), fun _ => aboveMin⟩
  | _ => exact ⟨fun _ _ hgoal => (nomatch hgoal), fun _ => ordered⟩

/-! ## The rules of voting -/

structure VotingStore.Ranged (w : VotingStore) : Prop where
  quorum : 1 ≤ w.minVotesQuorum.getD defaultMinVotesQuorum ∧
    w.minVotesQuorum.getD defaultMinVotesQuorum ≤ 1000
  threshold : 1000 ≤ w.approvalThresholdBps.getD defaultApprovalThresholdBps ∧
    w.approvalThresholdBps.getD defaultApprovalThresholdBps ≤ 10000
  category : ∀ category bps, w.categoryThresholdBps category = some bps →
    1000 ≤ bps ∧ bps ≤ 10000

theorem RuleStep.ranged {w : VotingStore} (h : RuleStep env s call w)
    (ranged : s.voting.Ranged) : w.Ranged := by
  obtain ⟨quorum, threshold, category⟩ := ranged
  cases h with
  | params byAdmin somebody reachable atLeast atMost =>
      exact ⟨⟨somebody, reachable⟩, ⟨atLeast, atMost⟩, category⟩
  | balance => exact ⟨quorum, threshold, category⟩
  | @threshold admin changed bps byAdmin atLeast atMost =>
      refine ⟨quorum, threshold, fun other value hvalue => ?_⟩
      by_cases hother : other = changed
      · subst hother
        simp only [update_self, Option.some.injEq] at hvalue
        exact hvalue ▸ ⟨atLeast, atMost⟩
      · simp only [update_of_ne hother] at hvalue
        exact category other value hvalue
  | @noThreshold admin changed byAdmin =>
      refine ⟨quorum, threshold, fun other value hvalue => ?_⟩
      by_cases hother : other = changed
      · subst hother
        simp only [update_self] at hvalue
        cases hvalue
      · simp only [update_of_ne hother] at hvalue
        exact category other value hvalue

theorem dispatch_votingRanged (hcall : call.deploys = false) (h : dispatch env s call = .ok s')
    (ranged : s.voting.Ranged) : s'.voting.Ranged := by
  rcases dispatch_rules hcall h with ⟨hquorum, hthreshold, hcategory⟩ | hrule
  · have hsame : s'.voting.minVotesQuorum = s.voting.minVotesQuorum ∧
        s'.voting.approvalThresholdBps = s.voting.approvalThresholdBps ∧
        s'.voting.categoryThresholdBps = s.voting.categoryThresholdBps :=
      ⟨hquorum, hthreshold, hcategory⟩
    obtain ⟨hquorum, hthreshold, hcategory⟩ := hsame
    exact ⟨hquorum ▸ ranged.quorum, hthreshold ▸ ranged.threshold, hcategory ▸ ranged.category⟩
  · exact hrule.ranged ranged

/-! ## Caps of categories -/

def CapsRanged (caps : Category → Option Nat) : Prop :=
  ∀ category days, caps category = some days → 1 ≤ days ∧ days ≤ 365

theorem dispatch_capsRanged (hcall : call.deploys = false) (h : dispatch env s call = .ok s')
    (ranged : CapsRanged (board s).durationCap) : CapsRanged (board s').durationCap := by
  rcases dispatch_entries hcall h with ⟨hsame, -, -⟩ | hentry
  · rw [hsame]
    exact ranged
  · generalize board s' = b at hentry
    cases hentry with
    | @capDuration admin changed days byAdmin atLeast atMost =>
        intro other value hvalue
        by_cases hother : other = changed
        · subst hother
          simp only [update_self, Option.some.injEq] at hvalue
          exact hvalue ▸ ⟨atLeast, atMost⟩
        · simp only [update_of_ne hother] at hvalue
          exact ranged other value hvalue
    | @uncapDuration admin changed byAdmin =>
        intro other value hvalue
        by_cases hother : other = changed
        · subst hother
          simp only [update_self] at hvalue
          cases hvalue
        · simp only [update_of_ne hother] at hvalue
          exact ranged other value hvalue
    | censure =>
        unfold Board.censure
        split <;> exact ranged
    | uncensure =>
        unfold Board.uncensure
        split <;> exact ranged
    | _ => exact ranged

/-! ## Along a run -/

theorem init_ranged {admin token : Address} {platformFee : Nat} {tokens : Tokens}
    (h : invoke env (emptyState tokens) (.init admin token platformFee) = .ok s') :
    s'.admin.Ranged ∧ s'.admin.GoalsOrdered := by
  simp only [invoke, dispatch, init, bind_eq_ok, rejectIf_eq_ok, pure_eq_ok] at h
  obtain ⟨_, -, _, -, _, -, _, -, _, hfee, _, -, rfl⟩ := h
  have hlimits : 0 < campaignFundingGoalMin ∧ campaignFundingGoalMin ≤ campaignFundingGoalMax :=
    by decide
  exact ⟨⟨Nat.le_of_not_lt hfee, unreserved, hlimits.1⟩, hlimits.2⟩

theorem Receipt.Valid.adminRanged (h : r.Valid host) (conf : (view r.pre).Configured)
    (ranged : r.pre.admin.Ranged) : r.post.admin.Ranged := by
  rcases (h.effect conf).admin with hsame | ⟨store, hstep, hstore⟩
  · have hadmin : r.post.admin = r.pre.admin := hsame
    rw [hadmin]
    exact ranged
  · have hadmin : r.post.admin = store := hstore
    rw [hadmin]
    exact hstep.ranged ranged

theorem run_adminRanged (run : Run (machine host) tr cfg) : cfg.state.admin.Ranged := by
  refine run.invariant (I := fun _ cfg => cfg.state.admin.Ranged) ?_ ?_ ?_
  · rintro r cfg ⟨⟨-, hinvoke⟩, ⟨tokens, hpre⟩, ⟨admin, token, platformFee, hcall⟩, rfl⟩
    rw [hpre, hcall] at hinvoke
    exact (init_ranged hinvoke).1
  · rintro tr cfg r cfg' run ranged ⟨hvalid, -, hpre, rfl⟩
    have conf := (run_sane run).toConfigured
    rw [← hpre] at conf ranged
    exact hvalid.adminRanged conf ranged
  · rintro tr cfg cfg' ranged ⟨tokens, -, rfl⟩
    exact ranged

theorem run_boardRanged (run : Run (machine host) tr cfg) :
    cfg.state.voting.Ranged ∧ CapsRanged (board cfg.state).durationCap := by
  refine run.invariant (I := fun _ cfg => cfg.state.voting.Ranged ∧
    CapsRanged (board cfg.state).durationCap) ?_ ?_ ?_
  · intro r cfg hstart
    have hvoting : cfg.state.voting = Board.blank.voting :=
      congrArg Board.voting (start_board hstart)
    rw [hvoting, start_board hstart]
    exact ⟨⟨by decide, by decide, fun _ _ hbps => (nomatch hbps)⟩,
      fun _ _ hdays => (nomatch hdays)⟩
  · rintro tr cfg r cfg' run ⟨hvoting, hcaps⟩ ⟨hvalid, -, hpre, rfl⟩
    have conf := (run_sane run).toConfigured
    rw [← hpre] at conf hvoting hcaps
    have hcall := hvalid.not_deploys conf
    exact ⟨dispatch_votingRanged hcall hvalid.dispatched hvoting,
      dispatch_capsRanged hcall hvalid.dispatched hcaps⟩
  · rintro tr cfg cfg' ranged ⟨tokens, -, rfl⟩
    exact ranged

/-- The pair a campaign keeps is the one that was in force when it was created. -/
theorem run_snapshots (run : Run (machine host) tr cfg) {delayDays reserveBps : Nat}
    (h : cfg.state.campaigns.campaignVesting c = some (delayDays, reserveBps)) :
    VestingRange delayDays reserveBps := by
  have hbefore : ∀ r ∈ tr, VestingRange r.pre.admin.withdrawReleaseDelayDays
      r.pre.admin.withdrawReservePercentage := by
    refine run_receipts ?_ ?_ run
    · rintro r cfg ⟨-, ⟨tokens, hpre⟩, -, -⟩
      rw [hpre]
      exact unreserved
    · intro tr cfg r run hvalid hpre
      rw [hpre]
      exact (run_adminRanged run).vesting
  have hvesting : ((view cfg.state).funds c).vesting = some (delayDays, reserveBps) := h
  cases hc : (view cfg.state).account c with
  | none =>
      rw [(run_sane run).blank c hc] at hvesting
      cases hvesting
  | some a =>
      obtain ⟨⟨k, hk, -, hpair⟩, -⟩ := run_dated run hc
      rw [(View.account_eq_some.mp hc).2, hpair] at hvesting
      obtain ⟨rfl, rfl⟩ := Prod.mk.inj (Option.some.inj hvesting)
      exact hbefore k hk

theorem run_ranged (run : Run (machine host) tr cfg) : Ranged cfg.state := by
  have hadmin := run_adminRanged run
  obtain ⟨hvoting, hcaps⟩ := run_boardRanged run
  refine ⟨hadmin.platformFee, fun c campaign feeBps hcampaign hfee => ?_, hvoting.quorum,
    hvoting.threshold, hvoting.category, hcaps, hadmin.vesting,
    fun c delayDays reserveBps hvesting => run_snapshots run hvesting, hadmin.minGoal⟩
  exact (run_phase run (View.account_of_campaign (v := view cfg.state) hcampaign)).feeBound
    feeBps hfee

/-- A new lower limit is always an act of the administration. -/
theorem dispatch_newMinGoal {goal : Int} (hgoal : call.newMinGoal = some goal)
    (h : dispatch env s call = .ok s') : Administers env (view s) call (view s') := by
  cases call with
  | setMinCampaignFundingGoal admin minGoal => exact setMinCampaignFundingGoalFn_spec h
  | _ => cases hgoal

theorem Receipt.Valid.goalsOrdered_iff (h : r.Valid host) (conf : (view r.pre).Configured)
    (ordered : r.pre.admin.GoalsOrdered) : r.post.admin.GoalsOrdered ↔ r.RaisesWithin := by
  cases hnew : r.call.newMinGoal with
  | some goal =>
      obtain ⟨store, hstep, hpost⟩ := dispatch_newMinGoal hnew h.dispatched
      have hadmin : r.post.admin = store := congrArg View.admin hpost
      rw [hadmin]
      exact hstep.goalsOrdered_iff ordered
  | none =>
      have hwithin : r.RaisesWithin := fun minGoal hgoal => by
        rw [hnew] at hgoal
        cases hgoal
      rcases (h.effect conf).admin with hsame | ⟨store, hstep, hstore⟩
      · have hadmin : r.post.admin = r.pre.admin := hsame
        rw [hadmin]
        exact iff_of_true ordered hwithin
      · have hadmin : r.post.admin = store := hstore
        rw [hadmin]
        exact hstep.goalsOrdered_iff ordered

/-! ## The law -/

theorem run_goalsOrdered (run : Run (machine host) tr cfg) (hwithin : ∀ r ∈ tr, r.RaisesWithin) :
    cfg.state.admin.GoalsOrdered := by
  refine run.guarded (C := Receipt.RaisesWithin)
    (I := fun _ cfg => cfg.state.admin.GoalsOrdered) ?_ ?_ ?_ hwithin
  · rintro r cfg ⟨⟨-, hinvoke⟩, ⟨tokens, hpre⟩, ⟨admin, token, platformFee, hcall⟩, rfl⟩ _
    rw [hpre, hcall] at hinvoke
    exact (init_ranged hinvoke).2
  · rintro tr cfg r cfg' run - ordered hwithin ⟨hvalid, -, hpre, rfl⟩
    have conf := (run_sane run).toConfigured
    rw [← hpre] at conf ordered
    exact (hvalid.goalsOrdered_iff conf ordered).mpr hwithin
  · rintro tr cfg cfg' ordered ⟨tokens, -, rfl⟩
    exact ordered

theorem Ranged.wellConfigured_iff (h : Ranged s) :
    (WellConfigured s ∧ ∃ goal, AcceptsGoal s goal) ↔ s.admin.GoalsOrdered := by
  constructor
  · rintro ⟨hwell, -⟩
    exact hwell.goals
  · intro ordered
    have hwell : WellConfigured s := ⟨h, ordered⟩
    exact ⟨hwell, hwell.accepts⟩

/-- Every setting is in its range in every state; that the limits of the goal leave room
for one holds throughout exactly the runs that raise the lower limit within the upper. -/
theorem configuration_ranged (run : Run (machine host) tr cfg) :
    Ranged cfg.state ∧
      ((∀ r ∈ tr, WellConfigured r.post ∧ ∃ goal, AcceptsGoal r.post goal) ↔
        ∀ r ∈ tr, r.RaisesWithin) := by
  refine ⟨run_ranged run, ?_⟩
  rw [← forall_split_iff]
  refine run.exactly (C := Receipt.RaisesWithin)
    (P := fun r _ => WellConfigured r.post ∧ ∃ goal, AcceptsGoal r.post goal) ?_ ?_
  · intro r cfg hstart
    obtain ⟨-, -, ⟨admin, token, platformFee, hcall⟩, hcfg⟩ := id hstart
    have hwithin : r.RaisesWithin := fun minGoal hgoal => by
      rw [hcall] at hgoal
      cases hgoal
    have ranged := run_ranged (.start hstart)
    have ordered := run_goalsOrdered (.start hstart) fun x hx =>
      List.mem_singleton.mp hx ▸ hwithin
    rw [hcfg] at ranged ordered
    exact iff_of_true (ranged.wellConfigured_iff.mpr ordered) hwithin
  · intro tr cfg r cfg' run hearlier hstep
    have ranged := run_ranged (run.step hstep)
    obtain ⟨hvalid, -, hpre, hcfg⟩ := hstep
    have conf := (run_sane run).toConfigured
    have ordered := run_goalsOrdered run hearlier
    rw [← hpre] at conf ordered
    rw [hcfg] at ranged
    exact ranged.wellConfigured_iff.trans (hvalid.goalsOrdered_iff conf ordered)

/-- The upper limit is raised before the lower one. -/
def Sample.widened : List Request :=
  [ask 0 admin (.setMaxCampaignFundingGoal admin 3000000000000000),
    ask 0 admin (.setMinCampaignFundingGoal admin 2000000000000000)]

theorem configuration_sample :
    ∃ tr cfg, Run (machine Sample.host) tr cfg ∧ Ranged cfg.state ∧
      getMinCampaignFundingGoal cfg.state = 2000000000000000 ∧
      ∀ r ∈ tr, WellConfigured r.post := by
  have h : Sample.Ends 300 Sample.widened fun tr cfg => (∀ r ∈ tr, r.RaisesWithin) ∧
      getMinCampaignFundingGoal cfg.state = 2000000000000000 := by
    decide +kernel
  obtain ⟨tr, cfg, run, hwithin, hmin⟩ := h.run
  obtain ⟨ranged, hiff⟩ := configuration_ranged run
  exact ⟨tr, cfg, run, ranged, hmin, fun r hr => (hiff.mpr hwithin r hr).1⟩

/-- A lower limit above the upper one goes through, and no goal is allowed. -/
theorem configuration_crosses :
    ∃ tr cfg, Run (machine Sample.host) tr cfg ∧
      getMaxCampaignFundingGoal cfg.state < getMinCampaignFundingGoal cfg.state ∧
      ¬ WellConfigured cfg.state ∧ ∀ goal, ¬ AcceptsGoal cfg.state goal := by
  have h : Sample.Ends 300
      [Sample.ask 0 Sample.admin (.setMinCampaignFundingGoal Sample.admin 2000000000000000)]
      fun _ cfg => getMaxCampaignFundingGoal cfg.state < getMinCampaignFundingGoal cfg.state := by
    decide +kernel
  obtain ⟨tr, cfg, run, hcrossed⟩ := h.run
  refine ⟨tr, cfg, run, hcrossed, fun hwell => ?_, fun goal haccepts => ?_⟩
  · exact absurd hwell.goals (Int.not_le.mpr hcrossed)
  · let params : CreateCampaignParams := { Sample.params [0] 0 with fundingGoal := goal }
    obtain ⟨-, hmin, hmax⟩ :=
      (goalAllowed_iff params).mpr (haccepts (Sample.env 0 Sample.creator) params rfl)
    exact absurd (Int.le_trans hmin hmax) (Int.not_le.mpr hcrossed)

end ProofOfHeart
