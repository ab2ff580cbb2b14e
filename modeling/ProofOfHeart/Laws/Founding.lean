import ProofOfHeart.Account.Failure
import ProofOfHeart.Laws.Succession

/-! # How campaigns are founded

The campaigns are numbered by the creations of a run. Each creation is signed, meets the
rules of its moment, and fixes the terms of its campaign once and for all.
-/

namespace ProofOfHeart

open Checked Function Trace

variable {host : Host} {tr : List Receipt} {cfg : Config} {c : Nat} {s s' : State}
  {r : Receipt} {env : Env} {a : Account} {params : CreateCampaignParams}
  {pinned token : Option Address}

/-! ## One creation -/

def Call.isCreation : Call → Bool
  | .createCampaign _ | .createCampaignWithToken .. => true
  | _ => false

/-- What a creation asks for meets the rules of the moment. -/
structure State.Permits (s : State) (params : CreateCampaignParams) (pinned : Option Address) :
    Prop where
  running : s.admin.paused = false
  enabled : s.admin.creationDisabled = false
  positive : 0 < params.fundingGoal
  goal : getMinCampaignFundingGoal s ≤ params.fundingGoal ∧
    params.fundingGoal ≤ getMaxCampaignFundingGoal s
  duration : campaignDurationMinDays ≤ params.durationDays ∧ params.durationDays ≤
    (s.campaigns.categoryDurationCap params.category).getD campaignDurationMaxDays
  title : campaignTitleMinLen ≤ params.title.length ∧ params.title.length ≤ campaignTitleMaxLen
  description : campaignDescriptionMinLen ≤ params.description.length ∧
    params.description.length ≤ campaignDescriptionMaxLen
  share : params.hasRevenueSharing = true → params.category = .educationalStartup ∧
    0 < params.revenueSharePercentage ∧ params.revenueSharePercentage ≤ revenueShareMaxBps
  cap : 0 ≤ params.maxContributionPerUser
  pinned : ∀ currency, pinned = some currency →
    s.admin.allowedToken currency = true ∧ s.admin.token ≠ some currency

theorem State.Permits.of_clearMoved (h : s.clearMoved.Permits params pinned) :
    s.Permits params pinned := by
  cases h
  constructor <;> assumption

/-- The terms that a creation fixes. -/
def Receipt.founds (r : Receipt) (c : Nat) (params : CreateCampaignParams)
    (pinned : Option Address) : Terms where
  id := c
  firstCreator := params.creator
  fundingGoal := params.fundingGoal
  category := params.category
  hasRevenueSharing := params.hasRevenueSharing
  revenueSharePercentage := params.share
  maxContributionPerUser := params.maxContributionPerUser
  startTime := some r.env.timestamp
  vesting := some (r.pre.admin.withdrawReleaseDelayDays, r.pre.admin.withdrawReservePercentage)
  token := pinned

theorem pinnedToken_allowed (h : pinnedToken s token = .ok pinned) :
    ∀ currency, pinned = some currency →
      s.admin.allowedToken currency = true ∧ s.admin.token ≠ some currency := by
  rintro currency rfl
  unfold pinnedToken at h
  split at h
  next => cases h
  next asked =>
      simp only [getToken, bind_eq_ok, okOr_eq_ok, rejectIf_eq_ok, pure_eq_ok] at h
      obtain ⟨platform, hplatform, _, hallowed, hpinned⟩ := h
      split at hpinned
      next => cases hpinned
      next hother =>
          obtain rfl := Option.some.inj hpinned
          rw [hplatform]
          simp only [ne_eq, hother, not_false_eq_true, true_and, Bool.not_eq_false] at hallowed
          exact ⟨hallowed, fun heq => hother (Option.some.inj heq).symm⟩

theorem createCampaignEntry_permits {id : Nat}
    (h : createCampaignEntry env s params token = .ok (id, s')) (reg : (view s).Registered) :
    id = s.campaigns.campaignCount + 1 ∧ env.auth params.creator = true ∧
    ∃ pinned, s.Permits params pinned ∧ ∃ a, (view s').account id = some a ∧ a.terms =
        Receipt.founds ⟨env, .createCampaign params, s, s'⟩ id params pinned := by
  obtain ⟨deadline, pinned, rfl, -, -, -, -, hpinned, hview⟩ := createCampaignEntry_spec h
  simp only [createCampaignEntry, createCampaignInner, checkCreateParams, requireAuth,
    bind_eq_ok, rejectIf_eq_ok, pure_eq_ok] at h
  obtain ⟨_, ⟨_, hauth, _, hopen, _, henabled, titleHash, ⟨_, hpositive, _, hmin, _, hmax, _,
    hduration, _, htitle, _, -, _, -, _, hdescription, _, hcategory, _, hshare, _, hsome, _,
    hcap, -⟩, -⟩, -⟩ := h
  refine ⟨rfl, Bool.eq_true_of_not_eq_false hauth, pinned,
    ⟨?_, ?_, ?_, ?_, ?_, ?_, ?_, ?_, ?_, ?_⟩, ?_⟩
  · exact (requireNotPaused_eq_ok.mp hopen).1
  · exact Bool.eq_false_of_not_eq_true henabled
  · omega
  · omega
  · omega
  · omega
  · omega
  · intro hsharing
    simp only [CreateCampaignParams.share, hsharing, if_true, and_true, not_not, true_and]
      at hcategory hshare hsome
    exact ⟨hcategory, by omega, by omega⟩
  · omega
  · exact pinnedToken_allowed hpinned
  · rw [hview, reg.blank _ reg.next_none]
    refine ⟨_, View.setAccount_account_self, ?_⟩
    cases pinned <;> rfl

/-- Campaign `c` comes about by this call. -/
structure Founding (c : Nat) (r : Receipt) (params : CreateCampaignParams)
    (pinned : Option Address) : Prop where
  asked : r.call = .createCampaign params ∨ ∃ token, r.call = .createCampaignWithToken params token
  signed : r.signedBy params.creator
  permitted : r.pre.Permits params pinned
  next : c = r.pre.campaigns.campaignCount + 1

theorem Receipt.Valid.founding (h : r.Valid host) (sane : (view r.pre).Sane)
    (hnone : (view r.pre).account c = none) (ha : (view r.post).account c = some a) :
    ∃ params pinned, Founding c r params pinned ∧ a.terms = r.founds c params pinned := by
  obtain ⟨rfl, params, deadline, hcall, -⟩ := h.created sane (Option.map_eq_none_iff.mp hnone)
    (View.account_eq_some.mp ha).1
  obtain ⟨token, id, hcreate⟩ := h.creates hcall
  obtain ⟨rfl, hauth, pinned, permitted, b, hb, hterms⟩ :=
    createCampaignEntry_permits hcreate ⟨sane.exists_iff, sane.blank⟩
  obtain rfl := Option.some.inj (ha.symm.trans hb)
  exact ⟨params, pinned, ⟨hcall, hauth, permitted.of_clearMoved, rfl⟩, hterms⟩

/-- The count goes up with a creation, and only then. -/
theorem Receipt.Valid.campaignCount (h : r.Valid host) (sane : (view r.pre).Sane) :
    r.post.campaigns.campaignCount =
      r.pre.campaigns.campaignCount + (if r.call.isCreation = true then 1 else 0) := by
  cases hcreates : r.call.isCreation with
  | true =>
      have hcall : ∃ params, r.call = .createCampaign params ∨
          ∃ token, r.call = .createCampaignWithToken params token := by
        generalize r.call = call at hcreates
        cases call with
        | createCampaign params => exact ⟨params, .inl rfl⟩
        | createCampaignWithToken params token => exact ⟨params, .inr ⟨token, rfl⟩⟩
        | _ => cases hcreates
      obtain ⟨params, hasked⟩ := hcall
      exact (h.creation hasked).1
  | false =>
      rcases (h.stepped sane).count with hsame | ⟨-, a, ha⟩
      · exact hsame
      · have hnone := sane.toRegistered.next_none
        obtain ⟨params, pinned, ⟨hasked, -, -, -⟩, -⟩ := h.founding sane hnone ha
        rcases hasked with hcall | ⟨token, hcall⟩
        all_goals
          rw [hcall] at hcreates
          cases hcreates

/-! ## Along a run -/

end ProofOfHeart
