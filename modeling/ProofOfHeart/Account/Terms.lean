import ProofOfHeart.Account.History

/-! # The terms of a campaign

What a creation fixes for good: no later call changes it.
-/

namespace ProofOfHeart

open Checked Function Trace

@[ext]
structure Terms where
  id : Nat
  firstCreator : Address
  fundingGoal : Int
  category : Category
  hasRevenueSharing : Bool
  revenueSharePercentage : Nat
  maxContributionPerUser : Int
  startTime : Option Nat
  vesting : Option (Nat × Nat)
  token : Option Address

def Account.terms (a : Account) : Terms where
  id := a.record.id
  firstCreator := a.record.firstCreator
  fundingGoal := a.record.fundingGoal
  category := a.record.category
  hasRevenueSharing := a.record.hasRevenueSharing
  revenueSharePercentage := a.record.revenueSharePercentage
  maxContributionPerUser := a.record.maxContributionPerUser
  startTime := a.funds.startTime
  vesting := a.funds.vesting
  token := a.funds.token

variable {host : Host} {r : Receipt} {env : Env} {v : View}
  {c : Nat} {act : Act} {moves : List Transfer} {delta : Int} {a a' : Account}

theorem AccountStep.terms (h : AccountStep env v c act moves delta a a') : a'.terms = a.terms := by
  cases h with
  | contributed =>
      obtain ⟨_, _, _, _, heq⟩ := a.contributeAll_eq v.admin.admin _ _
      rw [heq]
      rfl
  | claimed =>
      rw [Account.terms, Account.claimMilestone_record]
      rfl
  | _ => rfl

/-- A call keeps the terms of every campaign that it finds. -/
theorem Receipt.Valid.terms (h : r.Valid host) (sane : (view r.pre).Sane)
    (ha : (view r.pre).account c = some a) :
    ∃ a', (view r.post).account c = some a' ∧ a'.terms = a.terms := by
  obtain ⟨delta, -, hexisting⟩ := (h.stepped sane).existing
  obtain ⟨a', ha', hstep⟩ := hexisting c a ha
  exact ⟨a', ha', hstep.terms⟩

/-- Both ways of creating a campaign are one. -/
theorem Receipt.Valid.creates (h : r.Valid host) {params : CreateCampaignParams}
    (hcall : r.call = .createCampaign params ∨
      ∃ token, r.call = .createCampaignWithToken params token) :
    ∃ token id, createCampaignEntry r.env r.pre.clearMoved params token = .ok (id, r.post) := by
  have hdispatch := h.dispatched
  rcases hcall with hcall | ⟨token, hcall⟩
  all_goals
    rw [hcall] at hdispatch
    simp only [dispatch, createCampaign, createCampaignWithToken, bind_eq_ok,
      pure_eq_ok] at hdispatch
    obtain ⟨⟨id, s'⟩, hcreate, rfl⟩ := hdispatch
    exact ⟨_, id, hcreate⟩

/-- A creation takes the next number. -/
theorem Receipt.Valid.creation (h : r.Valid host) {params : CreateCampaignParams}
    (hcall : r.call = .createCampaign params ∨
      ∃ token, r.call = .createCampaignWithToken params token) :
    r.post.campaigns.campaignCount = r.pre.campaigns.campaignCount + 1 ∧
      ∃ deadline, r.post.campaigns.campaign (r.pre.campaigns.campaignCount + 1) =
        some (params.campaign (r.pre.campaigns.campaignCount + 1) deadline) := by
  obtain ⟨token, id, hcreate⟩ := h.creates hcall
  obtain ⟨deadline, _, rfl, -, -, -, -, -, hview⟩ := createCampaignEntry_spec hcreate
  refine ⟨congrArg View.campaignCount hview, deadline, ?_⟩
  have hcampaign := congrArg (fun v : View => v.campaign (r.pre.campaigns.campaignCount + 1)) hview
  exact hcampaign.trans (update_self ..)

end ProofOfHeart
