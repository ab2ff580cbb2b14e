import ProofOfHeart.Lifecycle

/-! # Cancelling a campaign -/

namespace ProofOfHeart

open Checked

section Cancel

variable (env : Env) (s : State)

/-- The whole lifetime total leaves the global counter at once. -/
def deductRaised (campaign : Campaign) : Outcome State :=
  if campaign.amountRaised > 0 then do
    let total ← okOr (I128.checkedSub s.contributions.totalRaised campaign.amountRaised)
      (.err .overflow)
    pure (setTotalRaisedGlobal s total)
  else pure s

/-- The writes both cancellations make. Pruning bookmarks does nothing. -/
def recordCancellation (campaignId : Nat) (campaign : Campaign) : Outcome State := do
  let s ← deductRaised s campaign
  let s := setCampaign s campaignId { campaign with isCancelled := true, isActive := false }
  let s := removeVotingState s campaignId
  let s := decrementActiveCampaignCount s
  incrementCancelledCampaignCount s

def refundRevenuePool (campaignId : Nat) (creator : Address) (revenuePool : Int) :
    Outcome State :=
  if revenuePool > 0 then do
    let token ← getCampaignToken s campaignId
    transfer s token contractAddress creator revenuePool
  else pure s

def cancelCampaign (campaignId : Nat) : Outcome State := do
  let campaign ← getCreatorCampaign env s campaignId
  requireNotPaused s
  requireActiveCampaign campaign
  rejectIf campaign.fundsWithdrawn (.err .cancellationNotAllowed)
  rejectIf (campaign.amountRaised ≥ campaign.fundingGoal) (.err .goalMetCancellationNotAllowed)
  transition (.of campaign) .cancelled
  let revenuePool := s.revenue.revenuePool campaignId
  let s := if revenuePool > 0 then setRevenuePool s campaignId 0 else s
  let s ← recordCancellation s campaignId campaign
  refundRevenuePool s campaignId campaign.creator revenuePool

/-- Not limited by the goal, and the revenue pool stays where it is. -/
def adminCancelCampaign (admin : Address) (campaignId : Nat) (reason : Text) :
    Outcome State := do
  assertAdmin env s admin
  requireNotPaused s
  let campaign ← getCampaignOrError s campaignId
  requireActiveCampaign campaign
  rejectIf campaign.fundsWithdrawn (.err .cancellationNotAllowed)
  rejectIf (reason.length = 0 ∨ reason.length > campaignDescriptionMaxLen)
    (.err .validationFailed)
  transition (.of campaign) .cancelled
  recordCancellation s campaignId campaign

end Cancel

end ProofOfHeart
