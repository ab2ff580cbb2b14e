import ProofOfHeart.Lifecycle

/-! # Editing a campaign and extending its deadline -/

namespace ProofOfHeart

open Checked

section Update

variable (env : Env) (s : State)

def checkDescription (description : Text) : Outcome Unit :=
  rejectIf (description.length < campaignDescriptionMinLen ∨
    description.length > campaignDescriptionMaxLen) (.err .validationFailed)

def updateCampaign (campaignId : Nat) (title description : Text) : Outcome State := do
  let campaign ← getCreatorCampaign env s campaignId
  requireNotPaused s
  requireUnverifiedCampaign campaign
  rejectIf (campaign.amountRaised > 0) (.err .validationFailed)
  requireActiveCampaign campaign
  rejectIf (title.length < campaignTitleMinLen ∨ title.length > campaignTitleMaxLen)
    (.err .validationFailed)
  checkDescription description
  pure (setCampaign s campaignId { campaign with title := title, description := description })

/-- Editing the text revokes a verification together with its votes. -/
def updateCampaignDescription (campaignId : Nat) (description : Text) : Outcome State := do
  let campaign ← getCreatorCampaign env s campaignId
  requireNotPaused s
  requireActiveCampaign campaign
  checkDescription description
  let s := setCampaign s campaignId
    { campaign with description := description, isVerified := false }
  pure (if campaign.isVerified then
    removeVotingState (decrementVerifiedCampaignCount s) campaignId
  else s)

def extendCampaignDeadline (campaignId additionalDays : Nat) : Outcome State := do
  let campaign ← getCreatorCampaign env s campaignId
  requireNotPaused s
  requireActiveCampaign campaign
  rejectIf campaign.deadlineExtended (.err .deadlineAlreadyExtended)
  rejectIf (env.timestamp ≥ campaign.deadline) (.err .deadlinePassed)
  rejectIf (additionalDays = 0 ∨ additionalDays > maxExtensionDays) (.err .extensionTooLong)
  let newDeadline ← okOr
    (Word.checkedAdd 64 campaign.deadline (additionalDays * secondsPerDay)) (.err .overflow)
  let startTime ← campaignStartTimeOrError s campaignId
  let categoryCap :=
    (s.campaigns.categoryDurationCap campaign.category).getD campaignDurationMaxDays
  let totalDurationSeconds ← okOr (Word.checkedSub newDeadline startTime) (.err .overflow)
  let totalDurationDays := totalDurationSeconds / secondsPerDay
  rejectIf (totalDurationDays > categoryCap) (.err .invalidDuration)
  rejectIf (totalDurationDays > campaignExtensionMaxDays) (.err .invalidDuration)
  pure (setCampaign s campaignId
    { campaign with deadline := newDeadline, deadlineExtended := true })

end Update

end ProofOfHeart
