import ProofOfHeart.Storage

/-! # Lifecycle states and the guards every entry point shares -/

namespace ProofOfHeart

open Checked

inductive CampaignState
  | active
  | verified
  | withdrawn
  | cancelled
  deriving DecidableEq, Repr

/-- Cancelled wins over withdrawn, withdrawn over verified. -/
def CampaignState.of (campaign : Campaign) : CampaignState :=
  if campaign.isCancelled then .cancelled
  else if campaign.fundsWithdrawn then .withdrawn
  else if campaign.isVerified then .verified
  else .active

def transitionAllowed : CampaignState → CampaignState → Bool
  | .active, .verified => true
  | .active, .cancelled => true
  | .verified, .cancelled => true
  | .verified, .withdrawn => true
  | _, _ => false

def transition (source target : CampaignState) : Outcome Unit :=
  rejectIf (transitionAllowed source target = false) (.err .invalidStateTransition)

section Guards

variable (env : Env) (s : State)

def getCampaignOrError (campaignId : Nat) : Outcome Campaign :=
  okOr (s.campaigns.campaign campaignId) (.err .campaignNotFound)

def assertCreator (campaign : Campaign) : Outcome Unit := requireAuth env campaign.creator

def getCreatorCampaign (campaignId : Nat) : Outcome Campaign := do
  let campaign ← getCampaignOrError s campaignId
  assertCreator env campaign
  pure campaign

def assertAdmin (caller : Address) : Outcome Unit := do
  let admin ← getAdmin s
  rejectIf (caller ≠ admin) (.err .notAuthorized)
  requireAuth env caller

def requireActiveCampaign (campaign : Campaign) : Outcome Unit :=
  rejectIf (campaign.isCancelled ∨ ¬ campaign.isActive) (.err .campaignNotActive)

def requireUnverifiedCampaign (campaign : Campaign) : Outcome Unit :=
  rejectIf campaign.isVerified (.err .campaignAlreadyVerified)

def requireRevenueSharing (campaign : Campaign) (error : Error) : Outcome Unit :=
  rejectIf (¬ campaign.hasRevenueSharing) (.err error)

def calculateDeadline (currentTime durationDays : Nat) : Outcome Nat := do
  let seconds ← okOr (Word.checkedMul 64 durationDays secondsPerDay) (.err .validationFailed)
  okOr (Word.checkedAdd 64 currentTime seconds) (.err .validationFailed)

def requireNotPaused : Outcome Unit :=
  rejectIf (s.admin.paused ∨ s.admin.autoPaused) (.err .contractPaused)

def campaignStartTimeOrError (campaignId : Nat) : Outcome Nat :=
  okOr (s.campaigns.campaignStartTime campaignId) (.err .invalidDuration)

end Guards

end ProofOfHeart
