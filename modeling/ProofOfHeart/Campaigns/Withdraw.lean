import ProofOfHeart.Lifecycle

/-! # Withdrawing the raised funds and releasing the reserve -/

namespace ProofOfHeart

open Checked

section Withdraw

variable (env : Env) (s : State)

/-- The fee override of the campaign, else the platform fee. -/
def effectiveFee (campaign : Campaign) : Nat := campaign.feeOverride.getD (getPlatformFee s)

/-- `bps` of `amount`, rounded up. -/
def ceilShare (amount : Int) (bps : Nat) : Outcome Int := do
  let product ← okOr (I128.checkedMul amount bps) (.err .overflow)
  let numerator ← okOr (I128.checkedAdd product bpsCeilOffset) (.err .overflow)
  pure (numerator.tdiv bpsDenominator)

/-- The pair snapshotted at creation, else the global one. -/
def vestingOf (campaignId : Nat) : Nat × Nat :=
  (s.campaigns.campaignVesting campaignId).getD
    (s.admin.withdrawReleaseDelayDays, s.admin.withdrawReservePercentage)

/-- The recipient pinned at the first contribution, else the present admin. -/
def feeRecipientOf (campaignId : Nat) : Outcome Address :=
  match s.campaigns.campaignFeeRecipient campaignId with
  | some recipient => .ok recipient
  | none => getAdmin s

def withholdReserve (campaignId delayDays : Nat) (amount : Int) : Outcome State :=
  if amount > 0 then do
    let delay ← okOr (Word.checkedMul 64 delayDays secondsPerDay) (.trap .arithmetic)
    let release ← okOr (Word.checkedAdd 64 env.timestamp delay) (.err .overflow)
    pure (setCampaignReserve s campaignId
      { amount := amount, releaseTimestamp := release, released := false })
  else pure s

def withdrawFunds (campaignId : Nat) : Outcome State := do
  let campaign ← getCreatorCampaign env s campaignId
  requireNotPaused s
  rejectIf (s.campaigns.campaignMilestones campaignId ≠ []) (.err .validationFailed)
  rejectIf (¬ campaign.isVerified) (.err .campaignNotVerified)
  rejectIf campaign.isCancelled (.err .campaignNotActive)
  rejectIf campaign.fundsWithdrawn (.err .fundsAlreadyWithdrawn)
  rejectIf (campaign.amountRaised = 0) (.err .noFundsToWithdraw)
  rejectIf (campaign.amountRaised < campaign.fundingGoal) (.err .fundingGoalNotReached)
  transition (.of campaign) .withdrawn
  let feeAmount ← ceilShare campaign.effectiveAmountRaised (effectiveFee s campaign)
  let totalAfterFee ← okOr (I128.checkedSub campaign.effectiveAmountRaised feeAmount)
    (.trap .arithmetic)
  let (delayDays, reserveBps) := vestingOf s campaignId
  let reserveAmount ← ceilShare totalAfterFee reserveBps
  let creatorAmount ← okOr (I128.checkedSub totalAfterFee reserveAmount) (.trap .arithmetic)
  let s := setCampaign s campaignId { campaign with fundsWithdrawn := true, isActive := false }
  let s := decrementActiveCampaignCount s
  let s ← withholdReserve env s campaignId delayDays reserveAmount
  let released ← okOr (I128.checkedSub campaign.effectiveAmountRaised reserveAmount)
    (.trap .arithmetic)
  let total ← okOr (I128.checkedSub s.contributions.totalRaised released) (.err .overflow)
  let s := setTotalRaisedGlobal s total
  let recipient ← feeRecipientOf s campaignId
  let token ← getCampaignToken s campaignId
  let s ← transfer s token contractAddress recipient feeAmount
  transfer s token contractAddress campaign.creator creatorAmount

def withdrawReserve (campaignId : Nat) : Outcome State := do
  let reserve ← okOr (s.campaigns.campaignReserve campaignId) (.err .noFundsToWithdraw)
  requireNotPaused s
  rejectIf reserve.released (.err .fundsAlreadyWithdrawn)
  rejectIf (env.timestamp < reserve.releaseTimestamp) (.err .validationFailed)
  let campaign ← getCampaignOrError s campaignId
  rejectIf (¬ campaign.fundsWithdrawn) (.err .validationFailed)
  assertCreator env campaign
  let s := setCampaignReserve s campaignId { reserve with released := true }
  let total ← okOr (I128.checkedSub s.contributions.totalRaised reserve.amount) (.err .overflow)
  let s := setTotalRaisedGlobal s total
  let token ← getCampaignToken s campaignId
  transfer s token contractAddress campaign.creator reserve.amount

def setVestingParams (admin : Address) (delayDays reserveBps : Nat) : Outcome State := do
  assertAdmin env s admin
  requireNotPaused s
  rejectIf (reserveBps > bpsDenominator ∨ delayDays > 365) (.err .validationFailed)
  rejectIf (delayDays = 0 ∧ reserveBps > 0) (.err .invalidVestingDelay)
  pure { s with admin.withdrawReleaseDelayDays := delayDays
                admin.withdrawReservePercentage := reserveBps }

end Withdraw

end ProofOfHeart
