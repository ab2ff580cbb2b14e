import ProofOfHeart.Lifecycle

/-! # Administration -/

namespace ProofOfHeart

open Checked Function

section Admin

variable (env : Env) (s : State)

/-! ## Initialisation -/

/-- The admin check of the entry points that take no caller argument. -/
def assertStoredAdmin : Outcome Unit := do
  let admin ← getAdmin s
  assertAdmin env s admin

def init (admin token : Address) (platformFee : Nat) : Outcome State := do
  rejectIf s.admin.initialized (.err .alreadyInitialized)
  requireAuth env admin
  rejectIf (platformFee > platformFeeAbsoluteMaxBps) (.err .invalidPlatformFee)
  rejectIf (platformFee > platformFeeMaxBps) (.err .invalidPlatformFee)
  rejectIf (env.isTokenContract token = false) (.err .invalidTokenContract)
  pure { s with
    admin.admin := some admin
    admin.pendingAdmin := none
    admin.token := some token
    admin.initialized := true
    admin.platformFee := some platformFee
    campaigns.campaignCount := 0
    contributions.totalRaised := 0
    admin.version := contractVersion
    admin.minCampaignFundingGoal := some campaignFundingGoalMin
    voting.minVotesQuorum := some defaultMinVotesQuorum
    voting.approvalThresholdBps := some defaultApprovalThresholdBps
    admin.withdrawReleaseDelayDays := 0
    admin.withdrawReservePercentage := 0
    admin.maxContributionPerTransaction := 0 }

/-! ## Pausing and gates -/

def pause : Outcome State := do
  assertStoredAdmin env s
  pure { s with admin.paused := true }

def unpause : Outcome State := do
  assertStoredAdmin env s
  pure { s with admin.paused := false, admin.autoPaused := false }

def setEmergencyPauseSigners (admin : Address) (signers : List Address) : Outcome State := do
  assertAdmin env s admin
  rejectIf (signers = []) (.err .validationFailed)
  pure { s with admin.emergencyPauseSigners := signers }

def emergencyPause (caller : Address) : Outcome State := do
  requireAuth env caller
  rejectIf (s.admin.emergencyPauseSigners = []) (.err .notAuthorized)
  rejectIf (caller ∉ s.admin.emergencyPauseSigners) (.err .notAuthorized)
  pure { s with admin.paused := true }

def setCreationDisabledFn (disabled : Bool) : Outcome State := do
  assertStoredAdmin env s
  pure { s with admin.creationDisabled := disabled }

def setTokenAllowedFn (token : Address) (allowed : Bool) : Outcome State := do
  assertStoredAdmin env s
  pure { s with admin.allowedToken := update s.admin.allowedToken token allowed }

/-! ## Fees, limits and voting parameters -/

def setParams (minVotesQuorum approvalThresholdBps : Nat) : Outcome State := do
  rejectIf (minVotesQuorum = 0 ∨ minVotesQuorum > maxVotesQuorum ∨
    approvalThresholdBps < minApprovalThresholdBps ∨ approvalThresholdBps > bpsDenominator)
    (.err .validationFailed)
  pure { s with
    voting.minVotesQuorum := some minVotesQuorum
    voting.approvalThresholdBps := some approvalThresholdBps }

def setVotingParams (admin : Address) (minVotesQuorum approvalThresholdBps : Nat) :
    Outcome State := do
  assertAdmin env s admin
  setParams s minVotesQuorum approvalThresholdBps

def setMinVotingBalanceFn (admin : Address) (minBalance : Int) : Outcome State := do
  assertAdmin env s admin
  rejectIf (minBalance < 0) (.err .validationFailed)
  pure { s with voting.minVotingBalance := minBalance }

def checkFee (fee : Nat) : Outcome Unit :=
  rejectIf (fee > platformFeeAbsoluteMaxBps ∨ fee > platformFeeMaxBps) (.err .invalidPlatformFee)

def updatePlatformFee (newFee : Nat) : Outcome State := do
  assertStoredAdmin env s
  checkFee newFee
  pure { s with admin.platformFee := some newFee }

def setMaxContributionPerTransaction (admin : Address) (amount : Int) : Outcome State := do
  assertAdmin env s admin
  rejectIf (amount < 0) (.err .validationFailed)
  pure { s with admin.maxContributionPerTransaction := amount }

def setCampaignFeeOverride (campaignId : Nat) (admin : Address) (feeBps : Nat) :
    Outcome State := do
  assertAdmin env s admin
  let campaign ← getCampaignOrError s campaignId
  checkFee feeBps
  pure (setCampaign s campaignId { campaign with feeOverride := some feeBps })

def setCategoryDurationCap (admin : Address) (category : Category) (maxDays : Nat) :
    Outcome State := do
  assertAdmin env s admin
  rejectIf (maxDays < campaignDurationMinDays ∨ maxDays > campaignDurationMaxDays)
    (.err .validationFailed)
  pure { s with
    campaigns.categoryDurationCap :=
      update s.campaigns.categoryDurationCap category (some maxDays) }

def removeCategoryDurationCap (admin : Address) (category : Category) : Outcome State := do
  assertAdmin env s admin
  pure { s with
    campaigns.categoryDurationCap := update s.campaigns.categoryDurationCap category none }

def setCategoryVotingThreshold (admin : Address) (category : Category) (thresholdBps : Nat) :
    Outcome State := do
  assertAdmin env s admin
  rejectIf (thresholdBps < minApprovalThresholdBps ∨ thresholdBps > bpsDenominator)
    (.err .validationFailed)
  pure { s with
    voting.categoryThresholdBps :=
      update s.voting.categoryThresholdBps category (some thresholdBps) }

def removeCategoryVotingThreshold (admin : Address) (category : Category) : Outcome State := do
  assertAdmin env s admin
  pure { s with
    voting.categoryThresholdBps := update s.voting.categoryThresholdBps category none }

def setMinCampaignFundingGoalFn (admin : Address) (minGoal : Int) : Outcome State := do
  assertAdmin env s admin
  rejectIf (minGoal ≤ 0) (.err .fundingGoalMustBePositive)
  pure { s with admin.minCampaignFundingGoal := some minGoal }

/-- Only this setter compares the two limits. -/
def setMaxCampaignFundingGoalFn (admin : Address) (maxGoal : Int) : Outcome State := do
  assertAdmin env s admin
  rejectIf (maxGoal ≤ 0) (.err .fundingGoalMustBePositive)
  rejectIf (maxGoal < getMinCampaignFundingGoal s) (.err .validationFailed)
  pure { s with admin.maxCampaignFundingGoal := some maxGoal }

def migrate (admin : Address) (expectedOldVersion : Nat) : Outcome State := do
  assertAdmin env s admin
  rejectIf (s.admin.version ≠ expectedOldVersion) (.err .validationFailed)
  pure { s with admin.version := contractVersion }

/-! ## Changing the platform token -/

def proposeTokenUpdate (admin newToken : Address) : Outcome State := do
  assertAdmin env s admin
  rejectIf (env.isTokenContract newToken = false) (.err .invalidTokenContract)
  let releaseAfter ← okOr (Word.checkedAdd 64 env.timestamp (getTokenUpdateDelaySecs s))
    (.err .validationFailed)
  pure { s with
    admin.pendingToken := some newToken
    admin.pendingTokenRelease := some releaseAfter }

def acceptTokenUpdate (admin : Address) : Outcome State := do
  assertAdmin env s admin
  let newToken ← okOr s.admin.pendingToken (.err .validationFailed)
  let releaseAfter ← okOr s.admin.pendingTokenRelease (.err .validationFailed)
  rejectIf (env.timestamp < releaseAfter) (.err .validationFailed)
  rejectIf (s.campaigns.activeCampaignCount > 0 ∨ s.contributions.totalRaised ≠ 0)
    (.err .validationFailed)
  let _ ← getToken s
  pure { s with
    admin.token := some newToken
    admin.pendingToken := none
    admin.pendingTokenRelease := none }

def cancelTokenUpdate (admin : Address) : Outcome State := do
  assertAdmin env s admin
  rejectIf (s.admin.pendingToken = none) (.err .validationFailed)
  pure { s with admin.pendingToken := none, admin.pendingTokenRelease := none }

def setTokenUpdateDelaySecsFn (admin : Address) (delaySecs : Nat) : Outcome State := do
  assertAdmin env s admin
  rejectIf (delaySecs = 0 ∨ delaySecs > maxTokenUpdateDelaySecs) (.err .validationFailed)
  pure { s with admin.tokenUpdateDelaySecs := some delaySecs }

/-! ## Changing the admin -/

def initiateAdminTransfer (admin newAdmin : Address) : Outcome State := do
  assertAdmin env s admin
  let current ← getAdmin s
  rejectIf (newAdmin = current) (.err .invalidNewOwner)
  pure { s with admin.pendingAdmin := some newAdmin }

def acceptAdminTransfer : Outcome State := do
  let pending ← okOr s.admin.pendingAdmin (.err .noTransferPending)
  requireAuth env pending
  let _ ← getAdmin s
  pure { s with admin.admin := some pending, admin.pendingAdmin := none }

def cancelAdminTransfer (admin : Address) : Outcome State := do
  assertAdmin env s admin
  rejectIf (s.admin.pendingAdmin = none) (.err .noTransferPending)
  pure { s with admin.pendingAdmin := none }

def updateAdmin (newAdmin : Address) : Outcome State := do
  let admin ← getAdmin s
  initiateAdminTransfer env s admin newAdmin

/-! ## Campaign moderation -/

def maxVotersPerCall : Nat := 50

def purgeVotingState (campaignId : Nat) (voters : List Address) (finalizeAggregate : Bool) :
    Outcome State := do
  assertStoredAdmin env s
  let campaign ← getCampaignOrError s campaignId
  rejectIf (¬ campaign.fundsWithdrawn ∧ ¬ campaign.isCancelled) (.err .validationFailed)
  rejectIf (voters = []) (.err .validationFailed)
  rejectIf (voters.length > maxVotersPerCall) (.err .validationFailed)
  let s := voters.foldl (fun s voter => setHasVoted s campaignId voter false) s
  pure (if finalizeAggregate then removeVotingState s campaignId else s)

def resumeCampaign (campaignId : Nat) (caller : Address) : Outcome State := do
  requireAuth env caller
  rejectIf (s.admin.autoPaused = false) (.err .validationFailed)
  let campaign ← getCampaignOrError s campaignId
  requireActiveCampaign campaign
  let admin ← getAdmin s
  rejectIf (caller ≠ campaign.creator ∧ caller ≠ admin) (.err .notAuthorized)
  pure { s with admin.autoPaused := false }

end Admin

end ProofOfHeart
