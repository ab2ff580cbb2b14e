import ProofOfHeart.Lifecycle

/-! # Creating a campaign

A category and a creator each own buckets of at most
`categoryCampaignsBucketSize` and `creatorCampaignsBucketSize` identifiers; the
entry count of the owner chooses the bucket a new identifier goes to.
-/

namespace ProofOfHeart

open Checked

section Create

variable (env : Env) (s : State)

def appendToCategory (category : Category) (campaignId : Nat) : Outcome State := do
  let categoryCount := s.campaigns.categoryCampaignCount category
  let bucketIdx := categoryCount / categoryCampaignsBucketSize
  let bucket := s.campaigns.categoryCampaignsBucket category bucketIdx ++ [campaignId]
  let s := setCategoryCampaignBucket s category bucketIdx bucket
  let count ← okOr (Word.checkedAdd 32 categoryCount 1) (.trap .arithmetic)
  pure (setCategoryCampaignCount s category count)

/-- Append to the bucket the count points at and record the position. Creation
and transfer write these four entries in the same order. -/
def appendToCreator (creator : Address) (campaignId : Nat) : Outcome State := do
  let creatorCount := s.campaigns.creatorCampaignCount creator
  let bucketIdx := creatorCount / creatorCampaignsBucketSize
  let bucket := s.campaigns.creatorCampaignsBucket creator bucketIdx ++ [campaignId]
  let s := setCreatorCampaignBucket s creator bucketIdx bucket
  let s := setCreatorCampaignPosition s creator campaignId (some (bucketIdx, bucket.length - 1))
  let count ← okOr (Word.checkedAdd 32 creatorCount 1) (.trap .arithmetic)
  let s := setCreatorCampaignCount s creator count
  pure (setCampaignCreatorIndex s campaignId creator)

/-- The token to pin: none when the campaign uses the platform token. -/
def pinnedToken (token : Option Address) : Outcome (Option Address) :=
  match token with
  | none => pure none
  | some token => do
      let platform ← getToken s
      rejectIf (token ≠ platform ∧ s.admin.allowedToken token = false) (.err .validationFailed)
      pure (if token = platform then none else some token)

/-- A disabled revenue share is stored as zero. -/
def CreateCampaignParams.share (params : CreateCampaignParams) : Nat :=
  if params.hasRevenueSharing then params.revenueSharePercentage else 0

def checkCreateParams (params : CreateCampaignParams) : Outcome Digest := do
  rejectIf (params.fundingGoal ≤ 0) (.err .fundingGoalMustBePositive)
  rejectIf (params.fundingGoal < getMinCampaignFundingGoal s) (.err .fundingGoalTooLow)
  rejectIf (params.fundingGoal > getMaxCampaignFundingGoal s) (.err .fundingGoalTooHigh)
  let durationMax := (s.campaigns.categoryDurationCap params.category).getD campaignDurationMaxDays
  rejectIf (params.durationDays < campaignDurationMinDays ∨ params.durationDays > durationMax)
    (.err .invalidDuration)
  rejectIf (params.title.length < campaignTitleMinLen ∨
    params.title.length > campaignTitleMaxLen) (.err .validationFailed)
  let titleHash ← hashText env params.title
  rejectIf (s.campaigns.creatorCampaignTitleIndex params.creator titleHash ≠ none)
    (.err .validationFailed)
  rejectIf (params.description.length < campaignDescriptionMinLen ∨
    params.description.length > campaignDescriptionMaxLen) (.err .validationFailed)
  rejectIf (params.category ≠ .educationalStartup ∧ params.hasRevenueSharing)
    (.err .revenueShareOnlyForStartup)
  rejectIf (params.share > revenueShareMaxBps) (.err .invalidRevenueShare)
  rejectIf (params.hasRevenueSharing ∧ params.share = 0) (.err .invalidRevenueShare)
  rejectIf (params.maxContributionPerUser < 0) (.err .validationFailed)
  pure titleHash

def CreateCampaignParams.campaign (params : CreateCampaignParams) (id deadline : Nat) :
    Campaign where
  id := id
  creator := params.creator
  firstCreator := params.creator
  pendingCreator := none
  title := params.title
  description := params.description
  fundingGoal := params.fundingGoal
  deadline := deadline
  amountRaised := 0
  isActive := true
  fundsWithdrawn := false
  isCancelled := false
  isVerified := false
  category := params.category
  hasRevenueSharing := params.hasRevenueSharing
  revenueSharePercentage := params.share
  maxContributionPerUser := params.maxContributionPerUser
  feeOverride := none
  deadlineExtended := false
  effectiveAmountRaised := 0

def createCampaignInner (params : CreateCampaignParams) (token : Option Address) :
    Outcome (Nat × State) := do
  requireAuth env params.creator
  requireNotPaused s
  rejectIf s.admin.creationDisabled (.err .creationDisabled)
  let titleHash ← checkCreateParams env s params
  let pinned ← pinnedToken s token
  let count ← okOr (Word.checkedAdd 32 s.campaigns.campaignCount 1) (.err .overflow)
  let deadline ← calculateDeadline env.timestamp params.durationDays
  let s := setCampaignVesting s count s.admin.withdrawReleaseDelayDays
    s.admin.withdrawReservePercentage
  let s := setCampaignToken s count pinned
  let s := setCampaign s count (params.campaign count deadline)
  let s := setCampaignStartTime s count env.timestamp
  let s := setCampaignCount s count
  let s := setRevenuePool s count 0
  let s ← appendToCategory s params.category count
  let s ← appendToCreator s params.creator count
  pure (count, setCreatorTitleIndex s params.creator titleHash count)

/-- The entry point adds the active count to `create_campaign`. -/
def createCampaignEntry (params : CreateCampaignParams) (token : Option Address) :
    Outcome (Nat × State) := do
  let (id, s) ← createCampaignInner env s params token
  let s ← incrementActiveCampaignCount s
  pure (id, s)

def createCampaign (params : CreateCampaignParams) : Outcome (Nat × State) :=
  createCampaignEntry env s params none

def createCampaignWithToken (params : CreateCampaignParams) (token : Address) :
    Outcome (Nat × State) :=
  createCampaignEntry env s params (some token)

end Create

end ProofOfHeart
