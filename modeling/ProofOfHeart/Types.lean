import ProofOfHeart.Lib.MachineInt

/-! # Data types and constants of the contract

Token amounts are integers kept inside the signed 128-bit range by the checked
operations; identifiers, counts, basis points and times are naturals. Texts and
digests are byte strings, since the contract only measures, compares and hashes
them.
-/

namespace ProofOfHeart

structure Address where
  id : Nat
  deriving DecidableEq, Repr

/-- The account of the contract itself, which holds the escrow. -/
def contractAddress : Address := ⟨0⟩

abbrev Text := List UInt8

abbrev Digest := List UInt8

/-! ## Constants -/

def bpsDenominator : Nat := 10000

/-- Added to a numerator before dividing by `bpsDenominator` to round up. -/
def bpsCeilOffset : Int := 9999

def secondsPerDay : Nat := 86400

def tokenUpdateDelaySecs : Nat := 7 * secondsPerDay

def maxTokenUpdateDelaySecs : Nat := 365 * secondsPerDay

def maxExtensionDays : Nat := 30

def maxScanWindow : Nat := 1000

def contractVersion : Nat := 1

def campaignTitleMinLen : Nat := 1

def campaignTitleMaxLen : Nat := 100

def campaignDescriptionMinLen : Nat := 1

def campaignDescriptionMaxLen : Nat := 1000

def campaignDurationMinDays : Nat := 1

def campaignDurationMaxDays : Nat := 365

def campaignExtensionMaxDays : Nat := 365

def campaignFundingGoalMin : Int := 100000

def campaignFundingGoalMax : Int := 1000000000000000

def platformFeeMaxBps : Nat := 1000

def platformFeeAbsoluteMaxBps : Nat := bpsDenominator

def revenueShareMaxBps : Nat := 5000

def autoPauseSingleContributionBpsThreshold : Int := 20000

def autoPauseBurstThreshold : Nat := 10

def autoPauseBurstCheckMinRaisedBps : Int := 5000

def listMaxLimit : Nat := 50

def maxBatchContributeSize : Nat := 20

def maxMilestones : Nat := 10

def categoryCampaignsBucketSize : Nat := 500

def creatorCampaignsBucketSize : Nat := 500

def defaultMinVotesQuorum : Nat := 3

def maxVotesQuorum : Nat := 1000

def defaultApprovalThresholdBps : Nat := 6000

def minApprovalThresholdBps : Nat := 1000

def maxBookmarksPerWallet : Nat := 50

def censureReasonMaxLen : Nat := 200

/-! ## Records -/

inductive Category
  | learner
  | educationalStartup
  | educator
  | publisher
  deriving DecidableEq, Repr

structure Campaign where
  id : Nat
  creator : Address
  /-- Always the first creator; a transfer of ownership leaves it. -/
  firstCreator : Address
  pendingCreator : Option Address
  title : Text
  description : Text
  fundingGoal : Int
  deadline : Nat
  /-- Lifetime total; a refund leaves it. -/
  amountRaised : Int
  isActive : Bool
  fundsWithdrawn : Bool
  isCancelled : Bool
  isVerified : Bool
  category : Category
  hasRevenueSharing : Bool
  revenueSharePercentage : Nat
  /-- Zero means no cap. -/
  maxContributionPerUser : Int
  feeOverride : Option Nat
  deadlineExtended : Bool
  /-- Live contributions that remain after refunds. -/
  effectiveAmountRaised : Int
  deriving DecidableEq, Repr

structure CreateCampaignParams where
  creator : Address
  title : Text
  description : Text
  fundingGoal : Int
  durationDays : Nat
  category : Category
  hasRevenueSharing : Bool
  revenueSharePercentage : Nat
  maxContributionPerUser : Int
  deriving DecidableEq, Repr

structure Milestone where
  id : Nat
  description : Text
  payoutBps : Nat
  verified : Bool
  deriving DecidableEq, Repr

structure CampaignReserve where
  amount : Int
  releaseTimestamp : Nat
  released : Bool
  deriving DecidableEq, Repr

structure CommentCensure where
  reason : Text
  censuredAt : Nat
  admin : Address
  deriving DecidableEq, Repr

structure CreatorStats where
  totalCampaigns : Nat
  activeCampaigns : Nat
  totalRaised : Int
  totalContributors : Nat
  deriving DecidableEq, Repr

/-! ## Failures -/

inductive Error
  | notAuthorized
  | campaignNotFound
  | campaignNotActive
  | fundingGoalMustBePositive
  | invalidDuration
  | invalidRevenueShare
  | revenueShareOnlyForStartup
  | deadlinePassed
  | contributionMustBePositive
  | deadlineNotPassed
  | fundsAlreadyWithdrawn
  | fundingGoalNotReached
  | noFundsToWithdraw
  | campaignAlreadyVerified
  | validationFailed
  | alreadyVoted
  | notTokenHolder
  | votingQuorumNotMet
  | votingThresholdNotMet
  | alreadyInitialized
  | notPendingOwner
  | noTransferPending
  | invalidNewOwner
  | contractPaused
  | contributionCapExceeded
  | campaignNotVerified
  | amountRaisedIsZero
  | revenueSharingNotEnabled
  | cancellationNotAllowed
  | overflow
  | invalidTokenContract
  | creationDisabled
  | fundingGoalTooLow
  | adminVerificationConflict
  | communityVerificationConflict
  | deadlineAlreadyExtended
  | extensionTooLong
  | fundingGoalTooHigh
  | invalidPlatformFee
  | transferAlreadyPending
  | invalidVestingDelay
  | goalMetCancellationNotAllowed
  | invalidStateTransition
  | campaignAlreadyBookmarked
  | campaignNotBookmarked
  | personalCapNotFound
  | bookmarkLimitReached
  | milestoneNotFound
  | milestoneNotVerified
  | milestoneAlreadyClaimed
  deriving DecidableEq, Repr

/-- A host trap: it aborts the call without an error of the contract. -/
inductive Trap
  | auth
  | arithmetic
  | missingEntry
  | token
  | badArgument
  deriving DecidableEq, Repr

/-- An `Err` and a trap both undo everything the call did. -/
inductive Abort
  | err (e : Error)
  | trap (t : Trap)
  deriving DecidableEq, Repr

abbrev Outcome (α : Type) := Except Abort α

end ProofOfHeart
