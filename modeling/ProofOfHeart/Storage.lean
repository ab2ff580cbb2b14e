import ProofOfHeart.Lib.Table
import ProofOfHeart.Types

/-! # Storage, ledger context and tokens

One sub-store for each storage-key enumeration of the contract. An entry whose
absence the contract can observe is optional; every other entry reads as the
default that its getter falls back to. Extending the time to live of an entry
does not change any value and is left out.
-/

namespace ProofOfHeart

open Checked Function Table

structure AdminStore where
  admin : Option Address
  pendingAdmin : Option Address
  token : Option Address
  pendingToken : Option Address
  pendingTokenRelease : Option Nat
  platformFee : Option Nat
  version : Nat
  initialized : Bool
  paused : Bool
  autoPaused : Bool
  creationDisabled : Bool
  minCampaignFundingGoal : Option Int
  maxCampaignFundingGoal : Option Int
  withdrawReleaseDelayDays : Nat
  withdrawReservePercentage : Nat
  tokenUpdateDelaySecs : Option Nat
  emergencyPauseSigners : List Address
  allowedToken : Address → Bool
  maxContributionPerTransaction : Int

structure CampaignStore where
  campaignCount : Nat
  campaign : Nat → Option Campaign
  campaignVesting : Nat → Option (Nat × Nat)
  campaignStartTime : Nat → Option Nat
  campaignReserve : Nat → Option CampaignReserve
  categoryCampaignsBucket : Category → Nat → List Nat
  categoryCampaignCount : Category → Nat
  categoryDurationCap : Category → Option Nat
  creatorCampaignCount : Address → Nat
  creatorCampaignsBucket : Address → Nat → List Nat
  activeCampaignCount : Nat
  verifiedCampaignCount : Nat
  cancelledCampaignCount : Nat
  campaignCreatorIndex : Nat → Option Address
  campaignMilestones : Nat → List Milestone
  milestoneClaimed : Nat → Nat → Bool
  commentCensured : Nat → Digest → Option CommentCensure
  campaignCensuredCount : Nat → Nat
  /-- Present only for a campaign whose currency is not the platform token. -/
  campaignToken : Nat → Option Address
  creatorCampaignPosition : Address → Nat → Option (Nat × Nat)
  creatorCampaignTitleIndex : Address → Digest → Option Nat
  campaignFeeRecipient : Nat → Option Address

structure ContributionStore where
  contribution : Nat → Address → Int
  lifetimeContribution : Nat → Address → Int
  personalCap : Nat → Address → Option Int
  contributorCount : Nat → Nat
  totalRaised : Int
  /-- Ledger sequence and the contributions counted in it. -/
  blockCampaignContributionCount : Nat → Nat × Nat
  topContributor : Nat → Option Address
  lastContributionTime : Nat → Nat

structure VotingStore where
  approveVotes : Nat → Nat
  rejectVotes : Nat → Nat
  approveWeight : Nat → Int
  rejectWeight : Nat → Int
  hasVoted : Nat → Address → Bool
  minVotesQuorum : Option Nat
  approvalThresholdBps : Option Nat
  minVotingBalance : Int
  categoryThresholdBps : Category → Option Nat

structure RevenueStore where
  revenuePool : Nat → Int
  revenueClaimed : Nat → Address → Int
  creatorRevenueClaimed : Nat → Int
  contributorRevenueDistributed : Nat → Int
  contributorRevenueClaimants : Nat → Nat

structure BookmarkStore where
  savedCampaigns : Address → List Nat

structure Transfer where
  token : Address
  sender : Address
  recipient : Address
  amount : Int
  deriving DecidableEq, Repr

/-- The token contracts: every balance, and the transfers the present call has
made, in order. -/
structure Tokens where
  balance : Address → Address → Int
  moved : List Transfer

structure State where
  admin : AdminStore
  campaigns : CampaignStore
  contributions : ContributionStore
  voting : VotingStore
  revenue : RevenueStore
  bookmarks : BookmarkStore
  tokens : Tokens

/-! ## Context of a call -/

structure Ledger where
  timestamp : Nat
  sequence : Nat
  timestamp_lt : timestamp < 2 ^ 64
  sequence_lt : sequence < 2 ^ 32

/-- What does not change from call to call. -/
structure Host where
  sha256 : Text → Digest

structure Env where
  host : Host
  ledger : Ledger
  /-- The addresses that authorised the call. -/
  auth : Address → Bool
  /-- The addresses that answer `decimals` as a token contract does. -/
  isTokenContract : Address → Bool

def Env.timestamp (env : Env) : Nat := env.ledger.timestamp

def Env.sequence (env : Env) : Nat := env.ledger.sequence

def requireAuth (env : Env) (address : Address) : Outcome Unit :=
  rejectIf (env.auth address = false) (.trap .auth)

/-! ## Tokens -/

def Tokens.move (w : Tokens) (t : Transfer) : Tokens :=
  let debited := update (w.balance t.token) t.sender (w.balance t.token t.sender - t.amount)
  { balance := update w.balance t.token
      (update debited t.recipient (debited t.recipient + t.amount)),
    moved := w.moved ++ [t] }

/-- A transfer moves exactly the amount, or traps when the amount is negative
or the sender holds less. -/
def transfer (s : State) (token sender recipient : Address) (amount : Int) : Outcome State :=
  if amount < 0 ∨ s.tokens.balance token sender < amount then .error (.trap .token)
  else .ok { s with tokens := s.tokens.move ⟨token, sender, recipient, amount⟩ }

theorem transfer_eq_ok {s s' : State} {token sender recipient : Address} {amount : Int} :
    transfer s token sender recipient amount = .ok s' ↔
      0 ≤ amount ∧ amount ≤ s.tokens.balance token sender ∧
        s' = { s with tokens := s.tokens.move ⟨token, sender, recipient, amount⟩ } := by
  unfold transfer
  split
  next h => simp; omega
  next h =>
    simp only [Except.ok.injEq, eq_comm (b := s')]
    constructor
    · intro heq; exact ⟨by omega, by omega, heq⟩
    · intro heq; exact heq.2.2

/-! ## Getters with a fallback -/

section Getters

variable (s : State)

def getAdmin : Outcome Address := okOr s.admin.admin (.trap .missingEntry)

def getToken : Outcome Address := okOr s.admin.token (.trap .missingEntry)

def getPlatformFee : Nat := s.admin.platformFee.getD 300

def getMinCampaignFundingGoal : Int := s.admin.minCampaignFundingGoal.getD campaignFundingGoalMin

def getMaxCampaignFundingGoal : Int := s.admin.maxCampaignFundingGoal.getD campaignFundingGoalMax

def getTokenUpdateDelaySecs : Nat := s.admin.tokenUpdateDelaySecs.getD tokenUpdateDelaySecs

def getMinVotesQuorum : Nat := s.voting.minVotesQuorum.getD defaultMinVotesQuorum

def getApprovalThresholdBps : Nat :=
  s.voting.approvalThresholdBps.getD defaultApprovalThresholdBps

/-- The currency of a campaign: the pinned one, else the platform token. -/
def getCampaignToken (campaignId : Nat) : Outcome Address :=
  match s.campaigns.campaignToken campaignId with
  | some token => .ok token
  | none => getToken s

end Getters

/-! ## Setters -/

section Setters

variable (s : State)

def setCampaign (campaignId : Nat) (campaign : Campaign) : State :=
  { s with campaigns.campaign := update s.campaigns.campaign campaignId (some campaign) }

def setCategoryCampaignBucket (category : Category) (bucketIdx : Nat) (ids : List Nat) :
    State :=
  { s with
    campaigns.categoryCampaignsBucket :=
      put s.campaigns.categoryCampaignsBucket category bucketIdx ids }

def setCategoryCampaignCount (category : Category) (count : Nat) : State :=
  { s with campaigns.categoryCampaignCount :=
      update s.campaigns.categoryCampaignCount category count }

def setCampaignCount (count : Nat) : State :=
  { s with campaigns.campaignCount := count }

def setCampaignStartTime (campaignId time : Nat) : State :=
  { s with campaigns.campaignStartTime :=
      update s.campaigns.campaignStartTime campaignId (some time) }

def setCampaignVesting (campaignId delayDays reserveBps : Nat) : State :=
  { s with campaigns.campaignVesting :=
      update s.campaigns.campaignVesting campaignId (some (delayDays, reserveBps)) }

/-- Nothing is written for the platform token. -/
def setCampaignToken (campaignId : Nat) (token : Option Address) : State :=
  match token with
  | some token =>
      { s with campaigns.campaignToken :=
          update s.campaigns.campaignToken campaignId (some token) }
  | none => s

def setCampaignReserve (campaignId : Nat) (reserve : CampaignReserve) : State :=
  { s with campaigns.campaignReserve :=
      update s.campaigns.campaignReserve campaignId (some reserve) }

def setCampaignMilestones (campaignId : Nat) (milestones : List Milestone) : State :=
  { s with campaigns.campaignMilestones :=
      update s.campaigns.campaignMilestones campaignId milestones }

def setMilestoneClaimed (campaignId milestoneId : Nat) : State :=
  { s with
    campaigns.milestoneClaimed := put s.campaigns.milestoneClaimed campaignId milestoneId true }

def setCampaignFeeRecipient (campaignId : Nat) (recipient : Address) : State :=
  { s with campaigns.campaignFeeRecipient :=
      update s.campaigns.campaignFeeRecipient campaignId (some recipient) }

def setContribution (campaignId : Nat) (contributor : Address) (amount : Int) : State :=
  { s with
    contributions.contribution := put s.contributions.contribution campaignId contributor amount }

/-- Removing the entry makes it read as zero. -/
def removeContribution (campaignId : Nat) (contributor : Address) : State :=
  setContribution s campaignId contributor 0

def setLifetimeContribution (campaignId : Nat) (contributor : Address) (amount : Int) :
    State :=
  { s with
    contributions.lifetimeContribution :=
      put s.contributions.lifetimeContribution campaignId contributor amount }

def setContributorCount (campaignId count : Nat) : State :=
  { s with contributions.contributorCount :=
      update s.contributions.contributorCount campaignId count }

def incrementContributorCount (campaignId : Nat) : Outcome State := do
  let count ← okOr (Word.checkedAdd 32 (s.contributions.contributorCount campaignId) 1)
    (.trap .arithmetic)
  pure (setContributorCount s campaignId count)

def decrementContributorCount (campaignId : Nat) : State :=
  let count := s.contributions.contributorCount campaignId
  if count > 0 then setContributorCount s campaignId (count - 1) else s

def setPersonalCap (campaignId : Nat) (contributor : Address) (cap : Option Int) : State :=
  { s with
    contributions.personalCap := put s.contributions.personalCap campaignId contributor cap }

def setTotalRaisedGlobal (amount : Int) : State :=
  { s with contributions.totalRaised := amount }

def setCampaignBlockContributionCount (campaignId sequence count : Nat) : State :=
  { s with contributions.blockCampaignContributionCount :=
      update s.contributions.blockCampaignContributionCount campaignId (sequence, count) }

def setTopContributor (campaignId : Nat) (contributor : Address) : State :=
  { s with contributions.topContributor :=
      update s.contributions.topContributor campaignId (some contributor) }

def setLastContributionTime (campaignId time : Nat) : State :=
  { s with contributions.lastContributionTime :=
      update s.contributions.lastContributionTime campaignId time }

def setRevenuePool (campaignId : Nat) (amount : Int) : State :=
  { s with revenue.revenuePool := update s.revenue.revenuePool campaignId amount }

def setRevenueClaimed (campaignId : Nat) (contributor : Address) (amount : Int) : State :=
  { s with
    revenue.revenueClaimed := put s.revenue.revenueClaimed campaignId contributor amount }

def removeRevenueClaimed (campaignId : Nat) (contributor : Address) : State :=
  setRevenueClaimed s campaignId contributor 0

def setCreatorRevenueClaimed (campaignId : Nat) (amount : Int) : State :=
  { s with revenue.creatorRevenueClaimed :=
      update s.revenue.creatorRevenueClaimed campaignId amount }

def setContributorRevenueDistributed (campaignId : Nat) (amount : Int) : State :=
  { s with revenue.contributorRevenueDistributed :=
      update s.revenue.contributorRevenueDistributed campaignId amount }

def setContributorRevenueClaimants (campaignId count : Nat) : State :=
  { s with revenue.contributorRevenueClaimants :=
      update s.revenue.contributorRevenueClaimants campaignId count }

def setActiveCampaignCount (count : Nat) : State :=
  { s with campaigns.activeCampaignCount := count }

def incrementActiveCampaignCount : Outcome State := do
  let count ← okOr (Word.checkedAdd 32 s.campaigns.activeCampaignCount 1) (.trap .arithmetic)
  pure (setActiveCampaignCount s count)

def decrementActiveCampaignCount : State :=
  if s.campaigns.activeCampaignCount > 0 then
    setActiveCampaignCount s (s.campaigns.activeCampaignCount - 1)
  else s

def setVerifiedCampaignCount (count : Nat) : State :=
  { s with campaigns.verifiedCampaignCount := count }

def incrementVerifiedCampaignCount : Outcome State := do
  let count ← okOr (Word.checkedAdd 32 s.campaigns.verifiedCampaignCount 1) (.trap .arithmetic)
  pure (setVerifiedCampaignCount s count)

/-- Saturates at zero. -/
def decrementVerifiedCampaignCount : State :=
  setVerifiedCampaignCount s (s.campaigns.verifiedCampaignCount - 1)

def setCancelledCampaignCount (count : Nat) : State :=
  { s with campaigns.cancelledCampaignCount := count }

def incrementCancelledCampaignCount : Outcome State := do
  let count ← okOr (Word.checkedAdd 32 s.campaigns.cancelledCampaignCount 1) (.trap .arithmetic)
  pure (setCancelledCampaignCount s count)

def setCreatorCampaignCount (creator : Address) (count : Nat) : State :=
  { s with campaigns.creatorCampaignCount :=
      update s.campaigns.creatorCampaignCount creator count }

def setCreatorCampaignBucket (creator : Address) (bucketIdx : Nat) (ids : List Nat) :
    State :=
  { s with
    campaigns.creatorCampaignsBucket :=
      put s.campaigns.creatorCampaignsBucket creator bucketIdx ids }

def setCreatorCampaignPosition (creator : Address) (campaignId : Nat)
    (position : Option (Nat × Nat)) : State :=
  { s with
    campaigns.creatorCampaignPosition :=
      put s.campaigns.creatorCampaignPosition creator campaignId position }

def setCampaignCreatorIndex (campaignId : Nat) (creator : Address) : State :=
  { s with campaigns.campaignCreatorIndex :=
      update s.campaigns.campaignCreatorIndex campaignId (some creator) }

def setCreatorTitleIndex (creator : Address) (titleHash : Digest) (campaignId : Nat) :
    State :=
  { s with
    campaigns.creatorCampaignTitleIndex :=
      put s.campaigns.creatorCampaignTitleIndex creator titleHash (some campaignId) }

def setApproveTally (campaignId votes : Nat) (weight : Int) : State :=
  { s with
    voting.approveVotes := update s.voting.approveVotes campaignId votes
    voting.approveWeight := update s.voting.approveWeight campaignId weight }

def setRejectTally (campaignId votes : Nat) (weight : Int) : State :=
  { s with
    voting.rejectVotes := update s.voting.rejectVotes campaignId votes
    voting.rejectWeight := update s.voting.rejectWeight campaignId weight }

def setHasVoted (campaignId : Nat) (voter : Address) (voted : Bool) : State :=
  { s with voting.hasVoted := put s.voting.hasVoted campaignId voter voted }

/-- Removes the four aggregate tallies; the marks of the voters stay. -/
def removeVotingState (campaignId : Nat) : State :=
  setRejectTally (setApproveTally s campaignId 0 0) campaignId 0 0

def setSavedCampaigns (user : Address) (ids : List Nat) : State :=
  { s with bookmarks.savedCampaigns := update s.bookmarks.savedCampaigns user ids }

end Setters

/-! ## Hashing -/

/-- The fixed buffer takes at most a title's length; a longer text traps. -/
def hashText (env : Env) (text : Text) : Outcome Digest := do
  rejectIf (text.length > campaignTitleMaxLen) (.trap .badArgument)
  pure (env.host.sha256 text)

end ProofOfHeart
