import ProofOfHeart.Campaigns.Withdraw

/-! # Milestone payouts

A campaign with milestones is paid slice by slice. Every claim recomputes the
fee, the net amount and the slices already claimed from the amount raised and
the fee of the moment.
-/

namespace ProofOfHeart

open Checked

section Milestones

variable (env : Env) (s : State)

/-! ## Setting and verifying -/

/-- The identifiers seen so far and the sum of their basis points. -/
def checkMilestone (progress : List Nat × Nat) (milestone : Milestone) :
    Outcome (List Nat × Nat) := do
  rejectIf (milestone.payoutBps = 0 ∨ milestone.payoutBps > bpsDenominator)
    (.err .validationFailed)
  rejectIf (milestone.description.length = 0) (.err .validationFailed)
  rejectIf (milestone.id ∈ progress.1) (.err .validationFailed)
  let totalBps ← okOr (Word.checkedAdd 32 progress.2 milestone.payoutBps) (.err .overflow)
  pure (progress.1 ++ [milestone.id], totalBps)

def setMilestones (campaignId : Nat) (milestones : List Milestone) : Outcome State := do
  let campaign ← getCampaignOrError s campaignId
  assertCreator env campaign
  requireNotPaused s
  rejectIf (campaign.isCancelled ∨ campaign.fundsWithdrawn) (.err .campaignNotActive)
  rejectIf (milestones = [] ∨ milestones.length > maxMilestones) (.err .validationFailed)
  rejectIf (s.campaigns.campaignMilestones campaignId ≠ []) (.err .validationFailed)
  let progress ← each checkMilestone ([], 0) milestones
  rejectIf (progress.2 ≠ bpsDenominator) (.err .validationFailed)
  pure (setCampaignMilestones s campaignId
    (milestones.map fun milestone => { milestone with verified := false }))

/-- The list with the milestone marked, and whether it was found. A second mark
is rejected. -/
def markVerified (milestoneId : Nat) : List Milestone → Outcome (List Milestone × Bool)
  | [] => .ok ([], false)
  | milestone :: rest =>
      if milestone.id = milestoneId then do
        rejectIf milestone.verified (.err .validationFailed)
        let (updated, _) ← markVerified milestoneId rest
        pure ({ milestone with verified := true } :: updated, true)
      else do
        let (updated, found) ← markVerified milestoneId rest
        pure (milestone :: updated, found)

def verifyMilestone (admin : Address) (campaignId milestoneId : Nat) : Outcome State := do
  assertAdmin env s admin
  requireNotPaused s
  let campaign ← getCampaignOrError s campaignId
  rejectIf campaign.isCancelled (.err .campaignNotActive)
  let milestones := s.campaigns.campaignMilestones campaignId
  rejectIf (milestones = []) (.err .milestoneNotFound)
  let (updated, found) ← markVerified milestoneId milestones
  rejectIf (found = false) (.err .milestoneNotFound)
  pure (setCampaignMilestones s campaignId updated)

/-! ## Claiming -/

/-- `bps` of `amount`, rounded down. -/
def floorShare (amount : Int) (bps : Nat) : Outcome Int := do
  let product ← okOr (I128.checkedMul amount bps) (.err .overflow)
  pure (product.tdiv bpsDenominator)

/-- Adds a claimed milestone's basis points and its slice of `amount`. -/
def addClaimed (claimed : Nat → Bool) (amount : Int) (sums : Nat × Int)
    (milestone : Milestone) : Outcome (Nat × Int) :=
  if claimed milestone.id then do
    let bps ← okOr (Word.checkedAdd 32 sums.1 milestone.payoutBps) (.err .overflow)
    let slice ← floorShare amount milestone.payoutBps
    let sum ← okOr (I128.checkedAdd sums.2 slice) (.err .overflow)
    pure (bps, sum)
  else pure sums

def addClaimedFee (claimed : Nat → Bool) (feeTotal sum : Int) (milestone : Milestone) :
    Outcome Int :=
  if claimed milestone.id then do
    let slice ← floorShare feeTotal milestone.payoutBps
    okOr (I128.checkedAdd sum slice) (.err .overflow)
  else pure sum

/-- What the claim pays to the creator and to the platform. The last unclaimed
milestone takes the remainder of both; the dust test the source makes on the
creator's slice is overwritten by that remainder. -/
def milestonePayout (milestones : List Milestone) (claimed : Nat → Bool) (milestone : Milestone)
    (feeTotal totalAfterFee : Int) : Outcome (Int × Int) := do
  let (claimedBps, claimedAmount) ← each (addClaimed claimed totalAfterFee) (0, 0) milestones
  let slice ← floorShare totalAfterFee milestone.payoutBps
  let remainingBps ← okOr (Word.checkedSub bpsDenominator claimedBps) (.err .overflow)
  if remainingBps = milestone.payoutBps then do
    let remaining ← okOr (I128.checkedSub totalAfterFee claimedAmount) (.err .overflow)
    let feeSlice ← floorShare feeTotal milestone.payoutBps
    let feeClaimed ← each (addClaimedFee claimed feeTotal) 0 milestones
    let feeRemaining ← okOr (I128.checkedSub feeTotal feeClaimed) (.err .overflow)
    pure (remaining, max feeSlice feeRemaining)
  else do
    let feeSlice ← floorShare feeTotal milestone.payoutBps
    pure (slice, feeSlice)

def allClaimed (milestones : List Milestone) (claimed : Nat → Bool) (milestoneId : Nat) : Bool :=
  milestones.all fun milestone => milestone.id = milestoneId || claimed milestone.id

/-- The claim of the last open milestone closes the campaign. -/
def closeWhenDone (campaignId : Nat) (campaign : Campaign) (done : Bool) : State :=
  if done then
    decrementActiveCampaignCount
      (setCampaign s campaignId { campaign with fundsWithdrawn := true, isActive := false })
  else s

def payMilestoneFee (token admin : Address) (amount : Int) : Outcome State :=
  if amount > 0 then transfer s token contractAddress admin amount else pure s

def claimMilestone (campaignId milestoneId : Nat) : Outcome State := do
  let campaign ← getCampaignOrError s campaignId
  assertCreator env campaign
  requireNotPaused s
  rejectIf campaign.isCancelled (.err .campaignNotActive)
  rejectIf (¬ campaign.isVerified) (.err .campaignNotVerified)
  rejectIf campaign.fundsWithdrawn (.err .fundsAlreadyWithdrawn)
  rejectIf (campaign.amountRaised = 0) (.err .noFundsToWithdraw)
  rejectIf (campaign.amountRaised < campaign.fundingGoal) (.err .fundingGoalNotReached)
  let milestones := s.campaigns.campaignMilestones campaignId
  let claimed := s.campaigns.milestoneClaimed campaignId
  rejectIf (milestones = []) (.err .milestoneNotFound)
  let milestone ← okOr (milestones.find? fun milestone => milestone.id = milestoneId)
    (.err .milestoneNotFound)
  rejectIf (¬ milestone.verified) (.err .milestoneNotVerified)
  rejectIf (claimed milestoneId) (.err .milestoneAlreadyClaimed)
  let feeTotal ← ceilShare campaign.amountRaised (effectiveFee s campaign)
  let totalAfterFee ← okOr (I128.checkedSub campaign.amountRaised feeTotal) (.trap .arithmetic)
  let (claimable, feeClaim) ←
    milestonePayout milestones claimed milestone feeTotal totalAfterFee
  rejectIf (claimable ≤ 0) (.err .noFundsToWithdraw)
  let s := setMilestoneClaimed s campaignId milestoneId
  let toDeduct ← okOr (I128.checkedAdd feeClaim claimable) (.err .overflow)
  let total ← okOr (I128.checkedSub s.contributions.totalRaised toDeduct) (.err .overflow)
  let s := setTotalRaisedGlobal s total
  let s := closeWhenDone s campaignId campaign (allClaimed milestones claimed milestoneId)
  let admin ← getAdmin s
  let token ← getCampaignToken s campaignId
  let s ← payMilestoneFee s token admin feeClaim
  transfer s token contractAddress campaign.creator claimable

end Milestones

end ProofOfHeart
