import ProofOfHeart.Lifecycle

/-! # Revenue sharing -/

namespace ProofOfHeart

open Checked

section Revenue

variable (env : Env) (s : State)

def depositRevenue (campaignId : Nat) (amount : Int) : Outcome State := do
  let campaign ← getCreatorCampaign env s campaignId
  requireNotPaused s
  rejectIf (amount ≤ 0) (.err .validationFailed)
  rejectIf campaign.isCancelled (.err .campaignNotActive)
  rejectIf (¬ campaign.fundsWithdrawn) (.err .validationFailed)
  requireRevenueSharing campaign .revenueSharingNotEnabled
  rejectIf (campaign.amountRaised = 0) (.err .amountRaisedIsZero)
  let pool ← okOr (I128.checkedAdd (s.revenue.revenuePool campaignId) amount) (.err .overflow)
  let s := setRevenuePool s campaignId pool
  let token ← getCampaignToken s campaignId
  transfer s token campaign.creator contractAddress amount

/-- The pro-rata share of one contributor; every division comes last. -/
def revenueDue (contribution pool : Int) (shareBps : Nat) (effective : Int) : Outcome Int := do
  let product ← okOr (I128.checkedMul contribution pool) (.err .overflow)
  let scaled ← okOr (I128.checkedMul product shareBps) (.err .overflow)
  let share ← okOr (I128.checkedDiv scaled effective) (.err .overflow)
  okOr (I128.checkedDiv share bpsDenominator) (.err .overflow)

def creatorShareTotal (pool : Int) (shareBps : Nat) : Outcome Int := do
  let product ← okOr (I128.checkedMul pool ((bpsDenominator : Int) - shareBps)) (.err .overflow)
  okOr (I128.checkedDiv product bpsDenominator) (.err .overflow)

/-- This is a first claim, and with it every contributor has claimed. -/
def isLastClaimant (alreadyClaimed : Int) (claimants contributors : Nat) : Prop :=
  alreadyClaimed = 0 ∧ contributors > 0 ∧ claimants + 1 ≥ contributors

instance (alreadyClaimed : Int) (claimants contributors : Nat) :
    Decidable (isLastClaimant alreadyClaimed claimants contributors) :=
  inferInstanceAs (Decidable (_ ∧ _))

/-- The last claimant takes what is left of the contributors' side of the pool. -/
def withDust (last : Prop) [Decidable last] (pool distributed claimable : Int) (shareBps : Nat) :
    Outcome Int :=
  if last then do
    let creatorShare ← creatorShareTotal pool shareBps
    let contributorPool ← okOr (I128.checkedSub pool creatorShare) (.trap .arithmetic)
    let remaining ← okOr (I128.checkedSub contributorPool distributed) (.trap .arithmetic)
    pure (if remaining > claimable then remaining else claimable)
  else pure claimable

/-- The addition of one claimant, evaluated only for a first claim. -/
def checkClaimants (alreadyClaimed : Int) (claimants contributors : Nat) : Outcome Unit :=
  if alreadyClaimed = 0 ∧ contributors > 0 then do
    let _ ← okOr (Word.checkedAdd 32 claimants 1) (.err .overflow)
    pure ()
  else pure ()

def countClaimant (campaignId : Nat) (alreadyClaimed : Int) (claimants : Nat) : Outcome State :=
  if alreadyClaimed = 0 then do
    let count ← okOr (Word.checkedAdd 32 claimants 1) (.err .overflow)
    pure (setContributorRevenueClaimants s campaignId count)
  else pure s

def claimRevenue (campaignId : Nat) (contributor : Address) : Outcome State := do
  requireAuth env contributor
  requireNotPaused s
  let campaign ← getCampaignOrError s campaignId
  rejectIf campaign.isCancelled (.err .campaignNotActive)
  requireRevenueSharing campaign .validationFailed
  rejectIf (¬ campaign.fundsWithdrawn) (.err .validationFailed)
  let contribution := s.contributions.contribution campaignId contributor
  rejectIf (contribution = 0) (.err .validationFailed)
  rejectIf (campaign.effectiveAmountRaised = 0) (.err .amountRaisedIsZero)
  let pool := s.revenue.revenuePool campaignId
  let totalDue ← revenueDue contribution pool campaign.revenueSharePercentage
    campaign.effectiveAmountRaised
  let alreadyClaimed := s.revenue.revenueClaimed campaignId contributor
  let share ← okOr (I128.checkedSub totalDue alreadyClaimed) (.trap .arithmetic)
  rejectIf (share ≤ 0) (.err .noFundsToWithdraw)
  let claimants := s.revenue.contributorRevenueClaimants campaignId
  let contributors := s.contributions.contributorCount campaignId
  checkClaimants alreadyClaimed claimants contributors
  let distributed := s.revenue.contributorRevenueDistributed campaignId
  let claimable ← withDust (isLastClaimant alreadyClaimed claimants contributors) pool distributed
    share campaign.revenueSharePercentage
  rejectIf (claimable ≤ 0) (.err .noFundsToWithdraw)
  let newClaimed ← okOr (I128.checkedAdd alreadyClaimed claimable) (.err .overflow)
  let s := setRevenueClaimed s campaignId contributor newClaimed
  let newDistributed ← okOr (I128.checkedAdd distributed claimable) (.err .overflow)
  let s := setContributorRevenueDistributed s campaignId newDistributed
  let s ← countClaimant s campaignId alreadyClaimed claimants
  let token ← getCampaignToken s campaignId
  transfer s token contractAddress contributor claimable

def claimCreatorRevenue (campaignId : Nat) : Outcome State := do
  let campaign ← getCreatorCampaign env s campaignId
  requireNotPaused s
  requireRevenueSharing campaign .validationFailed
  rejectIf (campaign.revenueSharePercentage > bpsDenominator) (.err .validationFailed)
  let creatorShare ← creatorShareTotal (s.revenue.revenuePool campaignId)
    campaign.revenueSharePercentage
  let alreadyClaimed := s.revenue.creatorRevenueClaimed campaignId
  let claimable ← okOr (I128.checkedSub creatorShare alreadyClaimed) (.trap .arithmetic)
  rejectIf (claimable ≤ 0) (.err .noFundsToWithdraw)
  let newClaimed ← okOr (I128.checkedAdd alreadyClaimed claimable) (.err .overflow)
  let s := setCreatorRevenueClaimed s campaignId newClaimed
  let token ← getCampaignToken s campaignId
  transfer s token contractAddress campaign.creator claimable

end Revenue

end ProofOfHeart
