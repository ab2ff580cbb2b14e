import ProofOfHeart.Campaigns.Create

/-! # Transferring a campaign to another creator -/

namespace ProofOfHeart

open Checked

section Transfer

variable (env : Env) (s : State)

/-- First bucket, then first slot, that holds the campaign. -/
def legacyScan (creator : Address) (campaignId bucketCount : Nat) : Option (Nat × Nat) :=
  (List.range bucketCount).findSome? fun bucketIdx =>
    let bucket := s.campaigns.creatorCampaignsBucket creator bucketIdx
    if campaignId ∈ bucket then some (bucketIdx, bucket.idxOf campaignId) else none

def getCreatorCampaignPositionOrLegacyScan (creator : Address) (campaignId campaignCount : Nat) :
    Option (Nat × Nat) :=
  match s.campaigns.creatorCampaignPosition creator campaignId with
  | some position => some position
  | none =>
      legacyScan s creator campaignId
        ((campaignCount + creatorCampaignsBucketSize - 1) / creatorCampaignsBucketSize)

def initiateCampaignTransfer (campaignId : Nat) (newCreator : Address) : Outcome State := do
  let campaign ← getCreatorCampaign env s campaignId
  requireNotPaused s
  requireActiveCampaign campaign
  rejectIf campaign.fundsWithdrawn (.err .campaignNotActive)
  rejectIf (newCreator = campaign.creator) (.err .invalidNewOwner)
  rejectIf (campaign.pendingCreator ≠ none) (.err .transferAlreadyPending)
  pure (setCampaign s campaignId { campaign with pendingCreator := some newCreator })

/-- Swap removal: the last entry of the bucket takes the freed slot. -/
def removeFromCreator (creator : Address) (campaignId : Nat) : Outcome State := do
  let count := s.campaigns.creatorCampaignCount creator
  let (bucketIdx, slotIdx) ←
    okOr (getCreatorCampaignPositionOrLegacyScan s creator campaignId count)
      (.err .validationFailed)
  let bucket := s.campaigns.creatorCampaignsBucket creator bucketIdx
  rejectIf (bucket = []) (.err .validationFailed)
  rejectIf (bucket[slotIdx]? ≠ some campaignId) (.err .validationFailed)
  let lastSlotIdx := bucket.length - 1
  let lastCampaignId ← okOr bucket[lastSlotIdx]? (.err .validationFailed)
  let s := if slotIdx ≠ lastSlotIdx then
      setCreatorCampaignPosition s creator lastCampaignId (some (bucketIdx, slotIdx))
    else s
  let s := setCreatorCampaignBucket s creator bucketIdx
    (bucket.set slotIdx lastCampaignId).dropLast
  let s := setCreatorCampaignPosition s creator campaignId none
  pure (setCreatorCampaignCount s creator (count - 1))

def acceptCampaignTransfer (campaignId : Nat) : Outcome State := do
  let campaign ← getCampaignOrError s campaignId
  requireActiveCampaign campaign
  requireNotPaused s
  let pending ← okOr campaign.pendingCreator (.err .noTransferPending)
  requireAuth env pending
  rejectIf (pending = campaign.creator) (.err .invalidNewOwner)
  let s ← removeFromCreator s campaign.creator campaignId
  let s ← appendToCreator s pending campaignId
  pure (setCampaign s campaignId { campaign with creator := pending, pendingCreator := none })

def cancelCampaignTransfer (campaignId : Nat) : Outcome State := do
  let campaign ← getCreatorCampaign env s campaignId
  requireNotPaused s
  rejectIf (campaign.pendingCreator = none) (.err .noTransferPending)
  pure (setCampaign s campaignId { campaign with pendingCreator := none })

end Transfer

end ProofOfHeart
