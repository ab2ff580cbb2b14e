import ProofOfHeart.Lifecycle

/-! # Bookmarks -/

namespace ProofOfHeart

open Checked

section Bookmarks

variable (env : Env) (s : State)

def saveCampaign (user : Address) (campaignId : Nat) : Outcome State := do
  requireAuth env user
  let _ ← getCampaignOrError s campaignId
  let saved := s.bookmarks.savedCampaigns user
  rejectIf (campaignId ∈ saved) (.err .campaignAlreadyBookmarked)
  rejectIf (saved.length ≥ maxBookmarksPerWallet) (.err .bookmarkLimitReached)
  pure (setSavedCampaigns s user (saved ++ [campaignId]))

def removeSavedCampaign (user : Address) (campaignId : Nat) : Outcome State := do
  requireAuth env user
  let saved := s.bookmarks.savedCampaigns user
  rejectIf (campaignId ∉ saved) (.err .campaignNotBookmarked)
  pure (setSavedCampaigns s user (saved.eraseIdx (saved.idxOf campaignId)))

/-- The batch does not look at the limit. -/
def saveInBatch (saved : List Nat) (campaignId : Nat) : Outcome (List Nat) := do
  let _ ← getCampaignOrError s campaignId
  rejectIf (campaignId ∈ saved) (.err .campaignAlreadyBookmarked)
  pure (saved ++ [campaignId])

def batchSaveCampaigns (user : Address) (campaignIds : List Nat) : Outcome State := do
  requireAuth env user
  let saved ← each (saveInBatch s) (s.bookmarks.savedCampaigns user) campaignIds
  pure (setSavedCampaigns s user saved)

def clearSavedCampaigns (user : Address) : Outcome State := do
  requireAuth env user
  pure (setSavedCampaigns s user [])

end Bookmarks

end ProofOfHeart
