import ProofOfHeart.Machine
import ProofOfHeart.Queries

/-! # Tags of campaigns

The tags and their index are kept apart from the other stores: no entry point that
is exported yet reads or writes them. An index lists, under the digest of a tag, the
campaigns that carry it, in buckets of at most `tagCampaignsBucketSize` numbers.
-/

namespace ProofOfHeart

open Checked Function Trace

def campaignTagMinLen : Nat := 1

def campaignTagMaxLen : Nat := 32

def maxTagsPerCampaign : Nat := 10

def tagCampaignsBucketSize : Nat := 500

structure TagStore where
  campaignTags : Nat → List Text
  tagCampaignCount : Digest → Nat
  tagCampaignsBucket : Digest → Nat → List Nat

def emptyTags : TagStore where
  campaignTags _ := []
  tagCampaignCount _ := 0
  tagCampaignsBucket _ _ := []

section Tags

variable (env : Env) (s : State) (t : TagStore)

def setCampaignTags (campaignId : Nat) (tags : List Text) : TagStore :=
  { t with campaignTags := update t.campaignTags campaignId tags }

def appendCampaignToTag (tagHash : Digest) (campaignId : Nat) : Outcome TagStore := do
  let count := t.tagCampaignCount tagHash
  let bucketIdx := count / tagCampaignsBucketSize
  let bucket := t.tagCampaignsBucket tagHash bucketIdx ++ [campaignId]
  let next ← okOr (Word.checkedAdd 32 count 1) (.trap .arithmetic)
  pure { t with
    tagCampaignsBucket := update t.tagCampaignsBucket tagHash
      (update (t.tagCampaignsBucket tagHash) bucketIdx bucket)
    tagCampaignCount := update t.tagCampaignCount tagHash next }

def addCampaignTag (campaignId : Nat) (tag : Text) : Outcome TagStore := do
  let campaign ← getCreatorCampaign env s campaignId
  requireNotPaused s
  requireActiveCampaign campaign
  rejectIf (tag.length < campaignTagMinLen ∨ tag.length > campaignTagMaxLen)
    (.err .validationFailed)
  let tags := t.campaignTags campaignId
  rejectIf (tags.length ≥ maxTagsPerCampaign) (.err .validationFailed)
  -- a second identical tag would list the campaign twice
  rejectIf (tag ∈ tags) (.err .validationFailed)
  let tagHash ← hashText env tag
  let t ← appendCampaignToTag t tagHash campaignId
  pure (setCampaignTags t campaignId (tags ++ [tag]))

def getCampaignTagList (campaignId : Nat) : List Text := t.campaignTags campaignId

/-- A text that no tag can have gives an empty page. -/
def getCampaignsByTag (tag : Text) (offset limit fuel : Nat) :
    Outcome (Option (List Campaign)) :=
  if tag.length < campaignTagMinLen ∨ tag.length > campaignTagMaxLen then pure (some [])
  else do
    let tagHash ← hashText env tag
    pure (getCampaignsFromBuckets s offset limit (t.tagCampaignCount tagHash)
      tagCampaignsBucketSize (t.tagCampaignsBucket tagHash) fuel)

end Tags

/-! ## Runs in which tags are added -/

/-- A call of the contract, or a tag that is added to a campaign. -/
inductive TagEvent
  | called (receipt : Receipt)
  | tagged (env : Env) (campaignId : Nat) (tag : Text)

structure TagConfig where
  config : Config
  tags : TagStore

/-- Tags are added between the calls of any run. Adding one does not look at the time. -/
def tagMachine (host : Host) : System TagConfig TagEvent where
  Start e cfg := ∃ r, e = .called r ∧ (machine host).Start r cfg.config ∧ cfg.tags = emptyTags
  Step cfg e cfg' :=
    (∃ r, e = .called r ∧ (machine host).Step cfg.config r cfg'.config ∧ cfg'.tags = cfg.tags) ∨
    ∃ env campaignId tag, e = .tagged env campaignId tag ∧ env.host = host ∧
      addCampaignTag env cfg.config.state cfg.tags campaignId tag = .ok cfg'.tags ∧
      cfg'.config = cfg.config
  Drift cfg cfg' := (machine host).Drift cfg.config cfg'.config ∧ cfg'.tags = cfg.tags

end ProofOfHeart
