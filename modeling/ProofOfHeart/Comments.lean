import ProofOfHeart.Lifecycle

/-! # Censure of off-chain comments -/

namespace ProofOfHeart

open Checked Function Table

section Comments

variable (env : Env) (s : State)

def setCommentCensure (campaignId : Nat) (commentHash : Digest) (record : Option CommentCensure)
    (count : Nat) : State :=
  { s with
    campaigns.commentCensured :=
      put s.campaigns.commentCensured campaignId commentHash record
    campaigns.campaignCensuredCount :=
      update s.campaigns.campaignCensuredCount campaignId count }

/-- A repeated censure succeeds and changes nothing. -/
def censureComment (admin : Address) (campaignId : Nat) (commentHash : Digest) (reason : Text) :
    Outcome State := do
  assertAdmin env s admin
  requireNotPaused s
  let _ ← getCampaignOrError s campaignId
  rejectIf (reason.length = 0 ∨ reason.length > censureReasonMaxLen) (.err .validationFailed)
  pure (match s.campaigns.commentCensured campaignId commentHash with
    | some _ => s
    | none =>
        setCommentCensure s campaignId commentHash
          (some { reason := reason, censuredAt := env.timestamp, admin := admin })
          (Word.saturatingAdd 32 (s.campaigns.campaignCensuredCount campaignId) 1))

def uncensureComment (admin : Address) (campaignId : Nat) (commentHash : Digest) :
    Outcome State := do
  assertAdmin env s admin
  requireNotPaused s
  let _ ← getCampaignOrError s campaignId
  pure (match s.campaigns.commentCensured campaignId commentHash with
    | none => s
    | some _ =>
        setCommentCensure s campaignId commentHash none
          (s.campaigns.campaignCensuredCount campaignId - 1))

end Comments

end ProofOfHeart
