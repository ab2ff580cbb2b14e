import ProofOfHeart.Lifecycle

/-! # Voting and verification -/

namespace ProofOfHeart

open Checked

section Voting

variable (env : Env) (s : State)

/-! ## Votes -/

/-- The weights mirror the counts with one unit for each vote. -/
def countVote (campaignId : Nat) (approve : Bool) : Outcome State :=
  if approve then do
    let votes ← okOr (Word.checkedAdd 32 (s.voting.approveVotes campaignId) 1) (.err .overflow)
    let weight ← okOr (I128.checkedAdd (s.voting.approveWeight campaignId) 1) (.err .overflow)
    pure (setApproveTally s campaignId votes weight)
  else do
    let votes ← okOr (Word.checkedAdd 32 (s.voting.rejectVotes campaignId) 1) (.err .overflow)
    let weight ← okOr (I128.checkedAdd (s.voting.rejectWeight campaignId) 1) (.err .overflow)
    pure (setRejectTally s campaignId votes weight)

def castVote (campaignId : Nat) (voter : Address) (approve : Bool) : Outcome State := do
  requireAuth env voter
  let campaign ← getCampaignOrError s campaignId
  rejectIf campaign.fundsWithdrawn (.err .campaignNotActive)
  requireActiveCampaign campaign
  rejectIf (env.timestamp > campaign.deadline) (.err .deadlinePassed)
  requireUnverifiedCampaign campaign
  -- the platform token, whatever the campaign settles in
  let token ← getToken s
  let balance := s.tokens.balance token voter
  rejectIf (balance ≤ 0) (.err .notTokenHolder)
  rejectIf (balance < s.voting.minVotingBalance) (.err .notTokenHolder)
  rejectIf (s.voting.hasVoted campaignId voter) (.err .alreadyVoted)
  let s ← countVote s campaignId approve
  pure (setHasVoted s campaignId voter true)

def voteOnCampaign (campaignId : Nat) (voter : Address) (approve : Bool) : Outcome State := do
  requireNotPaused s
  castVote env s campaignId voter approve

/-! ## Verification -/

def markCampaignVerified (campaignId : Nat) (campaign : Campaign) : Outcome State :=
  incrementVerifiedCampaignCount (setCampaign s campaignId { campaign with isVerified := true })

/-- The result of a callee whose `Err` the caller may catch: the state the
callee left, which is not undone, beside its own result. -/
abbrev Caught := Except Trap (State × Except Error Unit)

/-- Go on after a successful step; an `Err` returns from the callee in state `s`. -/
def attempt {α : Type} (s : State) (step : Outcome α) (next : α → Caught) : Caught :=
  match step with
  | .ok a => next a
  | .error (.err e) => .ok (s, .error e)
  | .error (.trap trap) => .error trap

def adminVerify (campaignId : Nat) : Caught :=
  attempt s (getCampaignOrError s campaignId) fun campaign =>
  attempt s (rejectIf campaign.isCancelled (.err .campaignNotActive)) fun _ =>
  attempt s (rejectIf campaign.isVerified (.err .adminVerificationConflict)) fun _ =>
  attempt s (requireActiveCampaign campaign) fun _ =>
  attempt s (transition (.of campaign) .verified) fun _ =>
  let s := setCampaign s campaignId { campaign with isVerified := true }
  attempt s (incrementVerifiedCampaignCount s) fun s => .ok (s, .ok ())

/-- An `Err` that reaches the top of the call undoes its writes. -/
def Caught.commit (caught : Caught) : Outcome State :=
  match caught with
  | .ok (s, .ok ()) => .ok s
  | .ok (_, .error e) => .error (.err e)
  | .error trap => .error (.trap trap)

def verifyCampaign (campaignId : Nat) : Outcome State := do
  let admin ← getAdmin s
  assertAdmin env s admin
  requireNotPaused s
  (adminVerify s campaignId).commit

structure VerifyProgress where
  state : State
  verifiedIds : List Nat
  failedIds : List Nat

/-- An `Err` is swallowed and not rolled back; a trap ends the whole call. -/
def verifyOne (progress : VerifyProgress) (campaignId : Nat) : Outcome VerifyProgress :=
  match adminVerify progress.state campaignId with
  | .ok (s, .ok ()) =>
      .ok { progress with state := s, verifiedIds := progress.verifiedIds ++ [campaignId] }
  | .ok (s, .error _) =>
      .ok { progress with state := s, failedIds := progress.failedIds ++ [campaignId] }
  | .error trap => .error (.trap trap)

def maxVerifyBatchSize : Nat := 50

def verifyCampaigns (campaignIds : List Nat) : Outcome VerifyProgress := do
  let admin ← getAdmin s
  assertAdmin env s admin
  requireNotPaused s
  each verifyOne ⟨s, [], []⟩ (campaignIds.take maxVerifyBatchSize)

/-- The category override, else the global threshold. -/
def effectiveApprovalThresholdBps (category : Category) : Nat :=
  (s.voting.categoryThresholdBps category).getD (getApprovalThresholdBps s)

/-- Zero votes count as no approval. The quotient is cut to 32 bits. -/
def approvalBps (approveVotes totalVotes : Nat) : Nat :=
  (if totalVotes = 0 then 0 else approveVotes * bpsDenominator / totalVotes) % 2 ^ 32

def verifyWithVotes (campaignId : Nat) : Outcome State := do
  let campaign ← getCampaignOrError s campaignId
  rejectIf campaign.isCancelled (.err .campaignNotActive)
  rejectIf campaign.isVerified (.err .communityVerificationConflict)
  requireActiveCampaign campaign
  let approveVotes := s.voting.approveVotes campaignId
  let totalVotes ← okOr (Word.checkedAdd 32 approveVotes (s.voting.rejectVotes campaignId))
    (.err .overflow)
  rejectIf (totalVotes < getMinVotesQuorum s) (.err .votingQuorumNotMet)
  rejectIf (approvalBps approveVotes totalVotes <
    effectiveApprovalThresholdBps s campaign.category) (.err .votingThresholdNotMet)
  transition (.of campaign) .verified
  markCampaignVerified s campaignId campaign

def verifyCampaignWithVotes (campaignId : Nat) : Outcome State := do
  requireNotPaused s
  verifyWithVotes s campaignId

end Voting

end ProofOfHeart
