import ProofOfHeart.Contributions
import ProofOfHeart.Campaigns.Transfer
import ProofOfHeart.Campaigns.Cancel
import ProofOfHeart.Campaigns.Update
import ProofOfHeart.Milestones
import ProofOfHeart.Revenue
import ProofOfHeart.Voting
import ProofOfHeart.Admin
import ProofOfHeart.Bookmarks
import ProofOfHeart.Comments

/-! # The entry points

A call names an entry point that can write, together with its arguments. The
read-only entry points change nothing and are modelled beside the data they read.
-/

namespace ProofOfHeart

open Checked

inductive Call
  | init (admin token : Address) (platformFee : Nat)
  | createCampaign (params : CreateCampaignParams)
  | createCampaignWithToken (params : CreateCampaignParams) (token : Address)
  | setTokenAllowed (token : Address) (allowed : Bool)
  | contribute (campaignId : Nat) (contributor : Address) (amount : Int)
  | claimRefund (campaignId : Nat) (contributor : Address)
  | batchContribute (contributor : Address) (contributions : List (Nat × Int))
  | withdrawFunds (campaignId : Nat)
  | withdrawReserve (campaignId : Nat)
  | setVestingParams (admin : Address) (delayDays reserveBps : Nat)
  | setMilestones (campaignId : Nat) (milestones : List Milestone)
  | verifyMilestone (admin : Address) (campaignId milestoneId : Nat)
  | claimMilestone (campaignId milestoneId : Nat)
  | cancelCampaign (campaignId : Nat)
  | adminCancelCampaign (admin : Address) (campaignId : Nat) (reason : Text)
  | updateCampaign (campaignId : Nat) (title description : Text)
  | updateCampaignDescription (campaignId : Nat) (description : Text)
  | extendCampaignDeadline (campaignId additionalDays : Nat)
  | initiateCampaignTransfer (campaignId : Nat) (newCreator : Address)
  | acceptCampaignTransfer (campaignId : Nat)
  | cancelCampaignTransfer (campaignId : Nat)
  | depositRevenue (campaignId : Nat) (amount : Int)
  | claimRevenue (campaignId : Nat) (contributor : Address)
  | claimCreatorRevenue (campaignId : Nat)
  | voteOnCampaign (campaignId : Nat) (voter : Address) (approve : Bool)
  | verifyCampaign (campaignId : Nat)
  | verifyCampaigns (campaignIds : List Nat)
  | verifyCampaignWithVotes (campaignId : Nat)
  | resumeCampaign (campaignId : Nat) (caller : Address)
  | purgeVotingState (campaignId : Nat) (voters : List Address) (finalizeAggregate : Bool)
  | pause
  | unpause
  | emergencyPause (caller : Address)
  | setEmergencyPauseSigners (admin : Address) (signers : List Address)
  | setCreationDisabled (disabled : Bool)
  | updatePlatformFee (newFee : Nat)
  | setMaxContributionPerTx (admin : Address) (amount : Int)
  | setCampaignFeeOverride (campaignId : Nat) (admin : Address) (feeBps : Nat)
  | setCategoryDurationCap (admin : Address) (category : Category) (maxDays : Nat)
  | removeCategoryDurationCap (admin : Address) (category : Category)
  | setMinCampaignFundingGoal (admin : Address) (minGoal : Int)
  | setMaxCampaignFundingGoal (admin : Address) (maxGoal : Int)
  | setVotingParams (admin : Address) (minVotesQuorum approvalThresholdBps : Nat)
  | setMinVotingBalance (admin : Address) (minBalance : Int)
  | setCategoryVotingThreshold (admin : Address) (category : Category) (thresholdBps : Nat)
  | removeCategoryVotingThreshold (admin : Address) (category : Category)
  | proposeTokenUpdate (admin newToken : Address)
  | acceptTokenUpdate (admin : Address)
  | cancelTokenUpdate (admin : Address)
  | setTokenUpdateDelaySecs (admin : Address) (delaySecs : Nat)
  | initiateAdminTransfer (admin newAdmin : Address)
  | acceptAdminTransfer
  | cancelAdminTransfer (admin : Address)
  | updateAdmin (newAdmin : Address)
  | migrate (admin : Address) (expectedOldVersion : Nat)
  | setPersonalCap (campaignId : Nat) (contributor : Address) (amount : Int)
  | removePersonalCap (campaignId : Nat) (contributor : Address)
  | saveCampaign (user : Address) (campaignId : Nat)
  | removeSavedCampaign (user : Address) (campaignId : Nat)
  | batchSaveCampaigns (user : Address) (campaignIds : List Nat)
  | clearSavedCampaigns (user : Address)
  | censureComment (campaignId : Nat) (commentHash : Digest) (reason : Text)
  | uncensureComment (campaignId : Nat) (commentHash : Digest)
  deriving DecidableEq, Repr

/-- The call that sets the contract up. -/
def Call.deploys : Call → Bool
  | .init .. => true
  | _ => false

/-! ## Argument types -/

def isU32 (n : Nat) : Prop := n < 2 ^ 32

def isU64 (n : Nat) : Prop := n < 2 ^ 64

instance (n : Nat) : Decidable (isU32 n) := inferInstanceAs (Decidable (_ < _))

instance (n : Nat) : Decidable (isU64 n) := inferInstanceAs (Decidable (_ < _))

def CreateCampaignParams.WellTyped (params : CreateCampaignParams) : Prop :=
  I128.InRange params.fundingGoal ∧ isU64 params.durationDays ∧
    isU32 params.revenueSharePercentage ∧ I128.InRange params.maxContributionPerUser

instance (params : CreateCampaignParams) : Decidable params.WellTyped :=
  inferInstanceAs (Decidable (_ ∧ _))

/-- The host hands a call over only when its arguments fit their types. -/
def Call.WellTyped : Call → Prop
  | .init _ _ platformFee => isU32 platformFee
  | .createCampaign params => params.WellTyped
  | .createCampaignWithToken params _ => params.WellTyped
  | .contribute campaignId _ amount => isU32 campaignId ∧ I128.InRange amount
  | .batchContribute _ contributions =>
      ∀ item ∈ contributions, isU32 item.1 ∧ I128.InRange item.2
  | .setVestingParams _ delayDays reserveBps => isU64 delayDays ∧ isU32 reserveBps
  | .setMilestones campaignId milestones =>
      isU32 campaignId ∧
        ∀ milestone ∈ milestones, isU32 milestone.id ∧ isU32 milestone.payoutBps
  | .verifyMilestone _ campaignId milestoneId => isU32 campaignId ∧ isU32 milestoneId
  | .claimMilestone campaignId milestoneId => isU32 campaignId ∧ isU32 milestoneId
  | .extendCampaignDeadline campaignId additionalDays => isU32 campaignId ∧ isU64 additionalDays
  | .depositRevenue campaignId amount => isU32 campaignId ∧ I128.InRange amount
  | .verifyCampaigns campaignIds => ∀ campaignId ∈ campaignIds, isU32 campaignId
  | .updatePlatformFee newFee => isU32 newFee
  | .setMaxContributionPerTx _ amount => I128.InRange amount
  | .setCampaignFeeOverride campaignId _ feeBps => isU32 campaignId ∧ isU32 feeBps
  | .setCategoryDurationCap _ _ maxDays => isU64 maxDays
  | .setMinCampaignFundingGoal _ minGoal => I128.InRange minGoal
  | .setMaxCampaignFundingGoal _ maxGoal => I128.InRange maxGoal
  | .setVotingParams _ minVotesQuorum approvalThresholdBps =>
      isU32 minVotesQuorum ∧ isU32 approvalThresholdBps
  | .setMinVotingBalance _ minBalance => I128.InRange minBalance
  | .setCategoryVotingThreshold _ _ thresholdBps => isU32 thresholdBps
  | .setTokenUpdateDelaySecs _ delaySecs => isU64 delaySecs
  | .migrate _ expectedOldVersion => isU32 expectedOldVersion
  | .setPersonalCap campaignId _ amount => isU32 campaignId ∧ I128.InRange amount
  | .batchSaveCampaigns _ campaignIds => ∀ campaignId ∈ campaignIds, isU32 campaignId
  | .claimRefund campaignId _ | .withdrawFunds campaignId | .withdrawReserve campaignId
  | .cancelCampaign campaignId | .adminCancelCampaign _ campaignId _
  | .updateCampaign campaignId _ _ | .updateCampaignDescription campaignId _
  | .initiateCampaignTransfer campaignId _ | .acceptCampaignTransfer campaignId
  | .cancelCampaignTransfer campaignId | .claimRevenue campaignId _
  | .claimCreatorRevenue campaignId | .voteOnCampaign campaignId _ _
  | .verifyCampaign campaignId | .verifyCampaignWithVotes campaignId
  | .resumeCampaign campaignId _ | .purgeVotingState campaignId _ _
  | .removePersonalCap campaignId _ | .saveCampaign _ campaignId
  | .removeSavedCampaign _ campaignId | .censureComment campaignId _ _
  | .uncensureComment campaignId _ => isU32 campaignId
  | .setTokenAllowed .. | .pause | .unpause | .emergencyPause _ | .setEmergencyPauseSigners ..
  | .setCreationDisabled _ | .removeCategoryDurationCap .. | .removeCategoryVotingThreshold ..
  | .proposeTokenUpdate .. | .acceptTokenUpdate _ | .cancelTokenUpdate _
  | .initiateAdminTransfer .. | .acceptAdminTransfer | .cancelAdminTransfer _ | .updateAdmin _
  | .clearSavedCampaigns _ => True

instance (call : Call) : Decidable call.WellTyped := by
  cases call <;> unfold Call.WellTyped <;> infer_instance

/-! ## Dispatch -/

section Dispatch

variable (env : Env) (s : State)

def dispatch : Call → Outcome State
  | .init admin token platformFee => init env s admin token platformFee
  | .createCampaign params => do
      let (_, s) ← createCampaign env s params
      pure s
  | .createCampaignWithToken params token => do
      let (_, s) ← createCampaignWithToken env s params token
      pure s
  | .setTokenAllowed token allowed => setTokenAllowedFn env s token allowed
  | .contribute campaignId contributor amount => contribute env s campaignId contributor amount
  | .claimRefund campaignId contributor => claimRefund env s campaignId contributor
  | .batchContribute contributor contributions => batchContribute env s contributor contributions
  | .withdrawFunds campaignId => withdrawFunds env s campaignId
  | .withdrawReserve campaignId => withdrawReserve env s campaignId
  | .setVestingParams admin delayDays reserveBps =>
      setVestingParams env s admin delayDays reserveBps
  | .setMilestones campaignId milestones => setMilestones env s campaignId milestones
  | .verifyMilestone admin campaignId milestoneId =>
      verifyMilestone env s admin campaignId milestoneId
  | .claimMilestone campaignId milestoneId => claimMilestone env s campaignId milestoneId
  | .cancelCampaign campaignId => cancelCampaign env s campaignId
  | .adminCancelCampaign admin campaignId reason =>
      adminCancelCampaign env s admin campaignId reason
  | .updateCampaign campaignId title description =>
      updateCampaign env s campaignId title description
  | .updateCampaignDescription campaignId description =>
      updateCampaignDescription env s campaignId description
  | .extendCampaignDeadline campaignId additionalDays =>
      extendCampaignDeadline env s campaignId additionalDays
  | .initiateCampaignTransfer campaignId newCreator =>
      initiateCampaignTransfer env s campaignId newCreator
  | .acceptCampaignTransfer campaignId => acceptCampaignTransfer env s campaignId
  | .cancelCampaignTransfer campaignId => cancelCampaignTransfer env s campaignId
  | .depositRevenue campaignId amount => depositRevenue env s campaignId amount
  | .claimRevenue campaignId contributor => claimRevenue env s campaignId contributor
  | .claimCreatorRevenue campaignId => claimCreatorRevenue env s campaignId
  | .voteOnCampaign campaignId voter approve => voteOnCampaign env s campaignId voter approve
  | .verifyCampaign campaignId => verifyCampaign env s campaignId
  | .verifyCampaigns campaignIds => do
      let progress ← verifyCampaigns env s campaignIds
      pure progress.state
  | .verifyCampaignWithVotes campaignId => verifyCampaignWithVotes s campaignId
  | .resumeCampaign campaignId caller => resumeCampaign env s campaignId caller
  | .purgeVotingState campaignId voters finalizeAggregate =>
      purgeVotingState env s campaignId voters finalizeAggregate
  | .pause => pause env s
  | .unpause => unpause env s
  | .emergencyPause caller => emergencyPause env s caller
  | .setEmergencyPauseSigners admin signers => setEmergencyPauseSigners env s admin signers
  | .setCreationDisabled disabled => setCreationDisabledFn env s disabled
  | .updatePlatformFee newFee => updatePlatformFee env s newFee
  | .setMaxContributionPerTx admin amount => setMaxContributionPerTransaction env s admin amount
  | .setCampaignFeeOverride campaignId admin feeBps =>
      setCampaignFeeOverride env s campaignId admin feeBps
  | .setCategoryDurationCap admin category maxDays =>
      setCategoryDurationCap env s admin category maxDays
  | .removeCategoryDurationCap admin category => removeCategoryDurationCap env s admin category
  | .setMinCampaignFundingGoal admin minGoal => setMinCampaignFundingGoalFn env s admin minGoal
  | .setMaxCampaignFundingGoal admin maxGoal => setMaxCampaignFundingGoalFn env s admin maxGoal
  | .setVotingParams admin minVotesQuorum approvalThresholdBps =>
      setVotingParams env s admin minVotesQuorum approvalThresholdBps
  | .setMinVotingBalance admin minBalance => setMinVotingBalanceFn env s admin minBalance
  | .setCategoryVotingThreshold admin category thresholdBps =>
      setCategoryVotingThreshold env s admin category thresholdBps
  | .removeCategoryVotingThreshold admin category =>
      removeCategoryVotingThreshold env s admin category
  | .proposeTokenUpdate admin newToken => proposeTokenUpdate env s admin newToken
  | .acceptTokenUpdate admin => acceptTokenUpdate env s admin
  | .cancelTokenUpdate admin => cancelTokenUpdate env s admin
  | .setTokenUpdateDelaySecs admin delaySecs => setTokenUpdateDelaySecsFn env s admin delaySecs
  | .initiateAdminTransfer admin newAdmin => initiateAdminTransfer env s admin newAdmin
  | .acceptAdminTransfer => acceptAdminTransfer env s
  | .cancelAdminTransfer admin => cancelAdminTransfer env s admin
  | .updateAdmin newAdmin => updateAdmin env s newAdmin
  | .migrate admin expectedOldVersion => migrate env s admin expectedOldVersion
  | .setPersonalCap campaignId contributor amount =>
      setPersonalCapFn env s campaignId contributor amount
  | .removePersonalCap campaignId contributor => removePersonalCapFn env s campaignId contributor
  | .saveCampaign user campaignId => saveCampaign env s user campaignId
  | .removeSavedCampaign user campaignId => removeSavedCampaign env s user campaignId
  | .batchSaveCampaigns user campaignIds => batchSaveCampaigns env s user campaignIds
  | .clearSavedCampaigns user => clearSavedCampaigns env s user
  | .censureComment campaignId commentHash reason => do
      let admin ← getAdmin s
      censureComment env s admin campaignId commentHash reason
  | .uncensureComment campaignId commentHash => do
      let admin ← getAdmin s
      uncensureComment env s admin campaignId commentHash

/-- The list of transfers made is that of the present call. -/
def State.clearMoved (s : State) : State := { s with tokens.moved := [] }

/-- One call. When it fails the caller keeps the state from before. -/
def invoke (call : Call) : Outcome State := do
  rejectIf (¬ call.WellTyped) (.trap .badArgument)
  dispatch env s.clearMoved call

variable {env} {s} {call : Call}

theorem invoke_eq (h : call.WellTyped) : invoke env s call = dispatch env s.clearMoved call := by
  rw [invoke, rejectIf, if_neg (not_not_intro h)]
  rfl

end Dispatch

end ProofOfHeart
