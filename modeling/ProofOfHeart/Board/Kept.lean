import ProofOfHeart.Board.Register

/-! # The entry points that keep the board -/

namespace ProofOfHeart

open Checked Function

variable {env : Env} {s : State} {c : Nat} {who admin : Address}

theorem transfer_keeps {token sender recipient : Address} {amount : Int} :
    Keeps board s (transfer s token sender recipient amount) := fun _ => transfer_board

/-! ## Administration -/

section Admin

theorem setTokenAllowedFn_board {token : Address} {allowed : Bool} :
    Keeps board s (setTokenAllowedFn env s token allowed) :=
  .check fun _ => .done rfl

theorem pause_board : Keeps board s (pause env s) := .check fun _ => .done rfl

theorem unpause_board : Keeps board s (unpause env s) := .check fun _ => .done rfl

theorem emergencyPause_board {caller : Address} : Keeps board s (emergencyPause env s caller) :=
  .check fun _ => .check fun _ => .check fun _ => .done rfl

theorem setEmergencyPauseSigners_board {signers : List Address} :
    Keeps board s (setEmergencyPauseSigners env s admin signers) :=
  .check fun _ => .check fun _ => .done rfl

theorem setCreationDisabledFn_board {disabled : Bool} :
    Keeps board s (setCreationDisabledFn env s disabled) := .check fun _ => .done rfl

theorem resumeCampaign_board {caller : Address} : Keeps board s (resumeCampaign env s c caller) :=
  .check fun _ => .check fun _ => .check fun _ => .check fun _ => .check fun _ =>
    .check fun _ => .done rfl

theorem updatePlatformFee_board {newFee : Nat} :
    Keeps board s (updatePlatformFee env s newFee) :=
  .check fun _ => .check fun _ => .done rfl

theorem setMaxContributionPerTransaction_board {amount : Int} :
    Keeps board s (setMaxContributionPerTransaction env s admin amount) :=
  .check fun _ => .check fun _ => .done rfl

theorem setCampaignFeeOverride_board {feeBps : Nat} :
    Keeps board s (setCampaignFeeOverride env s c admin feeBps) :=
  .check fun _ => .check fun _ => .check fun _ => .done rfl

theorem setMinCampaignFundingGoalFn_board {goal : Int} :
    Keeps board s (setMinCampaignFundingGoalFn env s admin goal) :=
  .check fun _ => .check fun _ => .done rfl

theorem setMaxCampaignFundingGoalFn_board {goal : Int} :
    Keeps board s (setMaxCampaignFundingGoalFn env s admin goal) :=
  .check fun _ => .check fun _ => .check fun _ => .done rfl

theorem setVestingParams_board {delayDays reserveBps : Nat} :
    Keeps board s (setVestingParams env s admin delayDays reserveBps) :=
  .check fun _ => .check fun _ => .check fun _ => .check fun _ => .done rfl

theorem migrate_board {version : Nat} : Keeps board s (migrate env s admin version) :=
  .check fun _ => .check fun _ => .done rfl

theorem proposeTokenUpdate_board {token : Address} :
    Keeps board s (proposeTokenUpdate env s admin token) :=
  .check fun _ => .check fun _ => .check fun _ => .done rfl

theorem acceptTokenUpdate_board : Keeps board s (acceptTokenUpdate env s admin) :=
  .check fun _ => .check fun _ => .check fun _ => .check fun _ => .check fun _ =>
    .check fun _ => .done rfl

theorem cancelTokenUpdate_board : Keeps board s (cancelTokenUpdate env s admin) :=
  .check fun _ => .check fun _ => .done rfl

theorem setTokenUpdateDelaySecsFn_board {delaySecs : Nat} :
    Keeps board s (setTokenUpdateDelaySecsFn env s admin delaySecs) :=
  .check fun _ => .check fun _ => .done rfl

theorem initiateAdminTransfer_board {heir : Address} :
    Keeps board s (initiateAdminTransfer env s admin heir) :=
  .check fun _ => .check fun _ => .check fun _ => .done rfl

theorem acceptAdminTransfer_board : Keeps board s (acceptAdminTransfer env s) :=
  .check fun _ => .check fun _ => .check fun _ => .done rfl

theorem cancelAdminTransfer_board : Keeps board s (cancelAdminTransfer env s admin) :=
  .check fun _ => .check fun _ => .done rfl

theorem updateAdmin_board {heir : Address} : Keeps board s (updateAdmin env s heir) :=
  .check fun _ => initiateAdminTransfer_board

end Admin

/-! ## Records of campaigns -/

theorem updateCampaign_board {title description : Text} :
    Keeps board s (updateCampaign env s c title description) :=
  .check fun _ => .check fun _ => .check fun _ => .check fun _ => .check fun _ => .check fun _ =>
    .check fun _ => .done rfl

theorem extendCampaignDeadline_board {days : Nat} :
    Keeps board s (extendCampaignDeadline env s c days) :=
  .check fun _ => .check fun _ => .check fun _ => .check fun _ => .check fun _ => .check fun _ =>
    .check fun _ => .check fun _ => .check fun _ => .check fun _ => .check fun _ => .done rfl

theorem initiateCampaignTransfer_board {heir : Address} :
    Keeps board s (initiateCampaignTransfer env s c heir) :=
  .check fun _ => .check fun _ => .check fun _ => .check fun _ => .check fun _ =>
    .check fun _ => .done rfl

theorem cancelCampaignTransfer_board : Keeps board s (cancelCampaignTransfer env s c) :=
  .check fun _ => .check fun _ => .check fun _ => .done rfl

/-! ## Funds -/

theorem withholdReserve_board {delayDays : Nat} {amount : Int} :
    Keeps board s (withholdReserve env s c delayDays amount) :=
  .branch (.check fun _ => .check fun _ => .done rfl) (.done rfl)

theorem withdrawFunds_board : Keeps board s (withdrawFunds env s c) :=
  .check fun _ => .check fun _ => .check fun _ => .check fun _ => .check fun _ => .check fun _ =>
    .check fun _ => .check fun _ => .check fun _ => .check fun _ => .check fun _ =>
      .check fun _ => .check fun _ => .next
        (.of_eq withholdReserve_board board_decrementActiveCampaignCount) fun _ =>
          .check fun _ => .check fun _ => .check fun _ => .check fun _ =>
            .next (.of_eq transfer_keeps rfl) fun _ => transfer_keeps

theorem withdrawReserve_board : Keeps board s (withdrawReserve env s c) :=
  .check fun _ => .check fun _ => .check fun _ => .check fun _ => .check fun _ => .check fun _ =>
    .check fun _ => .check fun _ => .check fun _ => .of_eq transfer_keeps rfl

theorem setMilestones_board {milestones : List Milestone} :
    Keeps board s (setMilestones env s c milestones) :=
  .check fun _ => .check fun _ => .check fun _ => .check fun _ => .check fun _ => .check fun _ =>
    .check fun _ => .check fun _ => .done rfl

theorem verifyMilestone_board {milestoneId : Nat} :
    Keeps board s (verifyMilestone env s admin c milestoneId) :=
  .check fun _ => .check fun _ => .check fun _ => .check fun _ => .check fun _ => .check fun _ =>
    .check fun _ => .done rfl

@[simp] theorem board_closeWhenDone {campaign : Campaign} {done : Bool} :
    board (closeWhenDone s c campaign done) = board s := by
  unfold closeWhenDone
  split
  next => rw [board_decrementActiveCampaignCount, board_setCampaign]
  next => rfl

theorem payMilestoneFee_board {token : Address} {amount : Int} :
    Keeps board s (payMilestoneFee s token admin amount) := .branch transfer_keeps (.done rfl)

theorem claimMilestone_board {milestoneId : Nat} :
    Keeps board s (claimMilestone env s c milestoneId) :=
  .check fun _ => .check fun _ => .check fun _ => .check fun _ => .check fun _ => .check fun _ =>
    .check fun _ => .check fun _ => .check fun _ => .check fun _ => .check fun _ =>
      .check fun _ => .check fun _ => .check fun _ => .check fun _ => .check fun _ =>
        .check fun _ => .check fun _ => .check fun _ => .check fun _ =>
          .next (.of_eq payMilestoneFee_board board_closeWhenDone) fun _ => transfer_keeps

theorem depositRevenue_board {amount : Int} : Keeps board s (depositRevenue env s c amount) :=
  .check fun _ => .check fun _ => .check fun _ => .check fun _ => .check fun _ => .check fun _ =>
    .check fun _ => .check fun _ => .check fun _ => .of_eq transfer_keeps rfl

theorem countClaimant_board {claimed : Int} {claimants : Nat} :
    Keeps board s (countClaimant s c claimed claimants) :=
  .branch (.check fun _ => .done rfl) (.done rfl)

theorem claimRevenue_board : Keeps board s (claimRevenue env s c who) :=
  .check fun _ => .check fun _ => .check fun _ => .check fun _ => .check fun _ => .check fun _ =>
    .check fun _ => .check fun _ => .check fun _ => .check fun _ => .check fun _ =>
      .check fun _ => .check fun _ => .check fun _ => .check fun _ => .check fun _ =>
        .next (.of_eq countClaimant_board rfl) fun _ => .check fun _ => transfer_keeps

theorem claimCreatorRevenue_board : Keeps board s (claimCreatorRevenue env s c) :=
  .check fun _ => .check fun _ => .check fun _ => .check fun _ => .check fun _ => .check fun _ =>
    .check fun _ => .check fun _ => .check fun _ => .of_eq transfer_keeps rfl

end ProofOfHeart
