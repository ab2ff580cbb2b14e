import ProofOfHeart.Account.Admin
import ProofOfHeart.Account.Contributions
import ProofOfHeart.Account.Milestones
import ProofOfHeart.Account.Revenue
import ProofOfHeart.Account.Voting

/-! # What a successful call can do

`Effect` lists, once and for all, the ways in which a call changes the view, each
with the conditions it has checked. Every law about runs is derived from this
list and no entry point is unfolded again.
-/

namespace ProofOfHeart

open Checked Function

/-- The calls that leave the whole view as it is. -/
def Call.outsideView : Call → Bool
  | .voteOnCampaign .. | .purgeVotingState .. | .setCategoryDurationCap ..
  | .removeCategoryDurationCap .. | .setVotingParams .. | .setMinVotingBalance ..
  | .setCategoryVotingThreshold .. | .removeCategoryVotingThreshold .. | .setPersonalCap ..
  | .removePersonalCap .. | .saveCampaign .. | .removeSavedCampaign .. | .batchSaveCampaigns ..
  | .clearSavedCampaigns _ | .censureComment .. | .uncensureComment .. => true
  | _ => false

inductive Effect (env : Env) (v : View) : Call → View → Prop
  | create {call : Call} {params : CreateCampaignParams} {pinned : Option Address} {deadline : Nat}
      (hcall : call = .createCampaign params ∧ pinned = none ∨
        ∃ token, call = .createCampaignWithToken params token ∧
          (pinned = none ∨ pinned = some token))
      (fits : v.campaignCount + 1 < 2 ^ 32) (inTime : env.timestamp ≤ deadline)
      (goal : 0 < params.fundingGoal) (share : params.share ≤ revenueShareMaxBps) :
      Effect env v call
        { v.setAccount (v.campaignCount + 1)
            ⟨params.campaign (v.campaignCount + 1) deadline,
              (v.funds (v.campaignCount + 1)).created env.timestamp
                v.admin.withdrawReleaseDelayDays v.admin.withdrawReservePercentage pinned⟩ with
          campaignCount := v.campaignCount + 1
          activeCount := v.activeCount + 1
          creators := v.creators.append params.creator (v.campaignCount + 1) }
  | contribute {c : Nat} {who : Address} {amount : Int} {a : Account} {token : Address}
      (ha : v.account c = some a) (accepts : a.Accepts env.timestamp who) (pos : 0 < amount)
      (currency : v.currency c = some token) :
      Effect env v (.contribute c who amount)
        { v.setAccount c (a.contribute v.admin.admin who amount) with
          totalRaised := v.totalRaised + amount
          tokens := v.tokens.move ⟨token, who, contractAddress, amount⟩ }
  | batch {who : Address} {items : List (Nat × Int)} {v' : View}
      (batched : Batched env.timestamp who items v { v' with tokens := v.tokens }) :
      Effect env v (.batchContribute who items) v'
  | refund {c : Nat} {who : Address} {a : Account} {token : Address}
      (ha : v.account c = some a) (refundable : a.Refundable env.timestamp)
      (pos : 0 < a.funds.contribution who) (currency : v.currency c = some token) :
      Effect env v (.claimRefund c who)
        { v.setAccount c (a.refund who) with
          totalRaised := v.totalRaised -
            (if a.record.isCancelled then 0 else a.funds.contribution who)
          tokens := v.tokens.move ⟨token, contractAddress, who, a.funds.contribution who⟩ }
  | withdraw {c : Nat} {a : Account} {token recipient : Address}
      (ha : v.account c = some a) (payable : a.Payable) (noPlan : a.funds.milestones = [])
      (currency : v.currency c = some token)
      (hrecipient : a.funds.feeRecipient.or v.admin.admin = some recipient)
      (feePos : 0 ≤ (v.split a).fee) (creatorPos : 0 ≤ (v.split a).creator) :
      Effect env v (.withdrawFunds c)
        { v.setAccount c
            (a.close.withhold env.timestamp (v.vesting a).1 (v.split a).reserve) with
          activeCount := v.activeCount - 1
          totalRaised := v.totalRaised - (a.record.effectiveAmountRaised - (v.split a).reserve)
          tokens := (v.tokens.move ⟨token, contractAddress, recipient, (v.split a).fee⟩).move
            ⟨token, contractAddress, a.record.creator, (v.split a).creator⟩ }
  | release {c : Nat} {a : Account} {token : Address} {reserve : CampaignReserve}
      (ha : v.account c = some a) (hreserve : a.funds.reserve = some reserve)
      (unreleased : reserve.released = false) (due : reserve.releaseTimestamp ≤ env.timestamp)
      (withdrawn : a.record.fundsWithdrawn = true) (currency : v.currency c = some token)
      (pos : 0 ≤ reserve.amount) :
      Effect env v (.withdrawReserve c)
        { v.setAccount c (a.releaseReserve reserve) with
          totalRaised := v.totalRaised - reserve.amount
          tokens := v.tokens.move ⟨token, contractAddress, a.record.creator, reserve.amount⟩ }
  | plan {c : Nat} {a : Account} {milestones : List Milestone}
      (ha : v.account c = some a) (notCancelled : a.record.isCancelled = false)
      (unpaid : a.record.fundsWithdrawn = false) (noPlan : a.funds.milestones = [])
      (hplan : Plan milestones) :
      Effect env v (.setMilestones c milestones)
        (v.setAccount c { a with funds := { a.funds with milestones := unverified milestones } })
  | verifyMilestone {c milestoneId : Nat} {admin : Address} {a : Account}
      (ha : v.account c = some a) (notCancelled : a.record.isCancelled = false) :
      Effect env v (.verifyMilestone admin c milestoneId)
        (v.setAccount c { a with funds := { a.funds with
          milestones := verifiedAt milestoneId a.funds.milestones } })
  | claimMilestone {c : Nat} {a : Account} {token admin : Address} {milestone : Milestone}
      (ha : v.account c = some a) (payable : a.Payable)
      (mem : milestone ∈ a.funds.milestones) (marked : milestone.verified = true)
      (unclaimed : a.funds.claimed milestone.id = false)
      (pos : 0 < (v.milestonePay a milestone).creator) (currency : v.currency c = some token)
      (hadmin : v.admin.admin = some admin) :
      Effect env v (.claimMilestone c milestone.id)
        { v.setAccount c (a.claimMilestone milestone.id) with
          activeCount := v.activeCount -
            (if allClaimed a.funds.milestones a.funds.claimed milestone.id then 1 else 0)
          totalRaised := v.totalRaised -
            ((v.milestonePay a milestone).fee + (v.milestonePay a milestone).creator)
          tokens := (if (v.milestonePay a milestone).fee > 0 then
              v.tokens.move ⟨token, contractAddress, admin, (v.milestonePay a milestone).fee⟩
            else v.tokens).move
              ⟨token, contractAddress, a.record.creator, (v.milestonePay a milestone).creator⟩ }
  | cancel {c : Nat} {a : Account} {token : Address}
      (ha : v.account c = some a) (live : a.Live) (unpaid : a.record.fundsWithdrawn = false)
      (goalMissed : a.record.amountRaised < a.record.fundingGoal)
      (currency : 0 < a.funds.pool → v.currency c = some token) :
      Effect env v (.cancelCampaign c)
        { v.setAccount c a.cancelByCreator with
          activeCount := v.activeCount - 1
          totalRaised := v.totalRaised - max a.record.amountRaised 0
          tokens := if a.funds.pool > 0 then
              v.tokens.move ⟨token, contractAddress, a.record.creator, a.funds.pool⟩
            else v.tokens }
  | adminCancel {c : Nat} {admin : Address} {reason : Text} {a : Account}
      (ha : v.account c = some a) (live : a.Live) (unpaid : a.record.fundsWithdrawn = false) :
      Effect env v (.adminCancelCampaign admin c reason)
        { v.setAccount c a.cancel with
          activeCount := v.activeCount - 1
          totalRaised := v.totalRaised - max a.record.amountRaised 0 }
  | edit {call : Call} {c : Nat} {a : Account} {record : Campaign}
      (ha : v.account c = some a) (hedit : a.Edit c env.timestamp call record)
      (notAccept : call ≠ .acceptCampaignTransfer c) :
      Effect env v call (v.setAccount c { a with record := record })
  | handOver {c : Nat} {a : Account} {heir : Address} {bucketIdx slotIdx last : Nat}
      (ha : v.account c = some a) (live : a.Live)
      (pending : a.record.pendingCreator = some heir) (other : heir ≠ a.record.creator)
      (hposition : ∀ position, v.creators.position a.record.creator c = some position →
        position = (bucketIdx, slotIdx))
      (hslot : (v.creators.bucket a.record.creator bucketIdx)[slotIdx]? = some c)
      (hlast : (v.creators.bucket a.record.creator bucketIdx).getLast? = some last) :
      Effect env v (.acceptCampaignTransfer c)
        { v.setAccount c { a with record :=
            { a.record with creator := heir, pendingCreator := none } } with
          creators := (v.creators.remove a.record.creator c bucketIdx slotIdx last).append heir c }
  | verifications {ids : List Nat} {v' : View} (h : Verifications ids v v') :
      Effect env v (.verifyCampaigns ids) v'
  | deposit {c : Nat} {amount : Int} {a : Account} {token : Address}
      (ha : v.account c = some a) (shares : a.SharesRevenue)
      (raised : a.record.amountRaised ≠ 0) (pos : 0 < amount)
      (currency : v.currency c = some token) :
      Effect env v (.depositRevenue c amount)
        { v.setAccount c (a.deposit amount) with
          tokens := v.tokens.move ⟨token, a.record.creator, contractAddress, amount⟩ }
  | claimRevenue {c : Nat} {who : Address} {a : Account} {token : Address}
      (ha : v.account c = some a) (shares : a.SharesRevenue)
      (contributed : a.funds.contribution who ≠ 0)
      (raised : a.record.effectiveAmountRaised ≠ 0)
      (undrawn : a.funds.revenueClaimed who < a.due a.funds.pool who)
      (pos : 0 < a.claimable who) (currency : v.currency c = some token) :
      Effect env v (.claimRevenue c who)
        { v.setAccount c (a.claim who) with
          tokens := v.tokens.move ⟨token, contractAddress, who, a.claimable who⟩ }
  | claimCreatorRevenue {c : Nat} {a : Account} {token : Address}
      (ha : v.account c = some a) (sharing : a.record.hasRevenueSharing = true)
      (undrawn : a.funds.creatorClaimed < a.creatorSide a.funds.pool)
      (currency : v.currency c = some token) :
      Effect env v (.claimCreatorRevenue c)
        { v.setAccount c a.claimCreator with
          tokens := v.tokens.move ⟨token, contractAddress, a.record.creator,
            a.creatorSide a.funds.pool - a.funds.creatorClaimed⟩ }
  | administer {call : Call} {v' : View} (h : Administers env v call v') : Effect env v call v'
  | outside {call : Call} (h : call.outsideView = true) : Effect env v call v

/-! ## Every call has its effect -/

section Dispatch

variable {env : Env} {s s' : State} {call : Call}

theorem pinnedToken_ok {token : Option Address} {pinned : Option Address}
    (h : pinnedToken s token = .ok pinned) : pinned = none ∨ pinned = token := by
  unfold pinnedToken at h
  split at h
  next => exact .inl (pure_eq_ok.mp h).symm
  next =>
      simp only [bind_eq_ok, rejectIf_eq_ok, pure_eq_ok] at h
      obtain ⟨_, -, _, -, rfl⟩ := h
      split
      next => exact .inl rfl
      next => exact .inr rfl

theorem Effect.created {params : CreateCampaignParams} {token : Option Address} {id : Nat}
    (h : createCampaignEntry env s params token = .ok (id, s'))
    (hcall : call = .createCampaign params ∧ token = none ∨
      ∃ t, call = .createCampaignWithToken params t ∧ token = some t) :
    Effect env (view s) call (view s') := by
  obtain ⟨deadline, pinned, rfl, fits, hdeadline, goal, share, hpinned, hview⟩ :=
    createCampaignEntry_spec h
  rw [hview]
  refine .create ?_ fits (hdeadline ▸ Nat.le_add_right ..) goal share
  rcases hcall with ⟨rfl, rfl⟩ | ⟨t, rfl, rfl⟩
  · exact .inl ⟨rfl, (pinnedToken_ok hpinned).elim id id⟩
  · exact .inr ⟨t, rfl, pinnedToken_ok hpinned⟩

theorem Effect.of_edit {c : Nat}
    (h : ∃ a record, (view s).account c = some a ∧ a.Edit c env.timestamp call record ∧
      view s' = (view s).setAccount c { a with record := record })
    (notAccept : call ≠ .acceptCampaignTransfer c) : Effect env (view s) call (view s') := by
  obtain ⟨a, record, ha, hedit, hview⟩ := h
  rw [hview]
  exact .edit ha hedit notAccept

theorem Effect.of_verify {c : Nat}
    (h : ∃ a, (view s).account c = some a ∧ a.Verifiable ∧
      view s' = (view s).setAccount c a.verify)
    (hcall : call = .verifyCampaign c ∨ call = .verifyCampaignWithVotes c) :
    Effect env (view s) call (view s') := by
  obtain ⟨a, ha, verifiable, hview⟩ := h
  rw [hview]
  refine .edit ha (.verify verifiable (hcall.imp id .inl)) ?_
  rcases hcall with rfl | rfl <;> exact Call.noConfusion

theorem Effect.of_view (h : view s' = view s) (hcall : call.outsideView = true) :
    Effect env (view s) call (view s') := by
  rw [h]
  exact .outside hcall

/-- The contract is set up once. -/
theorem dispatch_not_deploys (hinit : s.admin.initialized = true)
    (h : dispatch env s call = .ok s') : call.deploys = false := by
  cases call with
  | init admin token platformFee => simp [dispatch, init, hinit] at h
  | _ => rfl

/-- Once the contract is initialised, whatever a call does is listed. -/
theorem dispatch_effect (hcall : call.deploys = false)
    (h : dispatch env s call = .ok s') : Effect env (view s) call (view s') := by
  cases call with
  | init admin token platformFee => cases hcall
  | createCampaign params =>
      simp only [dispatch, bind_eq_ok, pure_eq_ok] at h
      obtain ⟨⟨id, t⟩, ht, rfl⟩ := h
      exact .created ht (.inl ⟨rfl, rfl⟩)
  | createCampaignWithToken params token =>
      simp only [dispatch, bind_eq_ok, pure_eq_ok] at h
      obtain ⟨⟨id, t⟩, ht, rfl⟩ := h
      exact .created ht (.inr ⟨token, rfl, rfl⟩)
  | contribute c who amount =>
      obtain ⟨a, token, ha, accepts, pos, currency, hview⟩ := contribute_spec h
      rw [hview]
      exact .contribute ha accepts pos currency
  | claimRefund c who =>
      obtain ⟨a, token, ha, refundable, pos, currency, -, hview⟩ := claimRefund_spec h
      rw [hview]
      exact .refund ha refundable pos currency
  | batchContribute who items => exact .batch (batchContribute_spec h)
  | withdrawFunds c =>
      obtain ⟨a, token, recipient, ha, payable, noPlan, currency, hrecipient, feePos, creatorPos,
        hview⟩ := withdrawFunds_spec h
      rw [hview]
      exact .withdraw ha payable noPlan currency hrecipient feePos creatorPos
  | withdrawReserve c =>
      obtain ⟨a, token, reserve, ha, hreserve, unreleased, due, withdrawn, currency, pos, hview⟩ :=
        withdrawReserve_spec h
      rw [hview]
      exact .release ha hreserve unreleased due withdrawn currency pos
  | setMilestones c milestones =>
      obtain ⟨a, ha, notCancelled, unpaid, noPlan, hplan, hview⟩ := setMilestones_spec h
      rw [hview]
      exact .plan ha notCancelled unpaid noPlan hplan
  | verifyMilestone admin c milestoneId =>
      obtain ⟨a, -, ha, notCancelled, -, -, -, hview⟩ := verifyMilestone_spec h
      rw [hview]
      exact .verifyMilestone ha notCancelled
  | claimMilestone c milestoneId =>
      obtain ⟨a, token, admin, milestone, ha, payable, mem, rfl, marked, unclaimed, -, pos,
        currency, hadmin, -, hview⟩ := claimMilestone_spec h
      rw [hview]
      exact .claimMilestone ha payable mem marked unclaimed pos currency hadmin
  | cancelCampaign c =>
      obtain ⟨a, token, ha, live, unpaid, goalMissed, currency, hview⟩ := cancelCampaign_spec h
      rw [hview]
      exact .cancel ha live unpaid goalMissed currency
  | adminCancelCampaign admin c reason =>
      obtain ⟨a, ha, live, unpaid, hview⟩ := adminCancelCampaign_spec h
      rw [hview]
      exact .adminCancel ha live unpaid
  | updateCampaign c title description =>
      exact .of_edit (updateCampaign_spec h) Call.noConfusion
  | updateCampaignDescription c description =>
      exact .of_edit (updateCampaignDescription_spec h) Call.noConfusion
  | extendCampaignDeadline c days =>
      exact .of_edit (extendCampaignDeadline_spec h) Call.noConfusion
  | initiateCampaignTransfer c heir =>
      exact .of_edit (initiateCampaignTransfer_spec h) Call.noConfusion
  | acceptCampaignTransfer c =>
      obtain ⟨a, heir, bucketIdx, slotIdx, last, ha, live, pending, other, hposition, hslot,
        hlast, hview⟩ := acceptCampaignTransfer_spec h
      rw [hview]
      exact .handOver ha live pending other hposition hslot hlast
  | cancelCampaignTransfer c =>
      exact .of_edit (cancelCampaignTransfer_spec h) Call.noConfusion
  | depositRevenue c amount =>
      obtain ⟨a, token, ha, shares, raised, pos, currency, hview⟩ := depositRevenue_spec h
      rw [hview]
      exact .deposit ha shares raised pos currency
  | claimRevenue c who =>
      obtain ⟨a, token, ha, shares, contributed, raised, undrawn, pos, currency, -, hview⟩ :=
        claimRevenue_spec h
      rw [hview]
      exact .claimRevenue ha shares contributed raised undrawn pos currency
  | claimCreatorRevenue c =>
      obtain ⟨a, token, ha, sharing, undrawn, currency, hview⟩ := claimCreatorRevenue_spec h
      rw [hview]
      exact .claimCreatorRevenue ha sharing undrawn currency
  | verifyCampaign c => exact .of_verify (verifyCampaign_spec h) (.inl rfl)
  | verifyCampaigns ids =>
      simp only [dispatch, bind_eq_ok, pure_eq_ok] at h
      obtain ⟨progress, hprogress, rfl⟩ := h
      exact .verifications (verifyCampaigns_spec hprogress)
  | verifyCampaignWithVotes c =>
      exact .of_verify (verifyCampaignWithVotes_spec h) (.inr rfl)
  | setCampaignFeeOverride c admin feeBps =>
      exact .of_edit (setCampaignFeeOverride_spec h) Call.noConfusion
  | setTokenAllowed token allowed => exact .administer (setTokenAllowedFn_spec h)
  | setVestingParams admin delayDays reserveBps => exact .administer (setVestingParams_spec h)
  | resumeCampaign c caller => exact .administer (resumeCampaign_spec h)
  | pause => exact .administer (pause_spec h)
  | unpause => exact .administer (unpause_spec h)
  | emergencyPause caller => exact .administer (emergencyPause_spec h)
  | setEmergencyPauseSigners admin signers =>
      exact .administer (setEmergencyPauseSigners_spec h)
  | setCreationDisabled disabled => exact .administer (setCreationDisabledFn_spec h)
  | updatePlatformFee newFee => exact .administer (updatePlatformFee_spec h)
  | setMaxContributionPerTx admin amount =>
      exact .administer (setMaxContributionPerTransaction_spec h)
  | setMinCampaignFundingGoal admin goal =>
      exact .administer (setMinCampaignFundingGoalFn_spec h)
  | setMaxCampaignFundingGoal admin goal =>
      exact .administer (setMaxCampaignFundingGoalFn_spec h)
  | proposeTokenUpdate admin token => exact .administer (proposeTokenUpdate_spec h)
  | acceptTokenUpdate admin => exact .administer (acceptTokenUpdate_spec h)
  | cancelTokenUpdate admin => exact .administer (cancelTokenUpdate_spec h)
  | setTokenUpdateDelaySecs admin delaySecs =>
      exact .administer (setTokenUpdateDelaySecsFn_spec h)
  | initiateAdminTransfer admin heir => exact .administer (initiateAdminTransfer_spec h)
  | acceptAdminTransfer => exact .administer (acceptAdminTransfer_spec h)
  | cancelAdminTransfer admin => exact .administer (cancelAdminTransfer_spec h)
  | updateAdmin heir => exact .administer (updateAdmin_spec h)
  | migrate admin version => exact .administer (migrate_spec h)
  | voteOnCampaign c voter approve => exact .of_view (voteOnCampaign_view h) rfl
  | purgeVotingState c voters finalize => exact .of_view (purgeVotingState_view h) rfl
  | setCategoryDurationCap admin category days =>
      exact .of_view (setCategoryDurationCap_view h) rfl
  | removeCategoryDurationCap admin category =>
      exact .of_view (removeCategoryDurationCap_view h) rfl
  | setVotingParams admin quorum threshold => exact .of_view (setVotingParams_view h) rfl
  | setMinVotingBalance admin balance => exact .of_view (setMinVotingBalanceFn_view h) rfl
  | setCategoryVotingThreshold admin category bps =>
      exact .of_view (setCategoryVotingThreshold_view h) rfl
  | removeCategoryVotingThreshold admin category =>
      exact .of_view (removeCategoryVotingThreshold_view h) rfl
  | setPersonalCap c who amount => exact .of_view (setPersonalCapFn_view h) rfl
  | removePersonalCap c who => exact .of_view (removePersonalCapFn_view h) rfl
  | saveCampaign user c => exact .of_view (saveCampaign_view h) rfl
  | removeSavedCampaign user c => exact .of_view (removeSavedCampaign_view h) rfl
  | batchSaveCampaigns user ids => exact .of_view (batchSaveCampaigns_view h) rfl
  | clearSavedCampaigns user => exact .of_view (clearSavedCampaigns_view h) rfl
  | censureComment c commentHash reason =>
      obtain ⟨admin, -, h⟩ := bind_eq_ok.mp h
      exact .of_view (censureComment_view h) rfl
  | uncensureComment c commentHash =>
      obtain ⟨admin, -, h⟩ := bind_eq_ok.mp h
      exact .of_view (uncensureComment_view h) rfl

end Dispatch

end ProofOfHeart
