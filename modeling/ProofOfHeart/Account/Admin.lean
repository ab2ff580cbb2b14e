import ProofOfHeart.Account.Campaigns

/-! # Administration as changes of the shared settings -/

namespace ProofOfHeart

open Checked Function

/-- The stored admin makes and signs the call. -/
def View.ByAdmin (v : View) (env : Env) (caller : Address) : Prop :=
  v.admin.admin = some caller ∧ env.auth caller = true

/-- What a call does to the settings, with the conditions it does it under. -/
inductive AdminStep (env : Env) (v : View) : Call → AdminStore → Prop
  | pause {admin : Address} (byAdmin : v.ByAdmin env admin) :
      AdminStep env v .pause { v.admin with paused := true }
  | unpause {admin : Address} (byAdmin : v.ByAdmin env admin) :
      AdminStep env v .unpause { v.admin with paused := false, autoPaused := false }
  | emergencyPause {caller : Address} (signer : caller ∈ v.admin.emergencyPauseSigners)
      (auth : env.auth caller = true) :
      AdminStep env v (.emergencyPause caller) { v.admin with paused := true }
  | resume {c : Nat} {caller : Address} :
      AdminStep env v (.resumeCampaign c caller) { v.admin with autoPaused := false }
  | signers {admin : Address} {list : List Address} (byAdmin : v.ByAdmin env admin) :
      AdminStep env v (.setEmergencyPauseSigners admin list)
        { v.admin with emergencyPauseSigners := list }
  | creation {admin : Address} {disabled : Bool} (byAdmin : v.ByAdmin env admin) :
      AdminStep env v (.setCreationDisabled disabled) { v.admin with creationDisabled := disabled }
  | allowToken {admin : Address} {token : Address} {allowed : Bool}
      (byAdmin : v.ByAdmin env admin) :
      AdminStep env v (.setTokenAllowed token allowed)
        { v.admin with allowedToken := update v.admin.allowedToken token allowed }
  | fee {admin : Address} {newFee : Nat} (byAdmin : v.ByAdmin env admin)
      (bounded : newFee ≤ platformFeeMaxBps) :
      AdminStep env v (.updatePlatformFee newFee) { v.admin with platformFee := some newFee }
  | contributionCap {admin : Address} {amount : Int} (byAdmin : v.ByAdmin env admin)
      (nonneg : 0 ≤ amount) :
      AdminStep env v (.setMaxContributionPerTx admin amount)
        { v.admin with maxContributionPerTransaction := amount }
  | minGoal {admin : Address} {goal : Int} (byAdmin : v.ByAdmin env admin) (positive : 0 < goal) :
      AdminStep env v (.setMinCampaignFundingGoal admin goal)
        { v.admin with minCampaignFundingGoal := some goal }
  | maxGoal {admin : Address} {goal : Int} (byAdmin : v.ByAdmin env admin) (positive : 0 < goal)
      (aboveMin : v.admin.minCampaignFundingGoal.getD campaignFundingGoalMin ≤ goal) :
      AdminStep env v (.setMaxCampaignFundingGoal admin goal)
        { v.admin with maxCampaignFundingGoal := some goal }
  | vesting {admin : Address} {delayDays reserveBps : Nat} (byAdmin : v.ByAdmin env admin)
      (bpsBound : reserveBps ≤ bpsDenominator) (delayBound : delayDays ≤ 365)
      (delayed : delayDays = 0 → reserveBps = 0) :
      AdminStep env v (.setVestingParams admin delayDays reserveBps)
        { v.admin with
          withdrawReleaseDelayDays := delayDays
          withdrawReservePercentage := reserveBps }
  | propose {admin : Address} {token : Address} (byAdmin : v.ByAdmin env admin) :
      AdminStep env v (.proposeTokenUpdate admin token)
        { v.admin with
          pendingToken := some token
          pendingTokenRelease := some (env.timestamp +
            v.admin.tokenUpdateDelaySecs.getD tokenUpdateDelaySecs) }
  | accept {admin : Address} {token : Address} {release : Nat} (byAdmin : v.ByAdmin env admin)
      (pending : v.admin.pendingToken = some token)
      (released : v.admin.pendingTokenRelease = some release) (due : release ≤ env.timestamp)
      (idle : v.activeCount = 0) (settled : v.totalRaised = 0) :
      AdminStep env v (.acceptTokenUpdate admin)
        { v.admin with
          token := some token
          pendingToken := none
          pendingTokenRelease := none }
  | cancelToken {admin : Address} (byAdmin : v.ByAdmin env admin) :
      AdminStep env v (.cancelTokenUpdate admin)
        { v.admin with pendingToken := none, pendingTokenRelease := none }
  | tokenDelay {admin : Address} {delaySecs : Nat} (byAdmin : v.ByAdmin env admin) :
      AdminStep env v (.setTokenUpdateDelaySecs admin delaySecs)
        { v.admin with tokenUpdateDelaySecs := some delaySecs }
  | nominate {admin : Address} {heir : Address} (byAdmin : v.ByAdmin env admin) :
      AdminStep env v (.initiateAdminTransfer admin heir)
        { v.admin with pendingAdmin := some heir }
  | nominateStored {admin : Address} {heir : Address} (byAdmin : v.ByAdmin env admin) :
      AdminStep env v (.updateAdmin heir) { v.admin with pendingAdmin := some heir }
  | handOver {heir : Address} (pending : v.admin.pendingAdmin = some heir)
      (auth : env.auth heir = true) :
      AdminStep env v .acceptAdminTransfer
        { v.admin with admin := some heir, pendingAdmin := none }
  | withdrawNomination {admin : Address} (byAdmin : v.ByAdmin env admin) :
      AdminStep env v (.cancelAdminTransfer admin) { v.admin with pendingAdmin := none }
  | migrate {admin : Address} {version : Nat} (byAdmin : v.ByAdmin env admin) :
      AdminStep env v (.migrate admin version) { v.admin with version := contractVersion }

variable {env : Env} {s s' : State} {c : Nat} {admin : Address}

theorem assertAdmin_spec {u : Unit} (h : assertAdmin env s admin = .ok u) :
    (view s).ByAdmin env admin := by
  simp only [assertAdmin, getAdmin, requireAuth, bind_eq_ok, okOr_eq_ok, rejectIf_eq_ok,
    not_not, Bool.not_eq_false] at h
  obtain ⟨_, hadmin, _, rfl, hauth⟩ := h
  exact ⟨hadmin, hauth⟩

theorem assertStoredAdmin_spec {u : Unit} (h : assertStoredAdmin env s = .ok u) :
    ∃ admin, (view s).ByAdmin env admin := by
  simp only [assertStoredAdmin, bind_eq_ok] at h
  obtain ⟨admin, -, h⟩ := h
  exact ⟨admin, assertAdmin_spec h⟩

/-- The call changes the settings alone. -/
def Administers (env : Env) (v : View) (call : Call) (v' : View) : Prop :=
  ∃ store, AdminStep env v call store ∧ v' = { v with admin := store }

section Operations

theorem pause_spec (h : pause env s = .ok s') : Administers env (view s) .pause (view s') := by
  simp only [pause, bind_eq_ok, pure_eq_ok] at h
  obtain ⟨_, hadmin, rfl⟩ := h
  obtain ⟨admin, hadmin⟩ := assertStoredAdmin_spec hadmin
  exact ⟨_, .pause hadmin, rfl⟩

theorem unpause_spec (h : unpause env s = .ok s') :
    Administers env (view s) .unpause (view s') := by
  simp only [unpause, bind_eq_ok, pure_eq_ok] at h
  obtain ⟨_, hadmin, rfl⟩ := h
  obtain ⟨admin, hadmin⟩ := assertStoredAdmin_spec hadmin
  exact ⟨_, .unpause hadmin, rfl⟩

theorem emergencyPause_spec {caller : Address} (h : emergencyPause env s caller = .ok s') :
    Administers env (view s) (.emergencyPause caller) (view s') := by
  simp only [emergencyPause, requireAuth, bind_eq_ok, rejectIf_eq_ok, pure_eq_ok, not_not,
    Bool.not_eq_false] at h
  obtain ⟨_, hauth, _, -, _, hsigner, rfl⟩ := h
  exact ⟨_, .emergencyPause hsigner hauth, rfl⟩

theorem resumeCampaign_spec {caller : Address} (h : resumeCampaign env s c caller = .ok s') :
    Administers env (view s) (.resumeCampaign c caller) (view s') := by
  simp only [resumeCampaign, bind_eq_ok, pure_eq_ok] at h
  obtain ⟨_, -, _, -, _, -, _, -, _, -, _, -, rfl⟩ := h
  exact ⟨_, .resume, rfl⟩

theorem setEmergencyPauseSigners_spec {signers : List Address}
    (h : setEmergencyPauseSigners env s admin signers = .ok s') :
    Administers env (view s) (.setEmergencyPauseSigners admin signers) (view s') := by
  simp only [setEmergencyPauseSigners, bind_eq_ok, pure_eq_ok] at h
  obtain ⟨_, hadmin, _, -, rfl⟩ := h
  exact ⟨_, .signers (assertAdmin_spec hadmin), rfl⟩

theorem setCreationDisabledFn_spec {disabled : Bool}
    (h : setCreationDisabledFn env s disabled = .ok s') :
    Administers env (view s) (.setCreationDisabled disabled) (view s') := by
  simp only [setCreationDisabledFn, bind_eq_ok, pure_eq_ok] at h
  obtain ⟨_, hadmin, rfl⟩ := h
  obtain ⟨admin, hadmin⟩ := assertStoredAdmin_spec hadmin
  exact ⟨_, .creation hadmin, rfl⟩

theorem setTokenAllowedFn_spec {token : Address} {allowed : Bool}
    (h : setTokenAllowedFn env s token allowed = .ok s') :
    Administers env (view s) (.setTokenAllowed token allowed) (view s') := by
  simp only [setTokenAllowedFn, bind_eq_ok, pure_eq_ok] at h
  obtain ⟨_, hadmin, rfl⟩ := h
  obtain ⟨admin, hadmin⟩ := assertStoredAdmin_spec hadmin
  exact ⟨_, .allowToken hadmin, rfl⟩

theorem checkFee_ok {fee : Nat} {u : Unit} (h : checkFee fee = .ok u) :
    fee ≤ platformFeeMaxBps := by
  simp only [checkFee, rejectIf_eq_ok, not_or] at h
  exact Nat.le_of_not_lt h.2

theorem updatePlatformFee_spec {newFee : Nat} (h : updatePlatformFee env s newFee = .ok s') :
    Administers env (view s) (.updatePlatformFee newFee) (view s') := by
  simp only [updatePlatformFee, bind_eq_ok, pure_eq_ok] at h
  obtain ⟨_, hadmin, _, hfee, rfl⟩ := h
  obtain ⟨admin, hadmin⟩ := assertStoredAdmin_spec hadmin
  exact ⟨_, .fee hadmin (checkFee_ok hfee), rfl⟩

theorem setMaxContributionPerTransaction_spec {amount : Int}
    (h : setMaxContributionPerTransaction env s admin amount = .ok s') :
    Administers env (view s) (.setMaxContributionPerTx admin amount) (view s') := by
  simp only [setMaxContributionPerTransaction, bind_eq_ok, rejectIf_eq_ok, pure_eq_ok] at h
  obtain ⟨_, hadmin, _, hnonneg, rfl⟩ := h
  exact ⟨_, .contributionCap (assertAdmin_spec hadmin) (Int.not_lt.mp hnonneg), rfl⟩

theorem setMinCampaignFundingGoalFn_spec {goal : Int}
    (h : setMinCampaignFundingGoalFn env s admin goal = .ok s') :
    Administers env (view s) (.setMinCampaignFundingGoal admin goal) (view s') := by
  simp only [setMinCampaignFundingGoalFn, bind_eq_ok, rejectIf_eq_ok, pure_eq_ok] at h
  obtain ⟨_, hadmin, _, hpos, rfl⟩ := h
  exact ⟨_, .minGoal (assertAdmin_spec hadmin) (Int.not_le.mp hpos), rfl⟩

theorem setMaxCampaignFundingGoalFn_spec {goal : Int}
    (h : setMaxCampaignFundingGoalFn env s admin goal = .ok s') :
    Administers env (view s) (.setMaxCampaignFundingGoal admin goal) (view s') := by
  simp only [setMaxCampaignFundingGoalFn, bind_eq_ok, rejectIf_eq_ok, pure_eq_ok] at h
  obtain ⟨_, hadmin, _, hpos, _, hmin, rfl⟩ := h
  exact ⟨_, .maxGoal (assertAdmin_spec hadmin) (Int.not_le.mp hpos) (Int.not_lt.mp hmin), rfl⟩

theorem setVestingParams_spec {delayDays reserveBps : Nat}
    (h : setVestingParams env s admin delayDays reserveBps = .ok s') :
    Administers env (view s) (.setVestingParams admin delayDays reserveBps) (view s') := by
  simp only [setVestingParams, bind_eq_ok, rejectIf_eq_ok, pure_eq_ok, not_or, not_and] at h
  obtain ⟨_, hadmin, _, -, _, ⟨hbps, hdelay⟩, _, hdelayed, rfl⟩ := h
  exact ⟨_, .vesting (assertAdmin_spec hadmin) (Nat.le_of_not_lt hbps) (Nat.le_of_not_lt hdelay)
    (fun hzero => Nat.eq_zero_of_not_pos (hdelayed hzero)), rfl⟩

theorem proposeTokenUpdate_spec {token : Address}
    (h : proposeTokenUpdate env s admin token = .ok s') :
    Administers env (view s) (.proposeTokenUpdate admin token) (view s') := by
  simp only [proposeTokenUpdate, bind_eq_ok, okOr_eq_ok, Word.checkedAdd_eq_some, pure_eq_ok] at h
  obtain ⟨_, hadmin, _, -, _, ⟨rfl, -⟩, rfl⟩ := h
  exact ⟨_, .propose (assertAdmin_spec hadmin), rfl⟩

theorem acceptTokenUpdate_spec (h : acceptTokenUpdate env s admin = .ok s') :
    Administers env (view s) (.acceptTokenUpdate admin) (view s') := by
  simp only [acceptTokenUpdate, bind_eq_ok, okOr_eq_ok, rejectIf_eq_ok, pure_eq_ok, not_or,
    not_not] at h
  obtain ⟨_, hadmin, token, hpending, release, hreleased, _, hdue, _, ⟨hidle, hsettled⟩, _, -,
    rfl⟩ := h
  exact ⟨_, .accept (assertAdmin_spec hadmin) hpending hreleased (Nat.le_of_not_lt hdue)
    (Nat.eq_zero_of_not_pos hidle) hsettled, rfl⟩

theorem cancelTokenUpdate_spec (h : cancelTokenUpdate env s admin = .ok s') :
    Administers env (view s) (.cancelTokenUpdate admin) (view s') := by
  simp only [cancelTokenUpdate, bind_eq_ok, pure_eq_ok] at h
  obtain ⟨_, hadmin, _, -, rfl⟩ := h
  exact ⟨_, .cancelToken (assertAdmin_spec hadmin), rfl⟩

theorem setTokenUpdateDelaySecsFn_spec {delaySecs : Nat}
    (h : setTokenUpdateDelaySecsFn env s admin delaySecs = .ok s') :
    Administers env (view s) (.setTokenUpdateDelaySecs admin delaySecs) (view s') := by
  simp only [setTokenUpdateDelaySecsFn, bind_eq_ok, pure_eq_ok] at h
  obtain ⟨_, hadmin, _, -, rfl⟩ := h
  exact ⟨_, .tokenDelay (assertAdmin_spec hadmin), rfl⟩

theorem initiateAdminTransfer_spec {heir : Address}
    (h : initiateAdminTransfer env s admin heir = .ok s') :
    Administers env (view s) (.initiateAdminTransfer admin heir) (view s') := by
  simp only [initiateAdminTransfer, bind_eq_ok, pure_eq_ok] at h
  obtain ⟨_, hadmin, _, -, _, -, rfl⟩ := h
  exact ⟨_, .nominate (assertAdmin_spec hadmin), rfl⟩

theorem updateAdmin_spec {heir : Address} (h : updateAdmin env s heir = .ok s') :
    Administers env (view s) (.updateAdmin heir) (view s') := by
  simp only [updateAdmin, initiateAdminTransfer, bind_eq_ok, pure_eq_ok] at h
  obtain ⟨_, -, _, hadmin, _, -, _, -, rfl⟩ := h
  exact ⟨_, .nominateStored (assertAdmin_spec hadmin), rfl⟩

theorem acceptAdminTransfer_spec (h : acceptAdminTransfer env s = .ok s') :
    Administers env (view s) .acceptAdminTransfer (view s') := by
  simp only [acceptAdminTransfer, requireAuth, bind_eq_ok, okOr_eq_ok, rejectIf_eq_ok, pure_eq_ok,
    Bool.not_eq_false] at h
  obtain ⟨heir, hpending, _, hauth, _, -, rfl⟩ := h
  exact ⟨_, .handOver hpending hauth, rfl⟩

theorem cancelAdminTransfer_spec (h : cancelAdminTransfer env s admin = .ok s') :
    Administers env (view s) (.cancelAdminTransfer admin) (view s') := by
  simp only [cancelAdminTransfer, bind_eq_ok, pure_eq_ok] at h
  obtain ⟨_, hadmin, _, -, rfl⟩ := h
  exact ⟨_, .withdrawNomination (assertAdmin_spec hadmin), rfl⟩

theorem migrate_spec {version : Nat} (h : migrate env s admin version = .ok s') :
    Administers env (view s) (.migrate admin version) (view s') := by
  simp only [migrate, bind_eq_ok, pure_eq_ok] at h
  obtain ⟨_, hadmin, _, -, rfl⟩ := h
  exact ⟨_, .migrate (assertAdmin_spec hadmin), rfl⟩

end Operations

/-! ## Fee overrides -/

theorem setCampaignFeeOverride_spec {feeBps : Nat}
    (h : setCampaignFeeOverride env s c admin feeBps = .ok s') :
    ∃ a record, (view s).account c = some a ∧
      a.Edit c env.timestamp (.setCampaignFeeOverride c admin feeBps) record ∧
      view s' = (view s).setAccount c { a with record := record } := by
  simp only [setCampaignFeeOverride, bind_eq_ok, pure_eq_ok] at h
  obtain ⟨_, -, campaign, hcampaign, _, hfee, rfl⟩ := h
  refine ⟨_, _, getCampaignOrError_spec hcampaign, .overrideFee (checkFee_ok hfee), ?_⟩
  rw [View.setAccount_record rfl, view_setCampaign]

/-! ## Calls outside the view -/

section Outside

theorem setVotingParams_view {quorum threshold : Nat}
    (h : setVotingParams env s admin quorum threshold = .ok s') : view s' = view s := by
  simp only [setVotingParams, setParams, bind_eq_ok, pure_eq_ok] at h
  obtain ⟨_, -, _, -, rfl⟩ := h
  rfl

theorem setMinVotingBalanceFn_view {balance : Int}
    (h : setMinVotingBalanceFn env s admin balance = .ok s') : view s' = view s := by
  simp only [setMinVotingBalanceFn, bind_eq_ok, pure_eq_ok] at h
  obtain ⟨_, -, _, -, rfl⟩ := h
  rfl

theorem setCategoryDurationCap_view {category : Category} {days : Nat}
    (h : setCategoryDurationCap env s admin category days = .ok s') : view s' = view s := by
  simp only [setCategoryDurationCap, bind_eq_ok, pure_eq_ok] at h
  obtain ⟨_, -, _, -, rfl⟩ := h
  rfl

theorem removeCategoryDurationCap_view {category : Category}
    (h : removeCategoryDurationCap env s admin category = .ok s') : view s' = view s := by
  simp only [removeCategoryDurationCap, bind_eq_ok, pure_eq_ok] at h
  obtain ⟨_, -, rfl⟩ := h
  rfl

theorem setCategoryVotingThreshold_view {category : Category} {bps : Nat}
    (h : setCategoryVotingThreshold env s admin category bps = .ok s') : view s' = view s := by
  simp only [setCategoryVotingThreshold, bind_eq_ok, pure_eq_ok] at h
  obtain ⟨_, -, _, -, rfl⟩ := h
  rfl

theorem removeCategoryVotingThreshold_view {category : Category}
    (h : removeCategoryVotingThreshold env s admin category = .ok s') : view s' = view s := by
  simp only [removeCategoryVotingThreshold, bind_eq_ok, pure_eq_ok] at h
  obtain ⟨_, -, rfl⟩ := h
  rfl

/-- The loop over the voters, by induction on the list. -/
theorem view_unmarkVoters (voters : List Address) (s : State) :
    view (voters.foldl (fun s voter => setHasVoted s c voter false) s) = view s := by
  induction voters generalizing s with
  | nil => rfl
  | cons voter rest ih => rw [List.foldl_cons, ih, view_setHasVoted]

theorem purgeVotingState_view {voters : List Address} {finalize : Bool}
    (h : purgeVotingState env s c voters finalize = .ok s') : view s' = view s := by
  simp only [purgeVotingState, bind_eq_ok, pure_eq_ok] at h
  obtain ⟨_, -, _, -, _, -, _, -, _, -, rfl⟩ := h
  cases finalize
  · simp [view_unmarkVoters]
  · simp [view_unmarkVoters]

theorem saveCampaign_view {user : Address} (h : saveCampaign env s user c = .ok s') :
    view s' = view s := by
  simp only [saveCampaign, bind_eq_ok, pure_eq_ok] at h
  obtain ⟨_, -, _, -, _, -, _, -, rfl⟩ := h
  rfl

theorem removeSavedCampaign_view {user : Address}
    (h : removeSavedCampaign env s user c = .ok s') : view s' = view s := by
  simp only [removeSavedCampaign, bind_eq_ok, pure_eq_ok] at h
  obtain ⟨_, -, _, -, rfl⟩ := h
  rfl

theorem batchSaveCampaigns_view {user : Address} {ids : List Nat}
    (h : batchSaveCampaigns env s user ids = .ok s') : view s' = view s := by
  simp only [batchSaveCampaigns, bind_eq_ok, pure_eq_ok] at h
  obtain ⟨_, -, _, -, rfl⟩ := h
  rfl

theorem clearSavedCampaigns_view {user : Address}
    (h : clearSavedCampaigns env s user = .ok s') : view s' = view s := by
  simp only [clearSavedCampaigns, bind_eq_ok, pure_eq_ok] at h
  obtain ⟨_, -, rfl⟩ := h
  rfl

theorem censureComment_view {commentHash : Digest} {reason : Text}
    (h : censureComment env s admin c commentHash reason = .ok s') : view s' = view s := by
  simp only [censureComment, bind_eq_ok, pure_eq_ok] at h
  obtain ⟨_, -, _, -, _, -, _, -, rfl⟩ := h
  split <;> rfl

theorem uncensureComment_view {commentHash : Digest}
    (h : uncensureComment env s admin c commentHash = .ok s') : view s' = view s := by
  simp only [uncensureComment, bind_eq_ok, pure_eq_ok] at h
  obtain ⟨_, -, _, -, _, -, rfl⟩ := h
  split <;> rfl

end Outside

end ProofOfHeart
