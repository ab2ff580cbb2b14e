import ProofOfHeart.Account.Effect

/-! # Creation, lifecycle and payout of campaigns as effects on accounts -/

namespace ProofOfHeart

open Checked Function

variable {env : Env} {s s' : State} {c : Nat}

/-! ## Guards -/

theorem getCreatorCampaign_spec {campaign : Campaign}
    (h : getCreatorCampaign env s c = .ok campaign) :
    (view s).account c = some ⟨campaign, (view s).funds c⟩ := by
  simp only [getCreatorCampaign, getCampaignOrError, bind_eq_ok, okOr_eq_ok, pure_eq_ok,
    campaign_view] at h
  obtain ⟨_, hcampaign, _, -, rfl⟩ := h
  exact View.account_of_campaign hcampaign

theorem getCampaignOrError_spec {campaign : Campaign}
    (h : getCampaignOrError s c = .ok campaign) :
    (view s).account c = some ⟨campaign, (view s).funds c⟩ :=
  View.account_of_campaign (okOr_eq_ok.mp h)

theorem requireActiveCampaign_spec {a : Account} {u : Unit}
    (h : requireActiveCampaign a.record = .ok u) : a.Live := by
  simp only [requireActiveCampaign, rejectIf_eq_ok, not_or, Bool.not_eq_true] at h
  exact ⟨by simpa using h.2, h.1⟩

theorem transition_ok {source target : CampaignState} {u : Unit}
    (h : transition source target = .ok u) : transitionAllowed source target = true := by
  simpa [transition] using h

/-- Only an active campaign can become verified. -/
theorem transition_verified {campaign : Campaign} {u : Unit}
    (h : transition (.of campaign) .verified = .ok u) :
    campaign.fundsWithdrawn = false ∧ campaign.isVerified = false := by
  have hallowed := transition_ok h
  unfold CampaignState.of at hallowed
  split at hallowed
  next => cases hallowed
  next =>
      split at hallowed
      next => cases hallowed
      next hopen =>
          split at hallowed
          next => cases hallowed
          next hunverified => exact ⟨by simpa using hopen, by simpa using hunverified⟩

/-! ## Creation -/

/-- The entries of a campaign created at `now`, over whatever was stored under
its identifier. -/
def Funds.created (old : Funds) (now delayDays reserveBps : Nat) (pinned : Option Address) :
    Funds :=
  { old with
    startTime := some now
    vesting := some (delayDays, reserveBps)
    token := pinned.or old.token
    pool := 0 }

theorem createCampaignEntry_spec {params : CreateCampaignParams} {token : Option Address} {id : Nat}
    (h : createCampaignEntry env s params token = .ok (id, s')) :
    ∃ deadline pinned, id = (view s).campaignCount + 1 ∧ id < 2 ^ 32 ∧
      deadline = env.timestamp + params.durationDays * secondsPerDay ∧ 0 < params.fundingGoal ∧
      params.share ≤ revenueShareMaxBps ∧ pinnedToken s token = .ok pinned ∧
      view s' = { (view s).setAccount id
          ⟨params.campaign id deadline, ((view s).funds id).created env.timestamp
            (view s).admin.withdrawReleaseDelayDays (view s).admin.withdrawReservePercentage
            pinned⟩ with
        campaignCount := id
        activeCount := (view s).activeCount + 1
        creators := (view s).creators.append params.creator id } := by
  simp only [createCampaignEntry, createCampaignInner, checkCreateParams, calculateDeadline,
    bind_eq_ok, rejectIf_eq_ok, okOr_eq_ok, pure_eq_ok, Word.checkedAdd_eq_some,
    Word.checkedMul_eq_some] at h
  obtain ⟨⟨_, s1⟩, ⟨_, -, _, -, _, -, titleHash, ⟨_, hgoal, _, -, _, -, _, -, _, -, _, -, _, -, _,
    -, _, -, _, hshare, _, -, _, -, rfl⟩, pinned, hpinned, _, ⟨rfl, hcount⟩, deadline,
    ⟨_, ⟨rfl, -⟩, hdeadline, -⟩, s2, hs2, s3, hs3, heq⟩, s4, hs4, hres⟩ := h
  simp only [Prod.mk.injEq] at heq hres
  obtain ⟨rfl, rfl⟩ := heq
  obtain ⟨rfl, rfl⟩ := hres
  obtain ⟨-, rfl⟩ := (incrementActiveCampaignCount_eq_ok _).mp hs4
  refine ⟨deadline, pinned, rfl, hcount, hdeadline.symm, by omega, by omega, hpinned, ?_⟩
  simp [appendToCreator_view hs3, appendToCategory_view hs2, View.setAccount, Funds.created,
    campaignCount_view, admin_view]

/-- The days of a new campaign fit the category. -/
theorem createCampaignEntry_days {params : CreateCampaignParams} {token : Option Address} {id : Nat}
    (h : createCampaignEntry env s params token = .ok (id, s')) :
    campaignDurationMinDays ≤ params.durationDays ∧ params.durationDays ≤
      (s.campaigns.categoryDurationCap params.category).getD campaignDurationMaxDays := by
  simp only [createCampaignEntry, createCampaignInner, checkCreateParams, bind_eq_ok,
    rejectIf_eq_ok, not_or, Nat.not_lt] at h
  obtain ⟨_, ⟨_, -, _, -, _, -, _, ⟨_, -, _, -, _, -, _, hdays, -⟩, -⟩, -⟩ := h
  exact hdays

/-- A creation succeeds when its checks pass and no counter is full. -/
theorem createCampaignEntry_of {params : CreateCampaignParams} {titleHash : Digest}
    {deadline : Nat} (hauth : env.auth params.creator = true)
    (hpaused : s.admin.paused = false) (hautoPaused : s.admin.autoPaused = false)
    (henabled : s.admin.creationDisabled = false)
    (hcheck : checkCreateParams env s params = .ok titleHash)
    (hdeadline : calculateDeadline env.timestamp params.durationDays = .ok deadline)
    (hcount : s.campaigns.campaignCount + 1 < 2 ^ 32)
    (hcategory : s.campaigns.categoryCampaignCount params.category + 1 < 2 ^ 32)
    (hcreator : s.campaigns.creatorCampaignCount params.creator + 1 < 2 ^ 32)
    (hactive : s.campaigns.activeCampaignCount + 1 < 2 ^ 32) :
    ∃ s', createCampaignEntry env s params none = .ok (s.campaigns.campaignCount + 1, s') ∧
      s'.campaigns.campaign (s.campaigns.campaignCount + 1) =
        some (params.campaign (s.campaigns.campaignCount + 1) deadline) ∧
      s'.campaigns.categoryCampaignCount = update s.campaigns.categoryCampaignCount
        params.category (s.campaigns.categoryCampaignCount params.category + 1) ∧
      s'.campaigns.categoryDurationCap = s.campaigns.categoryDurationCap ∧
      s'.campaigns.creatorCampaignTitleIndex = Table.put s.campaigns.creatorCampaignTitleIndex
        params.creator titleHash (some (s.campaigns.campaignCount + 1)) := by
  simp only [createCampaignEntry, createCampaignInner, requireAuth, requireNotPaused, pinnedToken,
    appendToCategory, appendToCreator, incrementActiveCampaignCount, bind_eq_ok, rejectIf_eq_ok,
    okOr_eq_ok, Word.checkedAdd_eq_some, pure_eq_ok]
  exact ⟨_, ⟨_, ⟨(), by simp [hauth], (), by simp [hpaused, hautoPaused], (), by simp [henabled],
    _, hcheck, _, rfl, _, ⟨rfl, hcount⟩, _, hdeadline, _, ⟨_, ⟨rfl, hcategory⟩, rfl⟩, _,
    ⟨_, ⟨rfl, hcreator⟩, rfl⟩, rfl⟩, _, ⟨_, ⟨rfl, hactive⟩, rfl⟩, rfl⟩, update_self .., rfl, rfl,
    rfl⟩

/-! ## Cancellation -/

theorem deductRaised_view {campaign : Campaign} (h : deductRaised s campaign = .ok s') :
    view s' = { view s with
      totalRaised := (view s).totalRaised - max campaign.amountRaised 0 } := by
  unfold deductRaised at h
  split at h
  next hpos =>
      simp only [bind_eq_ok, okOr_eq_ok, I128.checkedSub_eq_some, pure_eq_ok, totalRaised_view] at h
      obtain ⟨_, ⟨rfl, -⟩, rfl⟩ := h
      rw [view_setTotalRaisedGlobal, Int.max_eq_left (Int.le_of_lt hpos)]
  next hzero => rw [← pure_eq_ok.mp h, Int.max_eq_right (by omega), Int.sub_zero]

theorem recordCancellation_view {campaign : Campaign}
    (h : recordCancellation s c campaign = .ok s') :
    view s' = { view s with
      campaign := update (view s).campaign c
        (some { campaign with isCancelled := true, isActive := false })
      activeCount := (view s).activeCount - 1
      totalRaised := (view s).totalRaised - max campaign.amountRaised 0 } := by
  simp only [recordCancellation, bind_eq_ok] at h
  obtain ⟨s1, hs1, h⟩ := h
  simp [incrementCancelledCampaignCount_view _ h, deductRaised_view hs1]

theorem refundRevenuePool_view {creator : Address} {pool : Int}
    (h : refundRevenuePool s c creator pool = .ok s') :
    ∃ token, (0 < pool → (view s).currency c = some token) ∧
      view s' = { view s with tokens :=
        if pool > 0 then (view s).tokens.move ⟨token, contractAddress, creator, pool⟩
        else (view s).tokens } := by
  unfold refundRevenuePool at h
  split at h
  next hpos =>
      simp only [bind_eq_ok, getCampaignToken_eq_ok] at h
      obtain ⟨token, htoken, h⟩ := h
      refine ⟨token, fun _ => htoken, ?_⟩
      rw [(transfer_view _ h).2.2, if_pos hpos]
  next hzero =>
      refine ⟨contractAddress, fun hpos => absurd hpos hzero, ?_⟩
      rw [← pure_eq_ok.mp h, if_neg hzero]

theorem cancelCampaign_spec (h : cancelCampaign env s c = .ok s') :
    ∃ a token, (view s).account c = some a ∧ a.Live ∧ a.record.fundsWithdrawn = false ∧
      a.record.amountRaised < a.record.fundingGoal ∧
      (0 < a.funds.pool → (view s).currency c = some token) ∧
      view s' = { (view s).setAccount c a.cancelByCreator with
        activeCount := (view s).activeCount - 1
        totalRaised := (view s).totalRaised - max a.record.amountRaised 0
        tokens := if a.funds.pool > 0 then
            (view s).tokens.move ⟨token, contractAddress, a.record.creator, a.funds.pool⟩
          else (view s).tokens } := by
  simp only [cancelCampaign, bind_eq_ok, rejectIf_eq_ok, ge_iff_le, Int.not_le] at h
  obtain ⟨campaign, hcampaign, _, -, _, hlive, _, hopen, _, hgoal, _, -, s1, hs1, h⟩ := h
  have hpool : view (if s.revenue.revenuePool c > 0 then setRevenuePool s c 0 else s) =
      { view s with funds := update (view s).funds c { (view s).funds c with
        pool := if ((view s).funds c).pool > 0 then 0 else ((view s).funds c).pool } } := by
    rw [pool_view]
    split
    next => rw [view_setRevenuePool]
    next => rw [update_eq_self]
  obtain ⟨token, htoken, hview⟩ := refundRevenuePool_view h
  rw [recordCancellation_view hs1, hpool] at htoken hview
  refine ⟨_, token, getCreatorCampaign_spec hcampaign, requireActiveCampaign_spec hlive,
    by simpa using hopen, hgoal, fun hpos => ?_, ?_⟩
  · rw [← htoken hpos]
    refine (View.currency_congr ?_ ?_).symm
    · simp
    · rfl
  · rw [hview]
    simp [View.setAccount, Account.cancelByCreator, Account.cancel, pool_view]

theorem adminCancelCampaign_spec {admin : Address} {reason : Text}
    (h : adminCancelCampaign env s admin c reason = .ok s') :
    ∃ a, (view s).account c = some a ∧ a.Live ∧ a.record.fundsWithdrawn = false ∧
      view s' = { (view s).setAccount c a.cancel with
        activeCount := (view s).activeCount - 1
        totalRaised := (view s).totalRaised - max a.record.amountRaised 0 } := by
  simp only [adminCancelCampaign, bind_eq_ok, rejectIf_eq_ok] at h
  obtain ⟨_, -, _, -, campaign, hcampaign, _, hlive, _, hopen, _, -, _, -, h⟩ := h
  refine ⟨_, getCampaignOrError_spec hcampaign, requireActiveCampaign_spec hlive,
    by simpa using hopen, ?_⟩
  rw [recordCancellation_view h]
  simp [View.setAccount, Account.cancel]

/-! ## Edits of the record -/

theorem updateCampaign_spec {title description : Text}
    (h : updateCampaign env s c title description = .ok s') :
    ∃ a record, (view s).account c = some a ∧
      a.Edit c env.timestamp (.updateCampaign c title description) record ∧
      view s' = (view s).setAccount c { a with record := record } := by
  simp only [updateCampaign, requireUnverifiedCampaign, bind_eq_ok, rejectIf_eq_ok,
    pure_eq_ok] at h
  obtain ⟨campaign, hcampaign, _, -, _, hunverified, _, hunfunded, _, hlive, _, -, _, -, rfl⟩ := h
  refine ⟨_, _, getCreatorCampaign_spec hcampaign,
    .update (requireActiveCampaign_spec hlive) (by simpa using hunverified)
      (Int.not_lt.mp hunfunded), ?_⟩
  rw [View.setAccount_record rfl, view_setCampaign]

theorem updateCampaignDescription_spec {description : Text}
    (h : updateCampaignDescription env s c description = .ok s') :
    ∃ a record, (view s).account c = some a ∧
      a.Edit c env.timestamp (.updateCampaignDescription c description) record ∧
      view s' = (view s).setAccount c { a with record := record } := by
  simp only [updateCampaignDescription, bind_eq_ok, pure_eq_ok] at h
  obtain ⟨campaign, hcampaign, _, -, _, hlive, _, -, rfl⟩ := h
  refine ⟨_, _, getCreatorCampaign_spec hcampaign, .describe (requireActiveCampaign_spec hlive), ?_⟩
  rw [View.setAccount_record rfl]
  split <;> simp

theorem extendCampaignDeadline_spec {days : Nat}
    (h : extendCampaignDeadline env s c days = .ok s') :
    ∃ a record, (view s).account c = some a ∧
      a.Edit c env.timestamp (.extendCampaignDeadline c days) record ∧
      view s' = (view s).setAccount c { a with record := record } := by
  simp only [extendCampaignDeadline, bind_eq_ok, rejectIf_eq_ok, okOr_eq_ok,
    Word.checkedAdd_eq_some, pure_eq_ok] at h
  obtain ⟨campaign, hcampaign, _, -, _, hlive, _, honce, _, htime, _, -, deadline, ⟨hdeadline, -⟩,
    _, -, _, -, _, -, _, -, rfl⟩ := h
  refine ⟨_, _, getCreatorCampaign_spec hcampaign, .extend (requireActiveCampaign_spec hlive)
    (by simpa using honce) (Nat.lt_of_not_le htime) (hdeadline ▸ Nat.le_add_right ..), ?_⟩
  rw [View.setAccount_record rfl, view_setCampaign]

theorem initiateCampaignTransfer_spec {heir : Address}
    (h : initiateCampaignTransfer env s c heir = .ok s') :
    ∃ a record, (view s).account c = some a ∧
      a.Edit c env.timestamp (.initiateCampaignTransfer c heir) record ∧
      view s' = (view s).setAccount c { a with record := record } := by
  simp only [initiateCampaignTransfer, bind_eq_ok, rejectIf_eq_ok, pure_eq_ok] at h
  obtain ⟨campaign, hcampaign, _, -, _, hlive, _, -, _, hother, _, hfree, rfl⟩ := h
  refine ⟨_, _, getCreatorCampaign_spec hcampaign,
    .nominate (requireActiveCampaign_spec hlive) hother (not_not.mp hfree), ?_⟩
  rw [View.setAccount_record rfl, view_setCampaign]

theorem cancelCampaignTransfer_spec (h : cancelCampaignTransfer env s c = .ok s') :
    ∃ a record, (view s).account c = some a ∧
      a.Edit c env.timestamp (.cancelCampaignTransfer c) record ∧
      view s' = (view s).setAccount c { a with record := record } := by
  simp only [cancelCampaignTransfer, bind_eq_ok, pure_eq_ok] at h
  obtain ⟨campaign, hcampaign, _, -, _, -, rfl⟩ := h
  refine ⟨_, _, getCreatorCampaign_spec hcampaign, .withdrawNomination, ?_⟩
  rw [View.setAccount_record rfl, view_setCampaign]

/-- Apart from the record, accepting moves the campaign from the old creator's
index entries to the new one's. -/
theorem acceptCampaignTransfer_spec (h : acceptCampaignTransfer env s c = .ok s') :
    ∃ a heir bucketIdx slotIdx last, (view s).account c = some a ∧ a.Live ∧
      a.record.pendingCreator = some heir ∧ heir ≠ a.record.creator ∧
      (∀ position, (view s).creators.position a.record.creator c = some position →
        position = (bucketIdx, slotIdx)) ∧
      ((view s).creators.bucket a.record.creator bucketIdx)[slotIdx]? = some c ∧
      ((view s).creators.bucket a.record.creator bucketIdx).getLast? = some last ∧
      view s' = { (view s).setAccount c { a with record :=
          { a.record with creator := heir, pendingCreator := none } } with
        creators := ((view s).creators.remove a.record.creator c bucketIdx slotIdx last).append
          heir c } := by
  simp only [acceptCampaignTransfer, bind_eq_ok, rejectIf_eq_ok, okOr_eq_ok, pure_eq_ok] at h
  obtain ⟨campaign, hcampaign, _, hlive, _, -, heir, hheir, _, -, _, hother, s1, hs1, s2, hs2,
    rfl⟩ := h
  obtain ⟨bucketIdx, slotIdx, last, hposition, hslot, hlast, hview⟩ := removeFromCreator_view hs1
  refine ⟨_, heir, bucketIdx, slotIdx, last, getCampaignOrError_spec hcampaign,
    requireActiveCampaign_spec hlive, hheir, hother, hposition, hslot, hlast, ?_⟩
  rw [View.setAccount_record rfl, view_setCampaign, appendToCreator_view hs2, hview]

/-- A campaign at its recorded position can be taken out. -/
theorem removeFromCreator_of {creator : Address} {bucketIdx slotIdx : Nat}
    (hposition : s.campaigns.creatorCampaignPosition creator c = some (bucketIdx, slotIdx))
    (hslot : (s.campaigns.creatorCampaignsBucket creator bucketIdx)[slotIdx]? = some c) :
    ∃ s', removeFromCreator s creator c = .ok s' := by
  have hmem := List.mem_of_getElem? hslot
  have hlast : (s.campaigns.creatorCampaignsBucket creator bucketIdx).length - 1 <
      (s.campaigns.creatorCampaignsBucket creator bucketIdx).length := by
    have := List.length_pos_of_mem hmem
    omega
  simp only [removeFromCreator, getCreatorCampaignPositionOrLegacyScan, hposition, bind_eq_ok,
    okOr_eq_ok, rejectIf_eq_ok, pure_eq_ok]
  exact ⟨_, _, rfl, (), List.ne_nil_of_mem hmem, (), not_not_intro hslot, _,
    List.getElem?_eq_getElem hlast, rfl⟩

theorem acceptCampaignTransfer_of {campaign : Campaign} {heir : Address} {bucketIdx slotIdx : Nat}
    (hcampaign : s.campaigns.campaign c = some campaign)
    (hactive : campaign.isActive = true) (hcancelled : campaign.isCancelled = false)
    (hpaused : s.admin.paused = false) (hautoPaused : s.admin.autoPaused = false)
    (hpending : campaign.pendingCreator = some heir) (hauth : env.auth heir = true)
    (hother : heir ≠ campaign.creator)
    (hposition : s.campaigns.creatorCampaignPosition campaign.creator c =
      some (bucketIdx, slotIdx))
    (hslot : (s.campaigns.creatorCampaignsBucket campaign.creator bucketIdx)[slotIdx]? = some c)
    (hcount : s.campaigns.creatorCampaignCount heir + 1 < 2 ^ 32) :
    ∃ s', acceptCampaignTransfer env s c = .ok s' := by
  obtain ⟨t, hremove⟩ := removeFromCreator_of hposition hslot
  obtain ⟨_, _, _, -, -, -, hview⟩ := removeFromCreator_view hremove
  have hkept : t.campaigns.creatorCampaignCount heir = s.campaigns.creatorCampaignCount heir := by
    rw [creatorCount_view, hview]
    simp [CreatorIndex.remove, hother, creatorCount_view]
  have hfits := hkept ▸ hcount
  simp only [acceptCampaignTransfer, getCampaignOrError, hcampaign, requireActiveCampaign,
    requireNotPaused, requireAuth, appendToCreator, bind_eq_ok, okOr_eq_ok, rejectIf_eq_ok,
    pure_eq_ok, Word.checkedAdd_eq_some]
  exact ⟨_, _, rfl, (), by simp [hactive, hcancelled], (), by simp [hpaused, hautoPaused], heir,
    hpending, (), by simp [hauth], (), hother, t, hremove, _, ⟨_, ⟨rfl, hfits⟩, rfl⟩, rfl⟩

/-! ## Payout -/

theorem ceilShare_eq_ok {amount share : Int} {bps : Nat} :
    ceilShare amount bps = .ok share ↔
      I128.InRange (amount * bps) ∧ I128.InRange (amount * bps + bpsCeilOffset) ∧
        (amount * bps + bpsCeilOffset).tdiv bpsDenominator = share := by
  simp only [ceilShare, bind_eq_ok, okOr_eq_ok, I128.checkedMul_eq_some, I128.checkedAdd_eq_some,
    pure_eq_ok]
  constructor
  · rintro ⟨_, ⟨rfl, hmul⟩, _, ⟨rfl, hadd⟩, rfl⟩
    exact ⟨hmul, hadd, rfl⟩
  · rintro ⟨hmul, hadd, rfl⟩
    exact ⟨_, ⟨rfl, hmul⟩, _, ⟨rfl, hadd⟩, rfl⟩

/-- `bps` basis points of `amount`, rounded up as the contract does. -/
def ceilBps (amount : Int) (bps : Nat) : Int :=
  (amount * bps + bpsCeilOffset).tdiv bpsDenominator

theorem ceilShare_ok {amount share : Int} {bps : Nat} (h : ceilShare amount bps = .ok share) :
    share = ceilBps amount bps := (ceilShare_eq_ok.mp h).2.2.symm

/-- The fee in force for a campaign, in basis points. -/
def View.effectiveFee (v : View) (record : Campaign) : Nat :=
  record.feeOverride.getD (v.admin.platformFee.getD 300)

theorem effectiveFee_view {campaign : Campaign} :
    effectiveFee s campaign = (view s).effectiveFee campaign := rfl

def View.vesting (v : View) (a : Account) : Nat × Nat :=
  a.funds.vesting.getD (v.admin.withdrawReleaseDelayDays, v.admin.withdrawReservePercentage)

theorem vestingOf_view {record : Campaign} :
    vestingOf s c = (view s).vesting ⟨record, (view s).funds c⟩ := rfl

theorem withholdReserve_view {delayDays : Nat} {amount : Int} {a : Account}
    (hfunds : (view s).funds c = a.funds) (h : withholdReserve env s c delayDays amount = .ok s') :
    view s' = { view s with
      funds := update (view s).funds c (a.withhold env.timestamp delayDays amount).funds } := by
  unfold withholdReserve at h
  split at h
  next hpos =>
      simp only [bind_eq_ok, okOr_eq_ok, Word.checkedMul_eq_some, Word.checkedAdd_eq_some,
        pure_eq_ok] at h
      obtain ⟨_, ⟨rfl, -⟩, _, ⟨rfl, -⟩, rfl⟩ := h
      rw [view_setCampaignReserve, Account.withhold, if_pos hpos, hfunds]
  next hzero =>
      rw [← pure_eq_ok.mp h, Account.withhold, if_neg hzero, ← hfunds, update_eq_self]

theorem feeRecipientOf_eq_ok {recipient : Address} :
    feeRecipientOf s c = .ok recipient ↔
      ((view s).funds c).feeRecipient.or (view s).admin.admin = some recipient := by
  unfold feeRecipientOf getAdmin
  rw [feeRecipient_view, admin_view]
  cases ((view s).funds c).feeRecipient <;> simp

/-- The three parts of an amount paid out in one go. -/
structure Split where
  fee : Int
  reserve : Int
  creator : Int

/-- The fee comes off first, the reserve is withheld from the rest. -/
def splitFunds (amount : Int) (feeBps reserveBps : Nat) : Split :=
  let fee := ceilBps amount feeBps
  let reserve := ceilBps (amount - fee) reserveBps
  ⟨fee, reserve, amount - fee - reserve⟩

theorem splitFunds_sum (amount : Int) (feeBps reserveBps : Nat) :
    (splitFunds amount feeBps reserveBps).fee + (splitFunds amount feeBps reserveBps).reserve +
      (splitFunds amount feeBps reserveBps).creator = amount := by
  simp only [splitFunds]
  omega

def View.split (v : View) (a : Account) : Split :=
  splitFunds a.record.effectiveAmountRaised (v.effectiveFee a.record) (v.vesting a).2

theorem withdrawFunds_spec (h : withdrawFunds env s c = .ok s') :
    ∃ a token recipient, (view s).account c = some a ∧ a.Payable ∧ a.funds.milestones = [] ∧
      (view s).currency c = some token ∧
      a.funds.feeRecipient.or (view s).admin.admin = some recipient ∧
      0 ≤ ((view s).split a).fee ∧ 0 ≤ ((view s).split a).creator ∧
      view s' = { (view s).setAccount c (a.close.withhold env.timestamp ((view s).vesting a).1
          ((view s).split a).reserve) with
        activeCount := (view s).activeCount - 1
        totalRaised := (view s).totalRaised -
          (a.record.effectiveAmountRaised - ((view s).split a).reserve)
        tokens := ((view s).tokens.move
            ⟨token, contractAddress, recipient, ((view s).split a).fee⟩).move
          ⟨token, contractAddress, a.record.creator, ((view s).split a).creator⟩ } := by
  simp only [withdrawFunds, bind_eq_ok, rejectIf_eq_ok, okOr_eq_ok, I128.checkedSub_eq_some,
    not_not] at h
  obtain ⟨campaign, hcampaign, _, -, _, hmilestones, _, hverified, _, hcancelled, _, hwithdrawn,
    _, hraised, _, hgoal, _, -, fee, hfee, _, ⟨rfl, -⟩, reserve, hreserve, _, ⟨rfl, -⟩, s1, hs1,
    _, ⟨rfl, -⟩, _, ⟨rfl, -⟩, recipient, hrecipient, token, htoken, s2, hs2, h⟩ := h
  have haccount := getCreatorCampaign_spec hcampaign
  obtain rfl := ceilShare_ok hfee
  obtain rfl := ceilShare_ok hreserve
  have hclosed := withholdReserve_view (a := (⟨campaign, (view s).funds c⟩ : Account).close)
    (by simp [Account.close]) hs1
  obtain ⟨hfeepos, -, hpaidfee⟩ := transfer_view _ hs2
  obtain ⟨hcreatorpos, -, hpaid⟩ := transfer_view _ h
  rw [feeRecipientOf_eq_ok, view_setTotalRaisedGlobal, hclosed] at hrecipient
  rw [getCampaignToken_eq_ok, view_setTotalRaisedGlobal, hclosed] at htoken
  rw [hpaidfee, view_setTotalRaisedGlobal, totalRaised_view, hclosed] at hpaid
  refine ⟨_, token, recipient, haccount, ⟨by simpa using hverified, by simpa using hcancelled,
    by simpa using hwithdrawn, hraised, Int.not_lt.mp hgoal⟩, hmilestones, ?_, ?_, hfeepos,
    hcreatorpos, ?_⟩
  · rw [← htoken]
    refine (View.currency_congr ?_ ?_).symm
    · simp [Account.withhold, Account.close]
    · simp
  · simpa [Account.withhold, Account.close] using hrecipient
  · rw [hpaid]
    simp [View.setAccount, Account.withhold, Account.close, View.split, splitFunds,
      effectiveFee_view, @vestingOf_view _ c campaign]

theorem withdrawReserve_spec (h : withdrawReserve env s c = .ok s') :
    ∃ a token reserve, (view s).account c = some a ∧ a.funds.reserve = some reserve ∧
      reserve.released = false ∧ reserve.releaseTimestamp ≤ env.timestamp ∧
      a.record.fundsWithdrawn = true ∧ (view s).currency c = some token ∧ 0 ≤ reserve.amount ∧
      view s' = { (view s).setAccount c (a.releaseReserve reserve) with
        totalRaised := (view s).totalRaised - reserve.amount
        tokens := (view s).tokens.move
          ⟨token, contractAddress, a.record.creator, reserve.amount⟩ } := by
  simp only [withdrawReserve, bind_eq_ok, rejectIf_eq_ok, okOr_eq_ok, I128.checkedSub_eq_some,
    not_not] at h
  obtain ⟨reserve, hreserve, _, -, _, hreleased, _, htime, campaign, hcampaign, _, hwithdrawn, _,
    -, _, ⟨rfl, -⟩, token, htoken, h⟩ := h
  have haccount := getCampaignOrError_spec hcampaign
  obtain ⟨hpos, -, hview⟩ := transfer_view _ h
  rw [getCampaignToken_eq_ok] at htoken
  refine ⟨_, token, reserve, haccount, hreserve, by simpa using hreleased, Nat.le_of_not_lt htime,
    hwithdrawn, ?_, hpos, ?_⟩
  · rw [← htoken]
    refine (View.currency_congr ?_ ?_).symm
    · simp
    · simp
  · have hrecord := (View.account_eq_some.mp haccount).1
    rw [hview, totalRaised_view]
    simp [Account.releaseReserve, View.setAccount, ← hrecord]

end ProofOfHeart
