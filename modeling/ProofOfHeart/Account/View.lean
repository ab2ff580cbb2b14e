import ProofOfHeart.Machine

/-! # The view of the store that carries its money

`view` reads what the laws about funds speak of: for each campaign its record
and every entry that settles its funds, the entries all campaigns share, and the
index of campaigns by creator. Each setter below changes one part of the view or
none, so that an entry point is described by one equation between two views.
-/

namespace ProofOfHeart

open Checked Function Table

/-- The entries of one campaign beside its record. -/
@[ext]
structure Funds where
  startTime : Option Nat
  vesting : Option (Nat × Nat)
  reserve : Option CampaignReserve
  milestones : List Milestone
  claimed : Nat → Bool
  token : Option Address
  feeRecipient : Option Address
  contribution : Address → Int
  lifetime : Address → Int
  contributors : Nat
  pool : Int
  revenueClaimed : Address → Int
  creatorClaimed : Int
  distributed : Int
  claimants : Nat

/-- The index of campaigns by creator. -/
@[ext]
structure CreatorIndex where
  count : Address → Nat
  bucket : Address → Nat → List Nat
  position : Address → Nat → Option (Nat × Nat)

@[ext]
structure View where
  campaign : Nat → Option Campaign
  funds : Nat → Funds
  admin : AdminStore
  campaignCount : Nat
  activeCount : Nat
  totalRaised : Int
  creators : CreatorIndex
  tokens : Tokens

def fundsOf (s : State) (c : Nat) : Funds where
  startTime := s.campaigns.campaignStartTime c
  vesting := s.campaigns.campaignVesting c
  reserve := s.campaigns.campaignReserve c
  milestones := s.campaigns.campaignMilestones c
  claimed := s.campaigns.milestoneClaimed c
  token := s.campaigns.campaignToken c
  feeRecipient := s.campaigns.campaignFeeRecipient c
  contribution := s.contributions.contribution c
  lifetime := s.contributions.lifetimeContribution c
  contributors := s.contributions.contributorCount c
  pool := s.revenue.revenuePool c
  revenueClaimed := s.revenue.revenueClaimed c
  creatorClaimed := s.revenue.creatorRevenueClaimed c
  distributed := s.revenue.contributorRevenueDistributed c
  claimants := s.revenue.contributorRevenueClaimants c

def view (s : State) : View where
  campaign := s.campaigns.campaign
  funds := fundsOf s
  admin := s.admin
  campaignCount := s.campaigns.campaignCount
  activeCount := s.campaigns.activeCampaignCount
  totalRaised := s.contributions.totalRaised
  creators :=
    { count := s.campaigns.creatorCampaignCount
      bucket := s.campaigns.creatorCampaignsBucket
      position := s.campaigns.creatorCampaignPosition }
  tokens := s.tokens

/-- Writing entries of one campaign changes the funds of that campaign alone. -/
theorem view_of_funds {s s' : State} {c : Nat} {f : Funds}
    (hrest : { view s' with funds := fundsOf s } = view s) (hself : fundsOf s' c = f)
    (hother : ∀ other, other ≠ c → fundsOf s' other = fundsOf s other) :
    view s' = { view s with funds := update (view s).funds c f } := by
  have hfunds : fundsOf s' = update (fundsOf s) c f := by
    funext other
    by_cases h : other = c
    · rw [h, update_self, hself]
    · rw [update_of_ne h, hother other h]
  calc view s' = { ({ view s' with funds := fundsOf s } : View) with funds := fundsOf s' } := rfl
    _ = { view s with funds := update (view s).funds c f } := by rw [hrest, hfunds]; rfl

/-! ## Reads -/

section Reads

variable (s : State)

theorem campaign_view : s.campaigns.campaign = (view s).campaign := rfl

theorem admin_view : s.admin = (view s).admin := rfl

theorem totalRaised_view : s.contributions.totalRaised = (view s).totalRaised := rfl

theorem activeCount_view : s.campaigns.activeCampaignCount = (view s).activeCount := rfl

theorem campaignCount_view : s.campaigns.campaignCount = (view s).campaignCount := rfl

theorem contribution_view (c : Nat) :
    s.contributions.contribution c = ((view s).funds c).contribution := rfl

theorem contributors_view (c : Nat) :
    s.contributions.contributorCount c = ((view s).funds c).contributors := rfl

theorem pool_view (c : Nat) : s.revenue.revenuePool c = ((view s).funds c).pool := rfl

theorem revenueClaimed_view (c : Nat) :
    s.revenue.revenueClaimed c = ((view s).funds c).revenueClaimed := rfl

theorem creatorClaimed_view (c : Nat) :
    s.revenue.creatorRevenueClaimed c = ((view s).funds c).creatorClaimed := rfl

theorem distributed_view (c : Nat) :
    s.revenue.contributorRevenueDistributed c = ((view s).funds c).distributed := rfl

theorem claimants_view (c : Nat) :
    s.revenue.contributorRevenueClaimants c = ((view s).funds c).claimants := rfl

theorem feeRecipient_view (c : Nat) :
    s.campaigns.campaignFeeRecipient c = ((view s).funds c).feeRecipient := rfl

theorem milestones_view (c : Nat) :
    s.campaigns.campaignMilestones c = ((view s).funds c).milestones := rfl

theorem claimed_view (c : Nat) :
    s.campaigns.milestoneClaimed c = ((view s).funds c).claimed := rfl

theorem reserve_view (c : Nat) :
    s.campaigns.campaignReserve c = ((view s).funds c).reserve := rfl

theorem creatorCount_view : s.campaigns.creatorCampaignCount = (view s).creators.count := rfl

theorem creatorBucket_view : s.campaigns.creatorCampaignsBucket = (view s).creators.bucket := rfl

theorem creatorPosition_view :
    s.campaigns.creatorCampaignPosition = (view s).creators.position := rfl

/-- The currency of a campaign as the view has it. -/
def View.currency (v : View) (c : Nat) : Option Address :=
  match (v.funds c).token with
  | some token => some token
  | none => v.admin.token

theorem getCampaignToken_view {c : Nat} :
    getCampaignToken s c = okOr ((view s).currency c) (.trap .missingEntry) := by
  have hcurrency : (view s).currency c =
      match s.campaigns.campaignToken c with
      | some token => some token
      | none => s.admin.token := rfl
  rw [hcurrency]
  unfold getCampaignToken getToken
  cases s.campaigns.campaignToken c <;> rfl

theorem getCampaignToken_eq_ok {c : Nat} {token : Address} :
    getCampaignToken s c = .ok token ↔ (view s).currency c = some token := by
  rw [getCampaignToken_view, okOr_eq_ok]

theorem View.currency_congr {v v' : View} {c : Nat}
    (hfunds : (v'.funds c).token = (v.funds c).token)
    (hadmin : v'.admin.token = v.admin.token) : v'.currency c = v.currency c := by
  unfold View.currency
  rw [hfunds, hadmin]

theorem transfer_view {s' : State} {token sender recipient : Address} {amount : Int}
    (h : transfer s token sender recipient amount = .ok s') :
    0 ≤ amount ∧ amount ≤ (view s).tokens.balance token sender ∧
      view s' = { view s with
        tokens := (view s).tokens.move ⟨token, sender, recipient, amount⟩ } := by
  obtain ⟨hpos, hbalance, rfl⟩ := transfer_eq_ok.mp h
  exact ⟨hpos, hbalance, rfl⟩

end Reads

/-! ## Setters of one campaign -/

section CampaignSetters

variable (s : State) (c : Nat)

@[simp] theorem view_setCampaign (campaign : Campaign) :
    view (setCampaign s c campaign) =
      { view s with campaign := update (view s).campaign c (some campaign) } := rfl

@[simp] theorem view_setCampaignReserve (reserve : CampaignReserve) :
    view (setCampaignReserve s c reserve) = { view s with
      funds := update (view s).funds c { (view s).funds c with reserve := some reserve } } :=
  view_of_funds rfl (by simp [fundsOf, view, setCampaignReserve])
    fun _ h => by simp [fundsOf, setCampaignReserve, h]

@[simp] theorem view_setCampaignStartTime (time : Nat) :
    view (setCampaignStartTime s c time) = { view s with
      funds := update (view s).funds c { (view s).funds c with startTime := some time } } :=
  view_of_funds rfl (by simp [fundsOf, view, setCampaignStartTime])
    fun _ h => by simp [fundsOf, setCampaignStartTime, h]

@[simp] theorem view_setCampaignVesting (delayDays reserveBps : Nat) :
    view (setCampaignVesting s c delayDays reserveBps) = { view s with
      funds := update (view s).funds c { (view s).funds c with
        vesting := some (delayDays, reserveBps) } } :=
  view_of_funds rfl (by simp [fundsOf, view, setCampaignVesting])
    fun _ h => by simp [fundsOf, setCampaignVesting, h]

@[simp] theorem view_setCampaignMilestones (milestones : List Milestone) :
    view (setCampaignMilestones s c milestones) = { view s with
      funds := update (view s).funds c { (view s).funds c with milestones := milestones } } :=
  view_of_funds rfl (by simp [fundsOf, view, setCampaignMilestones])
    fun _ h => by simp [fundsOf, setCampaignMilestones, h]

@[simp] theorem view_setMilestoneClaimed (milestoneId : Nat) :
    view (setMilestoneClaimed s c milestoneId) = { view s with
      funds := update (view s).funds c { (view s).funds c with
        claimed := update ((view s).funds c).claimed milestoneId true } } :=
  view_of_funds rfl (by simp [fundsOf, view, setMilestoneClaimed])
    fun _ h => by simp [fundsOf, setMilestoneClaimed, h]

@[simp] theorem view_setCampaignFeeRecipient (recipient : Address) :
    view (setCampaignFeeRecipient s c recipient) = { view s with
      funds := update (view s).funds c { (view s).funds c with feeRecipient := some recipient } } :=
  view_of_funds rfl (by simp [fundsOf, view, setCampaignFeeRecipient])
    fun _ h => by simp [fundsOf, setCampaignFeeRecipient, h]

@[simp] theorem view_setContribution (who : Address) (amount : Int) :
    view (setContribution s c who amount) = { view s with
      funds := update (view s).funds c { (view s).funds c with
        contribution := update ((view s).funds c).contribution who amount } } :=
  view_of_funds rfl (by simp [fundsOf, view, setContribution])
    fun _ h => by simp [fundsOf, setContribution, h]

@[simp] theorem view_setLifetimeContribution (who : Address) (amount : Int) :
    view (setLifetimeContribution s c who amount) = { view s with
      funds := update (view s).funds c { (view s).funds c with
        lifetime := update ((view s).funds c).lifetime who amount } } :=
  view_of_funds rfl (by simp [fundsOf, view, setLifetimeContribution])
    fun _ h => by simp [fundsOf, setLifetimeContribution, h]

@[simp] theorem view_setContributorCount (count : Nat) :
    view (setContributorCount s c count) = { view s with
      funds := update (view s).funds c { (view s).funds c with contributors := count } } :=
  view_of_funds rfl (by simp [fundsOf, view, setContributorCount])
    fun _ h => by simp [fundsOf, setContributorCount, h]

@[simp] theorem view_setRevenuePool (amount : Int) :
    view (setRevenuePool s c amount) = { view s with
      funds := update (view s).funds c { (view s).funds c with pool := amount } } :=
  view_of_funds rfl (by simp [fundsOf, view, setRevenuePool])
    fun _ h => by simp [fundsOf, setRevenuePool, h]

@[simp] theorem view_setRevenueClaimed (who : Address) (amount : Int) :
    view (setRevenueClaimed s c who amount) = { view s with
      funds := update (view s).funds c { (view s).funds c with
        revenueClaimed := update ((view s).funds c).revenueClaimed who amount } } :=
  view_of_funds rfl (by simp [fundsOf, view, setRevenueClaimed])
    fun _ h => by simp [fundsOf, setRevenueClaimed, h]

@[simp] theorem view_setCreatorRevenueClaimed (amount : Int) :
    view (setCreatorRevenueClaimed s c amount) = { view s with
      funds := update (view s).funds c { (view s).funds c with creatorClaimed := amount } } :=
  view_of_funds rfl (by simp [fundsOf, view, setCreatorRevenueClaimed])
    fun _ h => by simp [fundsOf, setCreatorRevenueClaimed, h]

@[simp] theorem view_setContributorRevenueDistributed (amount : Int) :
    view (setContributorRevenueDistributed s c amount) = { view s with
      funds := update (view s).funds c { (view s).funds c with distributed := amount } } :=
  view_of_funds rfl (by simp [fundsOf, view, setContributorRevenueDistributed])
    fun _ h => by simp [fundsOf, setContributorRevenueDistributed, h]

@[simp] theorem view_setContributorRevenueClaimants (count : Nat) :
    view (setContributorRevenueClaimants s c count) = { view s with
      funds := update (view s).funds c { (view s).funds c with claimants := count } } :=
  view_of_funds rfl (by simp [fundsOf, view, setContributorRevenueClaimants])
    fun _ h => by simp [fundsOf, setContributorRevenueClaimants, h]

@[simp] theorem view_setCampaignToken (token : Option Address) :
    view (setCampaignToken s c token) = { view s with
      funds := update (view s).funds c { (view s).funds c with
        token := token.or ((view s).funds c).token } } := by
  cases token with
  | none =>
      rw [Option.none_or, update_eq_self]
      rfl
  | some token =>
      exact view_of_funds rfl (by simp [fundsOf, view, setCampaignToken])
        fun _ h => by simp [fundsOf, setCampaignToken, h]

@[simp] theorem view_decrementContributorCount :
    view (decrementContributorCount s c) = { view s with
      funds := update (view s).funds c
        { (view s).funds c with contributors := ((view s).funds c).contributors - 1 } } := by
  dsimp only [decrementContributorCount]
  split
  next h => exact view_setContributorCount s c _
  next h =>
      have hsame : ({ (view s).funds c with
          contributors := ((view s).funds c).contributors - 1 } : Funds) = (view s).funds c := by
        rw [contributors_view] at h
        ext1 <;> first | rfl | (dsimp only; omega)
      rw [hsame, update_eq_self]

theorem incrementContributorCount_eq_ok {s' : State} :
    incrementContributorCount s c = .ok s' ↔
      ((view s).funds c).contributors + 1 < 2 ^ 32 ∧
        setContributorCount s c (((view s).funds c).contributors + 1) = s' := by
  simp only [incrementContributorCount, contributors_view, bind_eq_ok, okOr_eq_ok,
    Word.checkedAdd_eq_some, pure_eq_ok]
  constructor
  · rintro ⟨_, ⟨rfl, hlt⟩, rfl⟩
    exact ⟨hlt, rfl⟩
  · rintro ⟨hlt, rfl⟩
    exact ⟨_, ⟨rfl, hlt⟩, rfl⟩

end CampaignSetters

/-! ## Setters of shared entries -/

section SharedSetters

variable (s : State)

@[simp] theorem view_setTotalRaisedGlobal (amount : Int) :
    view (setTotalRaisedGlobal s amount) = { view s with totalRaised := amount } := rfl

@[simp] theorem view_setActiveCampaignCount (count : Nat) :
    view (setActiveCampaignCount s count) = { view s with activeCount := count } := rfl

@[simp] theorem view_decrementActiveCampaignCount :
    view (decrementActiveCampaignCount s) =
      { view s with activeCount := (view s).activeCount - 1 } := by
  unfold decrementActiveCampaignCount
  split
  next h => rfl
  next h =>
      rw [activeCount_view] at h
      ext1 <;> first | rfl | (dsimp only; omega)

theorem incrementActiveCampaignCount_eq_ok {s' : State} :
    incrementActiveCampaignCount s = .ok s' ↔
      (view s).activeCount + 1 < 2 ^ 32 ∧
        setActiveCampaignCount s ((view s).activeCount + 1) = s' := by
  simp only [incrementActiveCampaignCount, activeCount_view, bind_eq_ok, okOr_eq_ok,
    Word.checkedAdd_eq_some, pure_eq_ok]
  constructor
  · rintro ⟨_, ⟨rfl, hlt⟩, rfl⟩
    exact ⟨hlt, rfl⟩
  · rintro ⟨hlt, rfl⟩
    exact ⟨_, ⟨rfl, hlt⟩, rfl⟩

@[simp] theorem view_setCampaignCount (count : Nat) :
    view (setCampaignCount s count) = { view s with campaignCount := count } := rfl

@[simp] theorem view_setCreatorCampaignCount (creator : Address) (count : Nat) :
    view (setCreatorCampaignCount s creator count) = { view s with
      creators.count := update (view s).creators.count creator count } := rfl

@[simp] theorem view_setCreatorCampaignBucket (creator : Address) (bucketIdx : Nat)
    (ids : List Nat) :
    view (setCreatorCampaignBucket s creator bucketIdx ids) = { view s with
      creators.bucket := put (view s).creators.bucket creator bucketIdx ids } := rfl

@[simp] theorem view_setCreatorCampaignPosition (creator : Address) (campaignId : Nat)
    (position : Option (Nat × Nat)) :
    view (setCreatorCampaignPosition s creator campaignId position) = { view s with
      creators.position := put (view s).creators.position creator campaignId position } := rfl

end SharedSetters

/-! ## Setters outside the view -/

section OtherSetters

variable (s : State) (c n : Nat) (who : Address)

@[simp] theorem view_setPersonalCap (cap : Option Int) :
    view (setPersonalCap s c who cap) = view s := rfl

@[simp] theorem view_setCampaignBlockContributionCount (count : Nat) :
    view (setCampaignBlockContributionCount s c n count) = view s := rfl

@[simp] theorem view_setTopContributor : view (setTopContributor s c who) = view s := rfl

@[simp] theorem view_setLastContributionTime : view (setLastContributionTime s c n) = view s := rfl

@[simp] theorem view_setVerifiedCampaignCount : view (setVerifiedCampaignCount s n) = view s := rfl

@[simp] theorem view_decrementVerifiedCampaignCount :
    view (decrementVerifiedCampaignCount s) = view s := rfl

@[simp] theorem view_setCancelledCampaignCount :
    view (setCancelledCampaignCount s n) = view s := rfl

@[simp] theorem view_setCampaignCreatorIndex :
    view (setCampaignCreatorIndex s c who) = view s := rfl

@[simp] theorem view_setCreatorTitleIndex (titleHash : Digest) :
    view (setCreatorTitleIndex s who titleHash c) = view s := rfl

@[simp] theorem view_setCategoryCampaignBucket (category : Category) (ids : List Nat) :
    view (setCategoryCampaignBucket s category n ids) = view s := rfl

@[simp] theorem view_setCategoryCampaignCount (category : Category) :
    view (setCategoryCampaignCount s category n) = view s := rfl

@[simp] theorem view_setHasVoted (voted : Bool) : view (setHasVoted s c who voted) = view s := rfl

@[simp] theorem view_setApproveTally (weight : Int) :
    view (setApproveTally s c n weight) = view s := rfl

@[simp] theorem view_setRejectTally (weight : Int) :
    view (setRejectTally s c n weight) = view s := rfl

@[simp] theorem view_removeVotingState : view (removeVotingState s c) = view s := rfl

@[simp] theorem view_setSavedCampaigns (ids : List Nat) :
    view (setSavedCampaigns s who ids) = view s := rfl

theorem incrementVerifiedCampaignCount_view {s' : State}
    (h : incrementVerifiedCampaignCount s = .ok s') : view s' = view s := by
  simp only [incrementVerifiedCampaignCount, bind_eq_ok, pure_eq_ok] at h
  obtain ⟨_, -, rfl⟩ := h
  rfl

theorem incrementCancelledCampaignCount_view {s' : State}
    (h : incrementCancelledCampaignCount s = .ok s') : view s' = view s := by
  simp only [incrementCancelledCampaignCount, bind_eq_ok, pure_eq_ok] at h
  obtain ⟨_, -, rfl⟩ := h
  rfl

end OtherSetters

/-! ## Appending to and removing from the creator index -/

/-- A new entry goes to the bucket that the count points at. -/
def CreatorIndex.append (index : CreatorIndex) (creator : Address) (campaignId : Nat) :
    CreatorIndex :=
  let bucketIdx := index.count creator / creatorCampaignsBucketSize
  let ids := index.bucket creator bucketIdx
  { count := update index.count creator (index.count creator + 1)
    bucket := put index.bucket creator bucketIdx (ids ++ [campaignId])
    position := put index.position creator campaignId (some (bucketIdx, ids.length)) }

/-- The last entry of the bucket takes the freed slot. -/
def CreatorIndex.remove (index : CreatorIndex) (creator : Address)
    (campaignId bucketIdx slotIdx last : Nat) : CreatorIndex :=
  let ids := index.bucket creator bucketIdx
  { count := update index.count creator (index.count creator - 1)
    bucket := put index.bucket creator bucketIdx (ids.set slotIdx last).dropLast
    position := put
      (if slotIdx ≠ ids.length - 1 then
        put index.position creator last (some (bucketIdx, slotIdx)) else index.position)
      creator campaignId none }

theorem appendToCreator_view {s s' : State} {creator : Address} {campaignId : Nat}
    (h : appendToCreator s creator campaignId = .ok s') :
    view s' = { view s with creators := (view s).creators.append creator campaignId } := by
  simp only [appendToCreator, bind_eq_ok, okOr_eq_ok, Word.checkedAdd_eq_some, pure_eq_ok] at h
  obtain ⟨_, ⟨rfl, -⟩, rfl⟩ := h
  simp [CreatorIndex.append, creatorCount_view, creatorBucket_view]

theorem appendToCategory_view {s s' : State} {category : Category} {campaignId : Nat}
    (h : appendToCategory s category campaignId = .ok s') : view s' = view s := by
  simp only [appendToCategory, bind_eq_ok, pure_eq_ok] at h
  obtain ⟨_, -, rfl⟩ := h
  rfl

/-- The position record of the campaign, when it has one, is the place the
removal looks at. -/
theorem removeFromCreator_view {s s' : State} {creator : Address} {campaignId : Nat}
    (h : removeFromCreator s creator campaignId = .ok s') :
    ∃ bucketIdx slotIdx last,
      (∀ position, (view s).creators.position creator campaignId = some position →
        position = (bucketIdx, slotIdx)) ∧
      ((view s).creators.bucket creator bucketIdx)[slotIdx]? = some campaignId ∧
      ((view s).creators.bucket creator bucketIdx).getLast? = some last ∧
      view s' = { view s with
        creators := (view s).creators.remove creator campaignId bucketIdx slotIdx last } := by
  simp only [removeFromCreator, bind_eq_ok, okOr_eq_ok, rejectIf_eq_ok, pure_eq_ok] at h
  simp only [creatorCount_view, creatorBucket_view] at h
  obtain ⟨⟨bucketIdx, slotIdx⟩, hposition, _, -, _, hslot, last, hlast, rfl⟩ := h
  refine ⟨bucketIdx, slotIdx, last, ?_, not_not.mp hslot, ?_, ?_⟩
  · intro position hsome
    rw [← creatorPosition_view] at hsome
    rw [getCreatorCampaignPositionOrLegacyScan, hsome] at hposition
    exact Option.some.inj hposition
  · rw [List.getLast?_eq_getElem?]
    exact hlast
  · by_cases hend : slotIdx = ((view s).creators.bucket creator bucketIdx).length - 1
    · simp [CreatorIndex.remove, hend]
    · simp [CreatorIndex.remove, hend]

end ProofOfHeart
