import ProofOfHeart.Campaigns.Create

/-! # Listings, bucket paging, statistics and portfolios

The bucket loop of the contract has no bound of its own, and neither has the loop
that callers page with, so their models take fuel: `none` means that it ran out.
-/

namespace ProofOfHeart

open Checked

section Queries

variable (s : State)

/-- The campaigns of the inner loop: the stored ones among the identifiers. -/
def storedCampaigns (ids : List Nat) : List Campaign := ids.filterMap s.campaigns.campaign

/-! ## All campaigns -/

/-- `start` is an exclusive cursor: the last identifier of the page before. -/
def listCampaigns (start limit : Nat) : List Campaign :=
  let totalCount := s.campaigns.campaignCount
  if start ≥ totalCount ∨ limit = 0 then []
  else
    let cappedLimit := min limit listMaxLimit
    let stop := min (Word.saturatingAdd 32 start cappedLimit) totalCount
    storedCampaigns s (List.range' (start + 1) (stop - start))

/-- The loop that the documentation gives to callers: it ends on an empty page
and after a page that is shorter than the limit. -/
def listLoop (limit : Nat) : Nat → Nat → List Campaign → Option (List Campaign)
  | 0, _, _ => none
  | fuel + 1, start, campaigns =>
      let page := listCampaigns s start limit
      match page.getLast? with
      | none => some campaigns
      | some last =>
          if page.length < limit then some (campaigns ++ page)
          else listLoop limit fuel last.id (campaigns ++ page)

/-! ## Active campaigns -/

/-- The campaign under the identifier, when it is active and not cancelled. -/
def activeCampaign (campaignId : Nat) : Option Campaign :=
  (s.campaigns.campaign campaignId).filter fun campaign =>
    campaign.isActive && !campaign.isCancelled

/-- The identifiers `current_id` up to the total are scanned in order; `unread`
says how many of them are left. The length of the page is the `collected` counter. -/
def activeLoop (start cappedLimit : Nat) :
    Nat → Nat → List Campaign → Outcome (List Campaign × Nat)
  | 0, _, campaigns => pure (campaigns, 0)
  | unread + 1, currentId, campaigns => do
      let windowEnd ← okOr (Word.checkedAdd 32 start maxScanWindow) (.trap .arithmetic)
      if currentId > windowEnd then pure (campaigns, currentId)
      else do
        let campaigns := campaigns ++ (activeCampaign s currentId).toList
        -- both the cursor of a full page and the next identifier are one further
        let nextId ← okOr (Word.checkedAdd 32 currentId 1) (.trap .arithmetic)
        if (activeCampaign s currentId).isSome ∧ campaigns.length ≥ cappedLimit then
          pure (campaigns, nextId)
        else activeLoop start cappedLimit unread nextId campaigns

def listActiveCampaigns (start limit : Nat) : Outcome (List Campaign × Nat) :=
  let total := s.campaigns.campaignCount
  if start ≥ total ∨ limit = 0 then pure ([], 0)
  else do
    let currentId ← okOr (Word.checkedAdd 32 start 1) (.trap .arithmetic)
    activeLoop s start (min limit listMaxLimit) (total - start) currentId []

/-! ## Statistics of one campaign -/

structure CampaignStats where
  contributorCount : Nat
  topContributor : Option Address
  avgContribution : Int
  lastContributionTime : Nat

/-- The average divides everything ever raised by the present number of contributors. -/
def getCampaignStats (campaignId : Nat) : CampaignStats :=
  let contributorCount := s.contributions.contributorCount campaignId
  let amountRaised := ((s.campaigns.campaign campaignId).map Campaign.amountRaised).getD 0
  { contributorCount := contributorCount
    topContributor := s.contributions.topContributor campaignId
    avgContribution := if contributorCount > 0 then amountRaised.tdiv contributorCount else 0
    lastContributionTime := s.contributions.lastContributionTime campaignId }

/-! ## Pages of a bucket list -/

/-- One turn of the outer loop reads the bucket of `position`, takes its entries
up to `stop`, and moves to the end of what it read. A bucket read to its last
entry sends the position to the end of that bucket, an empty one to the next. -/
def bucketLoop (bucketSize : Nat) (getBucket : Nat → List Nat) (stop : Nat) :
    Nat → Nat → List Campaign → Option (List Campaign)
  | fuel, position, campaigns =>
      if position < stop then
        match fuel with
        | 0 => none
        | fuel + 1 =>
            let bucketIdx := position / bucketSize
            let bucket := getBucket bucketIdx
            let bucketStart := bucketIdx * bucketSize
            let idxInBucket := position - bucketStart
            let taken := (bucket.drop idxInBucket).take (stop - position)
            let campaigns := campaigns ++ storedCampaigns s taken
            let position := position + taken.length
            if idxInBucket + taken.length ≥ bucket.length then
              bucketLoop bucketSize getBucket stop fuel
                (if bucket.length = 0 then bucketStart + bucketSize
                  else bucketStart + bucket.length) campaigns
            else bucketLoop bucketSize getBucket stop fuel position campaigns
      else some campaigns

def getCampaignsFromBuckets (start limit total bucketSize : Nat) (getBucket : Nat → List Nat)
    (fuel : Nat) : Option (List Campaign) :=
  let cappedLimit := min limit listMaxLimit
  if start ≥ total ∨ cappedLimit = 0 then some []
  else
    let stop := min (Word.saturatingAdd 32 start cappedLimit) total
    bucketLoop s bucketSize getBucket stop fuel start []

def getCampaignsByCategory (category : Category) (offset limit fuel : Nat) :
    Option (List Campaign) :=
  getCampaignsFromBuckets s offset limit (s.campaigns.categoryCampaignCount category)
    categoryCampaignsBucketSize (s.campaigns.categoryCampaignsBucket category) fuel

def getCreatorCampaigns (creator : Address) (start limit fuel : Nat) : Option (List Campaign) :=
  getCampaignsFromBuckets s start limit (s.campaigns.creatorCampaignCount creator)
    creatorCampaignsBucketSize (s.campaigns.creatorCampaignsBucket creator) fuel

def addActive (campaign : Campaign) (active : Nat) : Outcome Nat :=
  if campaign.isActive ∧ ¬ campaign.isCancelled then
    okOr (Word.checkedAdd 32 active 1) (.trap .arithmetic)
  else pure active

def addRaised (campaign : Campaign) (raised : Int) : Outcome Int :=
  if campaign.isCancelled then pure raised
  else okOr (I128.checkedAdd raised campaign.amountRaised) (.trap .arithmetic)

/-- The running sums of the statistics; each addition traps when it overflows. -/
def addToStats (stats : CreatorStats) (campaignId : Nat) : Outcome CreatorStats :=
  match s.campaigns.campaign campaignId with
  | none => pure stats
  | some campaign => do
      let active ← addActive campaign stats.activeCampaigns
      let raised ← addRaised campaign stats.totalRaised
      let contributors ← okOr
        (Word.checkedAdd 32 stats.totalContributors (s.contributions.contributorCount campaignId))
        (.trap .arithmetic)
      pure { stats with
        activeCampaigns := active, totalRaised := raised, totalContributors := contributors }

def getCreatorStats (creator : Address) : Outcome CreatorStats :=
  let total := s.campaigns.creatorCampaignCount creator
  let numBuckets := (total + creatorCampaignsBucketSize - 1) / creatorCampaignsBucketSize
  each
    (fun stats bucketIdx =>
      each (addToStats s) stats (s.campaigns.creatorCampaignsBucket creator bucketIdx))
    { totalCampaigns := total, activeCampaigns := 0, totalRaised := 0, totalContributors := 0 }
    (List.range numBuckets)

/-! ## Statistics of the platform -/

structure PlatformStats where
  totalCampaigns : Nat
  activeCampaigns : Nat
  verifiedCampaigns : Nat
  cancelledCampaigns : Nat
  totalAmountRaised : Int
  statsArePartial : Bool
  scannedUpTo : Nat
  deriving DecidableEq, Repr

/-- Nothing is scanned, so that the last two fields never vary. -/
def getPlatformStats : PlatformStats where
  totalCampaigns := s.campaigns.campaignCount
  activeCampaigns := s.campaigns.activeCampaignCount
  verifiedCampaigns := s.campaigns.verifiedCampaignCount
  cancelledCampaigns := s.campaigns.cancelledCampaignCount
  totalAmountRaised := s.contributions.totalRaised
  statsArePartial := false
  scannedUpTo := s.campaigns.campaignCount

structure PlatformReport where
  totalCampaigns : Nat
  activeCampaigns : Nat
  totalRaised : Int
  totalContributors : Nat
  platformFeeBps : Nat
  isPaused : Bool
  token : Address
  deriving DecidableEq, Repr

def addContributors (total campaignId : Nat) : Outcome Nat :=
  if (s.campaigns.campaign campaignId).isSome then
    okOr (Word.checkedAdd 32 total (s.contributions.contributorCount campaignId))
      (.trap .arithmetic)
  else pure total

def getPlatformReport : Outcome PlatformReport := do
  let totalCampaigns := s.campaigns.campaignCount
  let totalContributors ← each (addContributors s) 0 (List.range' 1 totalCampaigns)
  let token ← getToken s
  pure
    { totalCampaigns := totalCampaigns
      activeCampaigns := s.campaigns.activeCampaignCount
      totalRaised := s.contributions.totalRaised
      totalContributors := totalContributors
      platformFeeBps := getPlatformFee s
      isPaused := s.admin.paused || s.admin.autoPaused
      token := token }

/-! ## Portfolio of a contributor -/

/-- The word a portfolio has for the state of a campaign. -/
inductive PortfolioStatus
  | cancelled
  | withdrawn
  | inactive
  | verified
  | active
  deriving DecidableEq, Repr

def PortfolioStatus.of (campaign : Campaign) : PortfolioStatus :=
  if campaign.isCancelled then .cancelled
  else if campaign.fundsWithdrawn then .withdrawn
  else if ¬ campaign.isActive then .inactive
  else if campaign.isVerified then .verified
  else .active

structure PortfolioEntry where
  campaignId : Nat
  amount : Int
  status : PortfolioStatus
  refundable : Bool
  deriving DecidableEq, Repr

def portfolioEntry (env : Env) (contributor : Address) (id : Nat) : Option PortfolioEntry :=
  let amount := s.contributions.contribution id contributor
  if amount = 0 then none
  else
    (s.campaigns.campaign id).map fun campaign =>
      { campaignId := id
        amount := amount
        status := .of campaign
        refundable := campaign.isCancelled ||
          (decide (env.timestamp > campaign.deadline) &&
            decide (campaign.amountRaised < campaign.fundingGoal)) }

def getContributorPortfolio (env : Env) (contributor : Address) : List PortfolioEntry :=
  (List.range' 1 s.campaigns.campaignCount).filterMap (portfolioEntry s env contributor)

end Queries

end ProofOfHeart
