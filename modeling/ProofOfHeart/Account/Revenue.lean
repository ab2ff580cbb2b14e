import ProofOfHeart.Account.Campaigns

/-! # Revenue sharing as effects on accounts -/

namespace ProofOfHeart

open Checked Function

variable {env : Env} {s s' : State} {c : Nat} {who : Address} {amount : Int}

namespace Account

variable (a : Account)

/-- What a contributor may draw in total from a pool, rounded down twice. -/
def due (pool : Int) (who : Address) : Int :=
  ((a.funds.contribution who * pool * a.record.revenueSharePercentage).tdiv
    a.record.effectiveAmountRaised).tdiv bpsDenominator

/-- The creator's side of a pool. -/
def creatorSide (pool : Int) : Int :=
  (pool * ((bpsDenominator : Int) - a.record.revenueSharePercentage)).tdiv bpsDenominator

/-- The contributors' side of a pool is what the creator's side leaves. -/
def contributorSide (pool : Int) : Int := pool - a.creatorSide pool

/-- Sharing is on and the raised funds have been paid out. -/
structure SharesRevenue : Prop where
  notCancelled : a.record.isCancelled = false
  sharing : a.record.hasRevenueSharing = true
  withdrawn : a.record.fundsWithdrawn = true

def deposit (amount : Int) : Account :=
  { a with funds := { a.funds with pool := a.funds.pool + amount } }

/-- A first claim with which every contributor has claimed. -/
def LastClaim (who : Address) : Prop :=
  isLastClaimant (a.funds.revenueClaimed who) a.funds.claimants a.funds.contributors

instance (who : Address) : Decidable (a.LastClaim who) :=
  inferInstanceAs (Decidable (isLastClaimant _ _ _))

/-- What a claim pays: the undrawn part of the share, and for the last claimant
everything that is left if that is more. -/
def claimable (who : Address) : Int :=
  let share := a.due a.funds.pool who - a.funds.revenueClaimed who
  let remaining := a.contributorSide a.funds.pool - a.funds.distributed
  if a.LastClaim who ∧ remaining > share then remaining else share

def claim (who : Address) : Account :=
  { a with funds := { a.funds with
      revenueClaimed := update a.funds.revenueClaimed who
        (a.funds.revenueClaimed who + a.claimable who)
      distributed := a.funds.distributed + a.claimable who
      claimants := if a.funds.revenueClaimed who = 0 then a.funds.claimants + 1
        else a.funds.claimants } }

def claimCreator : Account :=
  { a with funds := { a.funds with creatorClaimed := a.creatorSide a.funds.pool } }

end Account

/-! ## Deposits -/

theorem depositRevenue_spec (h : depositRevenue env s c amount = .ok s') :
    ∃ a token, (view s).account c = some a ∧ a.SharesRevenue ∧ a.record.amountRaised ≠ 0 ∧
      0 < amount ∧ (view s).currency c = some token ∧
      view s' = { (view s).setAccount c (a.deposit amount) with
        tokens := (view s).tokens.move
          ⟨token, a.record.creator, contractAddress, amount⟩ } := by
  simp only [depositRevenue, requireRevenueSharing, bind_eq_ok, rejectIf_eq_ok, okOr_eq_ok,
    I128.checkedAdd_eq_some, not_not] at h
  obtain ⟨campaign, hcampaign, _, -, _, hpos, _, hcancelled, _, hwithdrawn, _, hsharing, _,
    hraised, _, ⟨rfl, -⟩, token, htoken, h⟩ := h
  have haccount := getCreatorCampaign_spec hcampaign
  obtain ⟨-, -, hview⟩ := transfer_view _ h
  rw [getCampaignToken_eq_ok] at htoken
  refine ⟨_, token, haccount, ⟨by simpa using hcancelled, hsharing, hwithdrawn⟩, hraised,
    Int.not_le.mp hpos, ?_, ?_⟩
  · rw [← htoken]
    refine (View.currency_congr ?_ ?_).symm
    · simp
    · simp
  · have hrecord := (View.account_eq_some.mp haccount).1
    rw [hview]
    simp [Account.deposit, View.setAccount, ← hrecord, pool_view]

/-! ## Claims of contributors -/

theorem revenueDue_ok {contribution pool effective share : Int} {shareBps : Nat}
    (h : revenueDue contribution pool shareBps effective = .ok share) :
    share = ((contribution * pool * shareBps).tdiv effective).tdiv bpsDenominator := by
  simp only [revenueDue, bind_eq_ok, okOr_eq_ok, I128.checkedMul_eq_some,
    I128.checkedDiv_eq_some] at h
  obtain ⟨_, ⟨rfl, -⟩, _, ⟨rfl, -⟩, _, ⟨-, rfl, -⟩, -, rfl, -⟩ := h
  rfl

theorem creatorShareTotal_ok {pool share : Int} {shareBps : Nat}
    (h : creatorShareTotal pool shareBps = .ok share) :
    share = (pool * ((bpsDenominator : Int) - shareBps)).tdiv bpsDenominator := by
  simp only [creatorShareTotal, bind_eq_ok, okOr_eq_ok, I128.checkedMul_eq_some,
    I128.checkedDiv_eq_some] at h
  obtain ⟨_, ⟨rfl, -⟩, -, rfl, -⟩ := h
  rfl

theorem withDust_ok {a : Account} {claimable : Int}
    (h : withDust (a.LastClaim who) a.funds.pool a.funds.distributed
      (a.due a.funds.pool who - a.funds.revenueClaimed who) a.record.revenueSharePercentage =
        .ok claimable) : claimable = a.claimable who := by
  unfold withDust at h
  split at h
  next hlast =>
      simp only [bind_eq_ok, okOr_eq_ok, I128.checkedSub_eq_some, pure_eq_ok] at h
      obtain ⟨_, hcreator, _, ⟨rfl, -⟩, _, ⟨rfl, -⟩, rfl⟩ := h
      obtain rfl := creatorShareTotal_ok hcreator
      simp only [Account.claimable, hlast, true_and]
      rfl
  next hnot =>
      rw [← pure_eq_ok.mp h]
      simp [Account.claimable, hnot]

theorem countClaimant_view {already : Int} (h : countClaimant s c already claimants = .ok s') :
    view s' = { view s with funds := update (view s).funds c { (view s).funds c with
      claimants := if already = 0 then claimants + 1 else ((view s).funds c).claimants } } := by
  unfold countClaimant at h
  split at h
  next hfirst =>
      simp only [bind_eq_ok, okOr_eq_ok, Word.checkedAdd_eq_some, pure_eq_ok] at h
      obtain ⟨_, ⟨rfl, -⟩, rfl⟩ := h
      rw [view_setContributorRevenueClaimants, if_pos hfirst]
  next hlater => rw [← pure_eq_ok.mp h, if_neg hlater, update_eq_self]

theorem claimRevenue_spec (h : claimRevenue env s c who = .ok s') :
    ∃ a token, (view s).account c = some a ∧ a.SharesRevenue ∧ a.funds.contribution who ≠ 0 ∧
      a.record.effectiveAmountRaised ≠ 0 ∧
      a.funds.revenueClaimed who < a.due a.funds.pool who ∧ 0 < a.claimable who ∧
      (view s).currency c = some token ∧
      a.claimable who ≤ (view s).tokens.balance token contractAddress ∧
      view s' = { (view s).setAccount c (a.claim who) with
        tokens := (view s).tokens.move
          ⟨token, contractAddress, who, a.claimable who⟩ } := by
  simp only [claimRevenue, requireRevenueSharing, bind_eq_ok, rejectIf_eq_ok, okOr_eq_ok,
    I128.checkedAdd_eq_some, I128.checkedSub_eq_some, not_not] at h
  obtain ⟨_, -, _, -, campaign, hcampaign, _, hcancelled, _, hsharing, _, hwithdrawn, _,
    hcontribution, _, heffective, total, htotal, _, ⟨rfl, -⟩, _, hshare, _, -, claimable,
    hclaimable, _, hpos, _, ⟨rfl, -⟩, _, ⟨rfl, -⟩, s1, hs1, token, htoken, h⟩ := h
  have haccount := getCampaignOrError_spec hcampaign
  obtain rfl := revenueDue_ok htotal
  obtain rfl := withDust_ok (a := ⟨campaign, (view s).funds c⟩) hclaimable
  obtain ⟨-, hbalance, hview⟩ := transfer_view _ h
  rw [getCampaignToken_eq_ok, countClaimant_view hs1] at htoken
  rw [countClaimant_view hs1] at hview hbalance
  refine ⟨_, token, haccount, ⟨by simpa using hcancelled, hsharing, hwithdrawn⟩, hcontribution,
    heffective, ?_, Int.not_le.mp hpos, ?_, by simpa using hbalance, ?_⟩
  · exact Int.sub_pos.mp (Int.not_le.mp hshare)
  · rw [← htoken]
    refine (View.currency_congr ?_ ?_).symm
    · simp
    · simp
  · have hrecord := (View.account_eq_some.mp haccount).1
    rw [hview]
    simp [Account.claim, View.setAccount, ← hrecord, revenueClaimed_view, distributed_view,
      claimants_view]

/-! ## Claims of the creator -/

theorem claimCreatorRevenue_spec (h : claimCreatorRevenue env s c = .ok s') :
    ∃ a token, (view s).account c = some a ∧ a.record.hasRevenueSharing = true ∧
      a.funds.creatorClaimed < a.creatorSide a.funds.pool ∧ (view s).currency c = some token ∧
      view s' = { (view s).setAccount c a.claimCreator with
        tokens := (view s).tokens.move ⟨token, contractAddress, a.record.creator,
          a.creatorSide a.funds.pool - a.funds.creatorClaimed⟩ } := by
  simp only [claimCreatorRevenue, requireRevenueSharing, bind_eq_ok, rejectIf_eq_ok, okOr_eq_ok,
    I128.checkedAdd_eq_some, I128.checkedSub_eq_some, not_not] at h
  obtain ⟨campaign, hcampaign, _, -, _, hsharing, _, -, total, htotal, _, ⟨rfl, -⟩, _, hpos, _,
    ⟨rfl, -⟩, token, htoken, h⟩ := h
  have haccount := getCreatorCampaign_spec hcampaign
  obtain rfl := creatorShareTotal_ok htotal
  obtain ⟨-, -, hview⟩ := transfer_view _ h
  rw [getCampaignToken_eq_ok] at htoken
  refine ⟨_, token, haccount, hsharing, Int.sub_pos.mp (Int.not_le.mp hpos), ?_, ?_⟩
  · rw [← htoken]
    refine (View.currency_congr ?_ ?_).symm
    · simp
    · simp
  · have hrecord := (View.account_eq_some.mp haccount).1
    have hsum (x y : Int) : x + (y - x) = y := by omega
    rw [hview]
    simp [Account.claimCreator, View.setAccount, ← hrecord, creatorClaimed_view, pool_view,
      Account.creatorSide, hsum]

end ProofOfHeart
