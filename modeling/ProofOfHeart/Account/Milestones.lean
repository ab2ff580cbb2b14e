import ProofOfHeart.Account.Campaigns

/-! # Milestones as effects on accounts -/

namespace ProofOfHeart

open Checked Function

variable {env : Env} {s s' : State} {c : Nat}

/-! ## Plans -/

/-- A list that `set_milestones` accepts. -/
structure Plan (milestones : List Milestone) : Prop where
  nonempty : milestones ≠ []
  short : milestones.length ≤ maxMilestones
  distinct : (milestones.map Milestone.id).Nodup
  positive : ∀ milestone ∈ milestones, 0 < milestone.payoutBps
  total : (milestones.map Milestone.payoutBps).sum = bpsDenominator

/-- One check: the identifier is new and the basis points are positive. -/
theorem checkMilestone_ok {progress progress' : List Nat × Nat} {milestone : Milestone}
    (h : checkMilestone progress milestone = .ok progress') :
    0 < milestone.payoutBps ∧ milestone.id ∉ progress.1 ∧
      progress' = (progress.1 ++ [milestone.id], progress.2 + milestone.payoutBps) := by
  simp only [checkMilestone, bind_eq_ok, rejectIf_eq_ok, okOr_eq_ok, Word.checkedAdd_eq_some,
    pure_eq_ok, not_or] at h
  obtain ⟨_, ⟨hpos, -⟩, _, -, _, hnew, _, ⟨rfl, -⟩, rfl⟩ := h
  exact ⟨Nat.pos_of_ne_zero hpos, hnew, rfl⟩

/-- The loop of checks, by induction on the list. -/
theorem checkMilestones_ok {milestones : List Milestone} :
    ∀ {progress progress' : List Nat × Nat}, progress.1.Nodup →
      each checkMilestone progress milestones = .ok progress' →
      (progress.1 ++ milestones.map Milestone.id).Nodup ∧
        (∀ milestone ∈ milestones, 0 < milestone.payoutBps) ∧
        progress'.2 = progress.2 + (milestones.map Milestone.payoutBps).sum := by
  induction milestones with
  | nil =>
      intro progress progress' hnodup h
      rw [each_nil, Except.ok.injEq] at h
      subst h
      simpa using hnodup
  | cons milestone rest ih =>
      intro progress progress' hnodup h
      obtain ⟨mid, hmid, hrest⟩ := each_cons_eq_ok.mp h
      obtain ⟨hpos, hnew, rfl⟩ := checkMilestone_ok hmid
      have hmidNodup : (progress.1 ++ [milestone.id]).Nodup := by
        rw [List.nodup_append]
        refine ⟨hnodup, by simp, ?_⟩
        intro x hx y hy
        rw [List.mem_singleton.mp hy]
        exact fun heq => hnew (heq ▸ hx)
      obtain ⟨hids, hbps, htotal⟩ := ih hmidNodup hrest
      refine ⟨by simpa using hids, ?_, by simpa [Nat.add_assoc] using htotal⟩
      intro other hother
      rcases List.mem_cons.mp hother with rfl | hother
      · exact hpos
      · exact hbps other hother

def unverified (milestones : List Milestone) : List Milestone :=
  milestones.map fun milestone => { milestone with verified := false }

theorem setMilestones_spec {milestones : List Milestone}
    (h : setMilestones env s c milestones = .ok s') :
    ∃ a, (view s).account c = some a ∧ a.record.isCancelled = false ∧
      a.record.fundsWithdrawn = false ∧ a.funds.milestones = [] ∧ Plan milestones ∧
      view s' = (view s).setAccount c
        { a with funds := { a.funds with milestones := unverified milestones } } := by
  simp only [setMilestones, bind_eq_ok, rejectIf_eq_ok, pure_eq_ok, not_or, not_not] at h
  obtain ⟨campaign, hcampaign, _, -, _, -, _, ⟨hcancelled, hwithdrawn⟩, _, ⟨hnonempty, hshort⟩, _,
    hempty, progress, hprogress, _, htotal, rfl⟩ := h
  have haccount := getCampaignOrError_spec hcampaign
  obtain ⟨hids, hbps, hsum⟩ := checkMilestones_ok List.nodup_nil hprogress
  refine ⟨_, haccount, by simpa using hcancelled, by simpa using hwithdrawn, hempty,
    ⟨hnonempty, Nat.le_of_not_lt hshort, by simpa using hids, hbps, by omega⟩, ?_⟩
  rw [View.setAccount_funds (View.account_eq_some.mp haccount).1]
  simp [unverified]

/-! ## Verification -/

def verifiedAt (milestoneId : Nat) (milestones : List Milestone) : List Milestone :=
  milestones.map fun milestone =>
    if milestone.id = milestoneId then { milestone with verified := true } else milestone

/-- Every milestone with the identifier was unmarked, and is marked. -/
theorem markVerified_ok {milestoneId : Nat} {milestones : List Milestone} :
    ∀ {updated : List Milestone} {found : Bool},
      markVerified milestoneId milestones = .ok (updated, found) →
      updated = verifiedAt milestoneId milestones ∧
        (∀ milestone ∈ milestones, milestone.id = milestoneId → milestone.verified = false) ∧
        (found = true → ∃ milestone ∈ milestones, milestone.id = milestoneId) := by
  induction milestones with
  | nil =>
      intro updated found h
      simp only [markVerified, Except.ok.injEq, Prod.mk.injEq] at h
      obtain ⟨rfl, rfl⟩ := h
      exact ⟨rfl, nofun, Bool.noConfusion⟩
  | cons milestone rest ih =>
      intro updated found h
      rw [List.forall_mem_cons]
      unfold markVerified at h
      split at h
      next heq =>
          simp only [bind_eq_ok, rejectIf_eq_ok, pure_eq_ok, Prod.mk.injEq] at h
          obtain ⟨_, hunmarked, ⟨tail, _⟩, htail, rfl, -⟩ := h
          obtain ⟨rfl, hrest, -⟩ := ih htail
          have hfree : milestone.verified = false := Bool.eq_false_of_not_eq_true hunmarked
          refine ⟨by simp [verifiedAt, heq], ⟨fun _ => hfree, hrest⟩,
            fun _ => ⟨milestone, List.mem_cons_self, heq⟩⟩
      next hne =>
          simp only [bind_eq_ok, pure_eq_ok, Prod.mk.injEq] at h
          obtain ⟨⟨tail, found'⟩, htail, rfl, rfl⟩ := h
          obtain ⟨rfl, hrest, hfound⟩ := ih htail
          refine ⟨by simp [verifiedAt, hne], ⟨fun heq => absurd heq hne, hrest⟩, fun hsome => ?_⟩
          obtain ⟨other, hother, heq⟩ := hfound hsome
          exact ⟨other, List.mem_cons_of_mem _ hother, heq⟩

theorem verifyMilestone_spec {admin : Address} {milestoneId : Nat}
    (h : verifyMilestone env s admin c milestoneId = .ok s') :
    ∃ a milestone, (view s).account c = some a ∧ a.record.isCancelled = false ∧
      milestone ∈ a.funds.milestones ∧ milestone.id = milestoneId ∧
      (∀ other ∈ a.funds.milestones, other.id = milestoneId → other.verified = false) ∧
      view s' = (view s).setAccount c { a with funds := { a.funds with
        milestones := verifiedAt milestoneId a.funds.milestones } } := by
  simp only [verifyMilestone, bind_eq_ok, rejectIf_eq_ok, pure_eq_ok] at h
  obtain ⟨_, -, _, -, campaign, hcampaign, _, hcancelled, _, -, ⟨updated, found⟩, hupdated, _,
    hfound, rfl⟩ := h
  have haccount := getCampaignOrError_spec hcampaign
  obtain ⟨rfl, hunmarked, hmem⟩ := markVerified_ok hupdated
  obtain ⟨milestone, mem, hid⟩ := hmem (Bool.eq_true_of_not_eq_false hfound)
  refine ⟨_, milestone, haccount, by simpa using hcancelled, mem, hid, hunmarked, ?_⟩
  rw [View.setAccount_funds (View.account_eq_some.mp haccount).1]
  simp [milestones_view]

/-! ## Claims -/

/-- `bps` basis points of `amount`, rounded down. -/
def floorBps (amount : Int) (bps : Nat) : Int := (amount * bps).tdiv bpsDenominator

theorem floorShare_ok {amount share : Int} {bps : Nat} (h : floorShare amount bps = .ok share) :
    share = floorBps amount bps := by
  simp only [floorShare, bind_eq_ok, okOr_eq_ok, I128.checkedMul_eq_some, pure_eq_ok] at h
  obtain ⟨_, ⟨rfl, -⟩, rfl⟩ := h
  rfl

/-- The milestones of a list that have been claimed. -/
def claimedOf (milestones : List Milestone) (claimed : Nat → Bool) : List Milestone :=
  milestones.filter fun milestone => claimed milestone.id

def bpsOf (milestones : List Milestone) : Nat := (milestones.map Milestone.payoutBps).sum

/-- The slices of `amount` for the given milestones, each rounded down. -/
def slicesOf (amount : Int) (milestones : List Milestone) : Int :=
  (milestones.map fun milestone => floorBps amount milestone.payoutBps).sum

section Sums

variable {claimed : Nat → Bool} {amount : Int} {milestone : Milestone} {milestones : List Milestone}

@[simp] theorem bpsOf_cons :
    bpsOf (milestone :: milestones) = milestone.payoutBps + bpsOf milestones := rfl

@[simp] theorem slicesOf_cons : slicesOf amount (milestone :: milestones) =
    floorBps amount milestone.payoutBps + slicesOf amount milestones := rfl

theorem claimedOf_taken (h : claimed milestone.id = true) :
    claimedOf (milestone :: milestones) claimed = milestone :: claimedOf milestones claimed :=
  List.filter_cons_of_pos h

theorem claimedOf_skipped (h : ¬ claimed milestone.id = true) :
    claimedOf (milestone :: milestones) claimed = claimedOf milestones claimed :=
  List.filter_cons_of_neg h

theorem addClaimed_step {sums sums' : Nat × Int}
    (h : addClaimed claimed amount sums milestone = .ok sums') :
    sums' = if claimed milestone.id then
        (sums.1 + milestone.payoutBps, sums.2 + floorBps amount milestone.payoutBps)
      else sums := by
  unfold addClaimed at h
  split at h
  next hclaimed =>
      simp only [bind_eq_ok, okOr_eq_ok, Word.checkedAdd_eq_some, I128.checkedAdd_eq_some,
        pure_eq_ok] at h
      obtain ⟨_, ⟨rfl, -⟩, slice, hslice, _, ⟨rfl, -⟩, rfl⟩ := h
      rw [floorShare_ok hslice, if_pos hclaimed]
  next hunclaimed => rw [← pure_eq_ok.mp h, if_neg hunclaimed]

theorem addClaimed_ok :
    ∀ {sums sums' : Nat × Int}, each (addClaimed claimed amount) sums milestones = .ok sums' →
      sums' = (sums.1 + bpsOf (claimedOf milestones claimed),
        sums.2 + slicesOf amount (claimedOf milestones claimed)) := by
  induction milestones with
  | nil =>
      intro sums sums' h
      rw [each_nil, Except.ok.injEq] at h
      simp [← h, claimedOf, bpsOf, slicesOf]
  | cons milestone rest ih =>
      intro sums sums' h
      obtain ⟨mid, hmid, hrest⟩ := each_cons_eq_ok.mp h
      rw [ih hrest, addClaimed_step hmid]
      split
      next hclaimed =>
          rw [claimedOf_taken hclaimed]
          simp [Nat.add_assoc, Int.add_assoc]
      next hunclaimed => rw [claimedOf_skipped hunclaimed]

theorem addClaimedFee_step {sum sum' : Int}
    (h : addClaimedFee claimed amount sum milestone = .ok sum') :
    sum' = if claimed milestone.id then sum + floorBps amount milestone.payoutBps else sum := by
  unfold addClaimedFee at h
  split at h
  next hclaimed =>
      simp only [bind_eq_ok, okOr_eq_ok, I128.checkedAdd_eq_some] at h
      obtain ⟨slice, hslice, rfl, -⟩ := h
      rw [floorShare_ok hslice, if_pos hclaimed]
  next hunclaimed => rw [← pure_eq_ok.mp h, if_neg hunclaimed]

theorem addClaimedFee_ok :
    ∀ {sum sum' : Int}, each (addClaimedFee claimed amount) sum milestones = .ok sum' →
      sum' = sum + slicesOf amount (claimedOf milestones claimed) := by
  induction milestones with
  | nil =>
      intro sum sum' h
      rw [each_nil, Except.ok.injEq] at h
      simp [← h, claimedOf, slicesOf]
  | cons milestone rest ih =>
      intro sum sum' h
      obtain ⟨mid, hmid, hrest⟩ := each_cons_eq_ok.mp h
      rw [ih hrest, addClaimedFee_step hmid]
      split
      next hclaimed =>
          rw [claimedOf_taken hclaimed]
          simp [Int.add_assoc]
      next hunclaimed => rw [claimedOf_skipped hunclaimed]

end Sums

/-- What one claim pays. -/
structure MilestonePay where
  creator : Int
  fee : Int

/-- The last unclaimed milestone is recognised by its basis points. -/
def payMilestone (milestones : List Milestone) (claimed : Nat → Bool) (milestone : Milestone)
    (feeTotal net : Int) : MilestonePay :=
  if bpsDenominator - bpsOf (claimedOf milestones claimed) = milestone.payoutBps then
    { creator := net - slicesOf net (claimedOf milestones claimed)
      fee := max (floorBps feeTotal milestone.payoutBps)
        (feeTotal - slicesOf feeTotal (claimedOf milestones claimed)) }
  else
    { creator := floorBps net milestone.payoutBps
      fee := floorBps feeTotal milestone.payoutBps }

theorem milestonePayout_ok {milestones : List Milestone} {claimed : Nat → Bool}
    {milestone : Milestone} {feeTotal net : Int} {payout : Int × Int}
    (h : milestonePayout milestones claimed milestone feeTotal net = .ok payout) :
    bpsOf (claimedOf milestones claimed) ≤ bpsDenominator ∧
      payout = ((payMilestone milestones claimed milestone feeTotal net).creator,
        (payMilestone milestones claimed milestone feeTotal net).fee) := by
  simp only [milestonePayout, bind_eq_ok, okOr_eq_ok, Word.checkedSub_eq_some] at h
  obtain ⟨sums, hsums, slice, hslice, _, ⟨rfl, hle⟩, h⟩ := h
  obtain rfl := addClaimed_ok hsums
  simp only [Nat.zero_add, Int.zero_add] at hle h
  refine ⟨hle, ?_⟩
  unfold payMilestone
  split at h
  next hlast =>
      simp only [bind_eq_ok, okOr_eq_ok, I128.checkedSub_eq_some, pure_eq_ok] at h
      obtain ⟨_, ⟨rfl, -⟩, feeSlice, hfeeSlice, feeClaimed, hfeeClaimed, _, ⟨rfl, -⟩, rfl⟩ := h
      rw [if_pos hlast, floorShare_ok hfeeSlice, addClaimedFee_ok hfeeClaimed, Int.zero_add]
  next hmore =>
      simp only [bind_eq_ok, pure_eq_ok] at h
      obtain ⟨feeSlice, hfeeSlice, rfl⟩ := h
      rw [if_neg hmore, floorShare_ok hslice, floorShare_ok hfeeSlice]

/-- The basis points that a payout finds unclaimed. -/
theorem milestonePayout_remaining {milestones : List Milestone} {claimed : Nat → Bool}
    {milestone : Milestone} {feeTotal net : Int} {payout : Int × Int}
    (h : milestonePayout milestones claimed milestone feeTotal net = .ok payout) :
    ∃ sums, each (addClaimed claimed net) (0, 0) milestones = .ok sums ∧
      Word.checkedSub bpsDenominator sums.1 =
        some (bpsDenominator - bpsOf (claimedOf milestones claimed)) := by
  obtain ⟨hle, -⟩ := milestonePayout_ok h
  obtain ⟨sums, hsums, -⟩ := bind_eq_ok.mp h
  obtain rfl := addClaimed_ok hsums
  refine ⟨_, hsums, Word.checkedSub_eq_some.mpr ?_⟩
  rw [Nat.zero_add]
  exact ⟨rfl, hle⟩

/-- The payout of a milestone at the present amount raised and fee. -/
def View.milestonePay (v : View) (a : Account) (milestone : Milestone) : MilestonePay :=
  let feeTotal := ceilBps a.record.amountRaised (v.effectiveFee a.record)
  payMilestone a.funds.milestones a.funds.claimed milestone feeTotal
    (a.record.amountRaised - feeTotal)

/-- Nothing is left to claim after this claim. -/
theorem allClaimed_iff {milestones : List Milestone} {claimed : Nat → Bool} {milestoneId : Nat} :
    allClaimed milestones claimed milestoneId = true ↔
      ∀ other ∈ milestones, update claimed milestoneId true other.id = true := by
  simp only [allClaimed, List.all_eq_true, Bool.or_eq_true, decide_eq_true_eq]
  refine forall₂_congr fun other _ => ?_
  by_cases h : other.id = milestoneId
  · simp [h]
  · simp [h]

/-- The last claim closes the campaign. -/
def Account.claimMilestone (a : Account) (milestoneId : Nat) : Account where
  record := if allClaimed a.funds.milestones a.funds.claimed milestoneId then a.close.record
    else a.record
  funds := { a.funds with claimed := update a.funds.claimed milestoneId true }

theorem Account.claimMilestone_record {a : Account} {milestoneId : Nat} :
    (a.claimMilestone milestoneId).record = { a.record with
      fundsWithdrawn := allClaimed a.funds.milestones a.funds.claimed milestoneId ||
        a.record.fundsWithdrawn
      isActive := !allClaimed a.funds.milestones a.funds.claimed milestoneId &&
        a.record.isActive } := by
  unfold Account.claimMilestone
  cases allClaimed a.funds.milestones a.funds.claimed milestoneId <;> rfl

theorem closeWhenDone_view {campaign : Campaign} {done : Bool}
    (h : closeWhenDone s c campaign done = s') (hcampaign : (view s).campaign c = some campaign) :
    view s' = { view s with
      campaign := update (view s).campaign c (some
        (if done then { campaign with fundsWithdrawn := true, isActive := false } else campaign))
      activeCount := (view s).activeCount - (if done then 1 else 0) } := by
  subst h
  cases done with
  | true => simp [closeWhenDone]
  | false => simp [closeWhenDone, ← hcampaign]

theorem payMilestoneFee_view {token admin : Address} {amount : Int}
    (h : payMilestoneFee s token admin amount = .ok s') :
    view s' = { view s with tokens :=
      if amount > 0 then (view s).tokens.move ⟨token, contractAddress, admin, amount⟩
      else (view s).tokens } := by
  unfold payMilestoneFee at h
  split at h
  next hpos => rw [(transfer_view _ h).2.2, if_pos hpos]
  next hzero => rw [← pure_eq_ok.mp h, if_neg hzero]

/-- Each transfer, when its turn comes, is covered by what its sender holds. -/
def Tokens.Covers : Tokens → List Transfer → Prop
  | _, [] => True
  | w, t :: rest => t.amount ≤ w.balance t.token t.sender ∧ (w.move t).Covers rest

theorem Tokens.move_balance {w w' : Tokens} (t : Transfer) (h : w'.balance = w.balance) :
    (w'.move t).balance = (w.move t).balance := by
  simp only [move, h]

theorem Tokens.foldl_balance {w w' : Tokens} (moves : List Transfer)
    (h : w'.balance = w.balance) :
    (moves.foldl move w').balance = (moves.foldl move w).balance := by
  induction moves generalizing w w' with
  | nil => exact h
  | cons t rest ih => exact ih (move_balance t h)

theorem Tokens.covers_congr {w w' : Tokens} {moves : List Transfer}
    (h : w'.balance = w.balance) : w'.Covers moves ↔ w.Covers moves := by
  induction moves generalizing w w' with
  | nil => exact Iff.rfl
  | cons t rest ih => rw [Covers, Covers, h, ih (move_balance t h)]

theorem Tokens.covers_append {w : Tokens} {first rest : List Transfer} :
    w.Covers (first ++ rest) ↔ w.Covers first ∧ (first.foldl move w).Covers rest := by
  induction first generalizing w with
  | nil => simp [Covers]
  | cons t first ih => rw [List.cons_append, Covers, Covers, ih, List.foldl_cons, and_assoc]

/-- The transfers of a claim: the fee, where one is due, and the creator's part. -/
def claimTransfers (token admin creator : Address) (pay : MilestonePay) : List Transfer :=
  (if pay.fee > 0 then [⟨token, contractAddress, admin, pay.fee⟩] else []) ++
    [⟨token, contractAddress, creator, pay.creator⟩]

theorem claimPayment_iff {token admin creator : Address} {fee amount : Int} (h : 0 ≤ amount) :
    (∃ s', (payMilestoneFee s token admin fee >>= fun s =>
        transfer s token contractAddress creator amount) = .ok s') ↔
      (view s).tokens.Covers (claimTransfers token admin creator ⟨amount, fee⟩) := by
  change _ ↔ s.tokens.Covers _
  unfold payMilestoneFee claimTransfers
  by_cases hfee : fee > 0
  · have hnonneg := Int.le_of_lt hfee
    simp [hfee, transfer_eq_ok, Tokens.Covers, h, hnonneg]
  · simp [hfee, transfer_eq_ok, Tokens.Covers, h]

/-- A claim that goes through has computed its payout from the stored marks. -/
theorem claimMilestone_payout {milestoneId : Nat}
    (h : claimMilestone env s c milestoneId = .ok s') :
    ∃ campaign milestone feeTotal payout, s.campaigns.campaign c = some campaign ∧
      (s.campaigns.campaignMilestones c).find? (fun m => m.id = milestoneId) = some milestone ∧
      ceilShare campaign.amountRaised (effectiveFee s campaign) = .ok feeTotal ∧
      milestonePayout (s.campaigns.campaignMilestones c) (s.campaigns.milestoneClaimed c) milestone
        feeTotal (campaign.amountRaised - feeTotal) = .ok payout := by
  simp only [claimMilestone, bind_eq_ok, okOr_eq_ok, I128.checkedSub_eq_some] at h
  obtain ⟨campaign, hcampaign, _, -, _, -, _, -, _, -, _, -, _, -, _, -, _, -, milestone, hfind,
    _, -, _, -, feeTotal, hfee, _, ⟨rfl, -⟩, payout, hpay, -⟩ := h
  exact ⟨campaign, milestone, feeTotal, payout,
    (View.account_eq_some.mp (getCampaignOrError_spec hcampaign)).1, hfind, hfee, hpay⟩

theorem claimMilestone_spec {milestoneId : Nat}
    (h : claimMilestone env s c milestoneId = .ok s') :
    ∃ a token admin milestone, (view s).account c = some a ∧ a.Payable ∧
      milestone ∈ a.funds.milestones ∧ milestone.id = milestoneId ∧ milestone.verified = true ∧
      a.funds.claimed milestoneId = false ∧
      bpsOf (claimedOf a.funds.milestones a.funds.claimed) ≤ bpsDenominator ∧
      0 < ((view s).milestonePay a milestone).creator ∧
      (view s).currency c = some token ∧ (view s).admin.admin = some admin ∧
      (view s).tokens.Covers
        (claimTransfers token admin a.record.creator ((view s).milestonePay a milestone)) ∧
      view s' = { (view s).setAccount c (a.claimMilestone milestoneId) with
        activeCount := (view s).activeCount -
          (if allClaimed a.funds.milestones a.funds.claimed milestoneId then 1 else 0)
        totalRaised := (view s).totalRaised - (((view s).milestonePay a milestone).fee +
          ((view s).milestonePay a milestone).creator)
        tokens := (if ((view s).milestonePay a milestone).fee > 0 then
            (view s).tokens.move
              ⟨token, contractAddress, admin, ((view s).milestonePay a milestone).fee⟩
          else (view s).tokens).move
            ⟨token, contractAddress, a.record.creator,
              ((view s).milestonePay a milestone).creator⟩ } := by
  simp only [claimMilestone, getAdmin, bind_eq_ok, rejectIf_eq_ok, okOr_eq_ok,
    I128.checkedAdd_eq_some, I128.checkedSub_eq_some, not_not] at h
  obtain ⟨campaign, hcampaign, _, -, _, -, _, hcancelled, _, hverified, _, hwithdrawn, _, hraised,
    _, hgoal, _, -, milestone, hfind, _, hmarked, _, hunclaimed, feeTotal, hfee, _, ⟨rfl, -⟩,
    ⟨creatorPay, feePay⟩, hpay, _, hpos, _, ⟨rfl, -⟩, _, ⟨rfl, -⟩, admin, hadmin, token, htoken, s1,
    hs1, h⟩ := h
  have haccount := getCampaignOrError_spec hcampaign
  have hrecord := (View.account_eq_some.mp haccount).1
  obtain rfl := ceilShare_ok hfee
  obtain ⟨hle, hpay⟩ := milestonePayout_ok hpay
  simp only [Prod.mk.injEq] at hpay
  obtain ⟨rfl, rfl⟩ := hpay
  generalize hs2 : closeWhenDone _ c campaign _ = s2 at hadmin htoken hs1
  have hclosed := closeWhenDone_view hs2 (by simpa using hrecord)
  have hcovers := (claimPayment_iff (Int.le_of_lt (Int.not_le.mp hpos))).mp
    ⟨s', bind_eq_ok.mpr ⟨s1, hs1, h⟩⟩
  obtain ⟨-, -, hview⟩ := transfer_view _ h
  rw [payMilestoneFee_view hs1, hclosed] at hview
  rw [hclosed] at hcovers
  rw [getCampaignToken_eq_ok, hclosed] at htoken
  rw [admin_view, hclosed] at hadmin
  refine ⟨⟨campaign, (view s).funds c⟩, token, admin, milestone, haccount,
    ⟨hverified, by simpa using hcancelled, by simpa using hwithdrawn, hraised,
      Int.not_lt.mp hgoal⟩, List.mem_of_find?_eq_some hfind, by simpa using List.find?_some hfind,
    hmarked, by simpa [claimed_view] using hunclaimed, hle, Int.not_le.mp hpos, ?_, ?_,
    hcovers, ?_⟩
  · rw [← htoken]
    refine (View.currency_congr ?_ ?_).symm
    · simp
    · simp
  · simpa using hadmin
  · rw [hview]
    simp [Account.claimMilestone, View.setAccount, View.milestonePay, Account.close,
      milestones_view, claimed_view, effectiveFee_view, totalRaised_view]
    exact ⟨rfl, rfl⟩

end ProofOfHeart
