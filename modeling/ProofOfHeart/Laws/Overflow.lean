import ProofOfHeart.Laws.CreatorRevenue
import ProofOfHeart.Laws.Milestones

/-! # When settlement overflows

A settlement multiplies before it divides. Each is gated here by the values that may not
fit: with the stated bounds on the amounts, a call that meets its checks reports an
overflow without its gate, and with it can fail only in the payment that ends it.
-/

namespace ProofOfHeart

open Checked Function Trace Balances

variable {env : Env} {s s' : State} {c : Nat} {a : Account} {who token recipient : Address}
  {amount : Int}

/-! ## The transfers that end a settlement -/

/-- No token is known, or the contract holds too little of it. -/
def Abort.InPayment : Abort → Prop
  | .trap .missingEntry | .trap .token => True
  | _ => False

/-- The same for one amount in the currency of a campaign. -/
def View.Unpaid (v : View) (c : Nat) (amount : Int) : Abort → Prop
  | .trap .missingEntry => v.currency c = none
  | .trap .token => ∃ token, v.currency c = some token ∧
      v.tokens.balance token contractAddress < amount
  | _ => False

theorem View.Unpaid.inPayment {v : View} {abort : Abort} (h : v.Unpaid c amount abort) :
    abort.InPayment := by
  unfold View.Unpaid at h
  split at h
  next => trivial
  next => trivial
  next => exact h.elim

theorem View.Unpaid.balance_lt {v : View} {abort : Abort} (h : v.Unpaid c amount abort)
    (currency : v.currency c = some token) : v.tokens.balance token contractAddress < amount := by
  unfold View.Unpaid at h
  split at h
  next => cases h.symm.trans currency
  next =>
      obtain ⟨held, hheld, hshort⟩ := h
      rwa [Option.some.inj (currency.symm.trans hheld)]
  next => exact h.elim

theorem View.Unpaid.congr {v v' : View} {abort : Abort} (h : v'.Unpaid c amount abort)
    (hcurrency : v'.currency c = v.currency c) (htokens : v'.tokens = v.tokens) :
    v.Unpaid c amount abort := by
  unfold View.Unpaid at h ⊢
  rwa [hcurrency, htokens] at h

theorem transfer_inPayment {abort : Abort}
    (h : transfer s token who recipient amount = .error abort) : abort.InPayment := by
  obtain ⟨-, rfl⟩ := fails_transfer.mp (eq_error_iff.mp h)
  trivial

theorem getAdmin_inPayment {abort : Abort} (h : getAdmin s = .error abort) : abort.InPayment := by
  obtain ⟨-, rfl⟩ := fails_getAdmin.mp (eq_error_iff.mp h)
  trivial

theorem getCampaignToken_inPayment {abort : Abort} (h : getCampaignToken s c = .error abort) :
    abort.InPayment := by
  obtain ⟨-, rfl⟩ := fails_getCampaignToken.mp (eq_error_iff.mp h)
  trivial

/-- The transfer of one amount in the currency of the campaign. -/
theorem payment_unpaid {abort : Abort} (hamount : 0 ≤ amount)
    (h : (getCampaignToken s c >>= fun token =>
      transfer s token contractAddress who amount) = .error abort) :
    (view s).Unpaid c amount abort := by
  rcases bind_eq_error.mp h with htoken | ⟨token, htoken, htransfer⟩
  · obtain ⟨hnone, rfl⟩ := fails_getCampaignToken.mp (eq_error_iff.mp htoken)
    exact hnone
  · obtain ⟨hnegative | hshort, rfl⟩ := fails_transfer.mp (eq_error_iff.mp htransfer)
    · omega
    · exact ⟨token, (getCampaignToken_eq_ok s).mp htoken, hshort⟩

/-! ## Claims of contributors -/

section Shares

variable {contribution pool effective : Int} {shareBps : Nat}

/-- The products of a share stay within the range. -/
def FitsShare (contribution pool : Int) (shareBps : Nat) : Prop :=
  I128.InRange (contribution * pool) ∧ I128.InRange (contribution * pool * shareBps)

instance : Decidable (FitsShare contribution pool shareBps) := inferInstanceAs (Decidable (_ ∧ _))

/-- So does the product of the creator's part. -/
def FitsCreator (pool : Int) (shareBps : Nat) : Prop :=
  I128.InRange (pool * (10000 - shareBps))

instance : Decidable (FitsCreator pool shareBps) :=
  inferInstanceAs (Decidable (I128.InRange _))

theorem quotient_ok {x d : Int} {e : Abort} (hx : I128.InRange x) (hnonneg : 0 ≤ x) (hd : 0 < d) :
    okOr (I128.checkedDiv x d) e = .ok (x.tdiv d) :=
  okOr_eq_ok.mpr (I128.checkedDiv_eq_some.mpr
    ⟨ne_of_gt hd, rfl, hx.tdiv hnonneg (Int.le_of_lt hd)⟩)

theorem revenueDue_needs (hcontribution : 0 ≤ contribution) (hpool : 0 ≤ pool)
    (heffective : 0 < effective) : Needs (FitsShare contribution pool shareBps) (.err .overflow)
      (revenueDue contribution pool shareBps effective) := by
  refine .bind I128.needs fun product hproduct => ?_
  obtain ⟨rfl, -⟩ := I128.checkedMul_eq_some.mp (okOr_eq_ok.mp hproduct)
  refine .last I128.needs fun scaled hscaled => ?_
  obtain ⟨rfl, hin⟩ := I128.checkedMul_eq_some.mp (okOr_eq_ok.mp hscaled)
  have hnonneg : 0 ≤ contribution * pool * shareBps :=
    Int.mul_nonneg (Int.mul_nonneg hcontribution hpool) (Int.natCast_nonneg _)
  refine .pass (quotient_ok hin hnonneg heffective) (.of_ok (quotient_ok ?_ ?_ (by decide)))
  · exact hin.tdiv hnonneg (Int.le_of_lt heffective)
  · exact Int.tdiv_nonneg hnonneg (Int.le_of_lt heffective)

theorem creatorShareTotal_needs (hpool : 0 ≤ pool) (hshare : shareBps ≤ bpsDenominator) :
    Needs (FitsCreator pool shareBps) (.err .overflow) (creatorShareTotal pool shareBps) := by
  refine .last I128.needs fun product hproduct => ?_
  obtain ⟨rfl, hin⟩ := I128.checkedMul_eq_some.mp (okOr_eq_ok.mp hproduct)
  have hnonneg := Int.mul_nonneg hpool (Int.sub_nonneg_of_le (Int.ofNat_le.mpr hshare))
  exact .of_ok (quotient_ok hin hnonneg (by decide))

theorem creatorShareTotal_inRange {share : Int} (h : creatorShareTotal pool shareBps = .ok share) :
    I128.InRange share := by
  simp only [creatorShareTotal, bind_eq_ok, okOr_eq_ok, I128.checkedDiv_eq_some] at h
  obtain ⟨_, -, -, rfl, hin⟩ := h
  exact hin

end Shares

/-- What `claim_revenue` checks before it computes. -/
structure ContributorClaims (env : Env) (s : State) (a : Account) (who : Address) : Prop where
  signed : env.auth who = true
  unpaused : s.admin.paused = false ∧ s.admin.autoPaused = false
  shares : a.SharesRevenue
  contributed : a.funds.contribution who ≠ 0

/-- The bounds of the amounts of a claim. -/
structure Account.Claimable (a : Account) (who : Address) : Prop where
  contribution : 0 ≤ a.funds.contribution who
  effective : 0 < a.record.effectiveAmountRaised
  pool : 0 ≤ a.funds.pool
  share : a.record.revenueSharePercentage ≤ bpsDenominator
  claimants : a.funds.revenueClaimed who = 0 → a.funds.claimants + 1 < 2 ^ 32
  undrawn : I128.InRange (a.due a.funds.pool who - a.funds.revenueClaimed who)
  remaining : I128.InRange (a.contributorSide a.funds.pool) ∧
    I128.InRange (a.contributorSide a.funds.pool - a.funds.distributed)
  claimed : I128.InRange (a.funds.revenueClaimed who + a.claimable who)
  distributed : I128.InRange (a.funds.distributed + a.claimable who)

/-- A claim pays the undrawn share at least. -/
theorem Account.undrawn_le_claimable :
    a.due a.funds.pool who - a.funds.revenueClaimed who ≤ a.claimable who := by
  unfold Account.claimable
  dsimp only
  split
  next hsweep => exact Int.le_of_lt hsweep.2
  next => exact Int.le_refl _

theorem checkClaimants_of_lt {already : Int} {claimants contributors : Nat}
    (h : already = 0 → claimants + 1 < 2 ^ 32) :
    checkClaimants already claimants contributors = .ok () := by
  unfold checkClaimants
  split
  next hfirst =>
      rw [Word.checkedAdd_of_lt (h hfirst.1)]
      rfl
  next => rfl

theorem withDust_needs (amounts : a.Claimable who) : Needs
    (a.LastClaim who → FitsCreator a.funds.pool a.record.revenueSharePercentage) (.err .overflow)
    (withDust (a.LastClaim who) a.funds.pool a.funds.distributed
      (a.due a.funds.pool who - a.funds.revenueClaimed who) a.record.revenueSharePercentage) := by
  refine .when (fun _ => ?_) (.of_ok rfl)
  refine .last (creatorShareTotal_needs amounts.pool amounts.share) fun creator hcreator => ?_
  obtain rfl := creatorShareTotal_ok hcreator
  apply Gated.found (I128.checkedSub_eq_some.mpr ⟨rfl, amounts.remaining.1⟩)
  exact .found (I128.checkedSub_eq_some.mpr ⟨rfl, amounts.remaining.2⟩) (.of_ok rfl)

theorem countClaimant_of_lt {already : Int} {claimants : Nat}
    (h : already = 0 → claimants + 1 < 2 ^ 32) :
    ∃ s', countClaimant s c already claimants = .ok s' := by
  unfold countClaimant
  split
  next hfirst =>
      rw [Word.checkedAdd_of_lt (h hfirst)]
      exact ⟨_, rfl⟩
  next => exact ⟨s, rfl⟩

/-- Apart from an overflow only the payment can fail. -/
theorem claimRevenue_gated (ha : (view s).account c = some a)
    (claims : ContributorClaims env s a who) (amounts : a.Claimable who)
    (undrawn : a.funds.revenueClaimed who < a.due a.funds.pool who) :
    Gated (FitsShare (a.funds.contribution who) a.funds.pool a.record.revenueSharePercentage ∧
        (a.LastClaim who → FitsCreator a.funds.pool a.record.revenueSharePercentage))
      (.err .overflow) ((view s).Unpaid c (a.claimable who)) (claimRevenue env s c who) := by
  obtain ⟨hrecord, hfunds⟩ := View.account_eq_some.mp ha
  have hcontribution : s.contributions.contribution c who = a.funds.contribution who := by
    rw [contribution_view, hfunds]
  have hpool : s.revenue.revenuePool c = a.funds.pool := by rw [pool_view, hfunds]
  have hclaimed : s.revenue.revenueClaimed c who = a.funds.revenueClaimed who := by
    rw [revenueClaimed_view, hfunds]
  have hclaimants : s.revenue.contributorRevenueClaimants c = a.funds.claimants := by
    rw [claimants_view, hfunds]
  have hcontributors : s.contributions.contributorCount c = a.funds.contributors := by
    rw [contributors_view, hfunds]
  have hdistributed : s.revenue.contributorRevenueDistributed c = a.funds.distributed := by
    rw [distributed_view, hfunds]
  unfold claimRevenue
  rw [hcontribution, hpool, hclaimed, hclaimants, hcontributors, hdistributed]
  apply Gated.guard (requireAuth_eq_ok.mpr claims.signed)
  apply Gated.guard (requireNotPaused_eq_ok.mpr claims.unpaused)
  apply Gated.found hrecord
  apply Gated.check (by simp [claims.shares.notCancelled])
  apply Gated.check (by simp [claims.shares.sharing])
  apply Gated.check (by simp [claims.shares.withdrawn])
  apply Gated.check claims.contributed
  apply Gated.check (ne_of_gt amounts.effective)
  refine .bind (revenueDue_needs amounts.contribution amounts.pool amounts.effective)
    fun due hdue => ?_
  obtain rfl : due = a.due a.funds.pool who := revenueDue_ok hdue
  apply Gated.found (I128.checkedSub_eq_some.mpr ⟨rfl, amounts.undrawn⟩)
  have hshare := Int.sub_pos_of_lt undrawn
  apply Gated.check (Int.not_le.mpr hshare)
  apply Gated.guard (checkClaimants_of_lt amounts.claimants)
  refine .last (withDust_needs amounts) fun claimable hclaimable => ?_
  obtain rfl : claimable = a.claimable who := withDust_ok hclaimable
  have hpays := Int.lt_of_lt_of_le hshare Account.undrawn_le_claimable
  apply Gated.check (Int.not_le.mpr hpays)
  apply Gated.found (I128.checkedAdd_eq_some.mpr ⟨rfl, amounts.claimed⟩)
  apply Gated.found (I128.checkedAdd_eq_some.mpr ⟨rfl, amounts.distributed⟩)
  obtain ⟨s1, hs1⟩ := countClaimant_of_lt (c := c) (s := setContributorRevenueDistributed
    (setRevenueClaimed s c who (a.funds.revenueClaimed who + a.claimable who)) c
    (a.funds.distributed + a.claimable who)) amounts.claimants
  refine .pass hs1 (.always fun abort habort => ?_)
  have hunpaid := payment_unpaid (Int.le_of_lt hpays) habort
  have hview := countClaimant_view hs1
  refine hunpaid.congr (View.currency_congr ?_ ?_) ?_ <;> rw [hview]
  · simp
  · simp
  · simp

/-! ## Claims of the creator -/

theorem getCreatorCampaign_of (hrecord : (view s).campaign c = some a.record)
    (signed : env.auth a.record.creator = true) : getCreatorCampaign env s c = .ok a.record := by
  simp only [getCreatorCampaign, assertCreator, bind_eq_ok, pure_eq_ok, requireAuth_eq_ok]
  exact ⟨_, okOr_eq_ok.mpr hrecord, (), signed, rfl⟩

theorem claimCreatorRevenue_gated (ha : (view s).account c = some a)
    (claims : CreatorClaims env s a.record) (hpool : 0 ≤ a.funds.pool)
    (hshare : a.record.revenueSharePercentage ≤ bpsDenominator)
    (hclaimed : 0 ≤ a.funds.creatorClaimed)
    (undrawn : a.funds.creatorClaimed < a.creatorSide a.funds.pool) :
    Gated (FitsCreator a.funds.pool a.record.revenueSharePercentage) (.err .overflow)
      Abort.InPayment (claimCreatorRevenue env s c) := by
  obtain ⟨hrecord, hfunds⟩ := View.account_eq_some.mp ha
  have hpool' : s.revenue.revenuePool c = a.funds.pool := by rw [pool_view, hfunds]
  have hclaimed' : s.revenue.creatorRevenueClaimed c = a.funds.creatorClaimed := by
    rw [creatorClaimed_view, hfunds]
  unfold claimCreatorRevenue
  rw [hpool', hclaimed']
  apply Gated.pass (getCreatorCampaign_of hrecord claims.signed)
  apply Gated.guard (requireNotPaused_eq_ok.mpr claims.unpaused)
  apply Gated.check (by simp [claims.sharing])
  apply Gated.check (Nat.not_lt.mpr hshare)
  refine .last (creatorShareTotal_needs hpool hshare) fun share hside => ?_
  obtain rfl : share = a.creatorSide a.funds.pool := creatorShareTotal_ok hside
  have hin := creatorShareTotal_inRange hside
  have hrest : I128.InRange (a.creatorSide a.funds.pool - a.funds.creatorClaimed) :=
    hin.of_le (by omega) (by omega)
  apply Gated.found (I128.checkedSub_eq_some.mpr ⟨rfl, hrest⟩)
  apply Gated.check (Int.not_le.mpr (Int.sub_pos_of_lt undrawn))
  apply Gated.found (I128.checkedAdd_eq_some.mpr ⟨rfl, hin.of_le (by omega) (by omega)⟩)
  refine .always fun abort habort => ?_
  exact (payment_unpaid (Int.le_of_lt (Int.sub_pos_of_lt undrawn)) habort).inPayment

/-! ## The payout and the reserve -/

theorem ceilShare_needs {bps : Nat} (hamount : 0 ≤ amount) :
    Needs (I128.InRange (amount * bps + bpsCeilOffset)) (.err .overflow)
      (ceilShare amount bps) := by
  have hnonneg : 0 ≤ amount * bps := Int.mul_nonneg hamount (Int.natCast_nonneg _)
  have hoffset : (0 : Int) ≤ bpsCeilOffset := by decide
  refine Gated.congr (p := I128.InRange (amount * bps) ∧
    I128.InRange (amount * bps + bpsCeilOffset)) ?_ ?_
  · refine .bind I128.needs fun product hproduct => ?_
    obtain ⟨rfl, -⟩ := I128.checkedMul_eq_some.mp (okOr_eq_ok.mp hproduct)
    exact .last I128.needs fun numerator _ => .of_ok rfl
  · refine ⟨fun h => ⟨h.of_le hnonneg (by omega), h⟩, And.right⟩

theorem withholdReserve_needs {delayDays : Nat} (hdelay : delayDays * secondsPerDay < 2 ^ 64) :
    Needs (0 < amount → env.timestamp + delayDays * secondsPerDay < 2 ^ 64) (.err .overflow)
      (withholdReserve env s c delayDays amount) := by
  refine .when (fun _ => ?_) (.of_ok rfl)
  apply Gated.found (Word.checkedMul_eq_some.mpr ⟨rfl, hdelay⟩)
  exact .last Word.needs fun release _ => .of_ok rfl

theorem feeRecipientOf_inPayment {abort : Abort} (h : feeRecipientOf s c = .error abort) :
    abort.InPayment := by
  unfold feeRecipientOf at h
  split at h
  next => cases h
  next => exact getAdmin_inPayment h

/-- What `withdraw_funds` checks before it computes. -/
structure CreatorWithdraws (env : Env) (s : State) (a : Account) : Prop where
  signed : env.auth a.record.creator = true
  unpaused : s.admin.paused = false ∧ s.admin.autoPaused = false
  noPlan : a.funds.milestones = []
  payable : a.Payable

/-- The reserve can be computed and dated, and the counter lowered. -/
def FitsPayout (now : Nat) (v : View) (a : Account) : Prop :=
  I128.InRange ((a.record.effectiveAmountRaised - (v.split a).fee) * (v.vesting a).2 +
      bpsCeilOffset) ∧
    (0 < (v.split a).reserve → now + (v.vesting a).1 * secondsPerDay < 2 ^ 64) ∧
    I128.InRange (v.totalRaised - (a.record.effectiveAmountRaised - (v.split a).reserve))

/-- The bounds of the parts of a payout. -/
structure View.Payout (v : View) (a : Account) : Prop where
  raised : 0 ≤ a.record.effectiveAmountRaised ∧ I128.InRange a.record.effectiveAmountRaised
  feeBps : v.effectiveFee a.record ≤ platformFeeMaxBps
  fee : I128.InRange (a.record.effectiveAmountRaised * v.effectiveFee a.record + bpsCeilOffset)
  reserveBps : (v.vesting a).2 ≤ bpsDenominator
  delay : (v.vesting a).1 * secondsPerDay < 2 ^ 64

theorem withdrawFunds_gated (ha : (view s).account c = some a) (checks : CreatorWithdraws env s a)
    (payout : (view s).Payout a) :
    Gated (FitsPayout env.timestamp (view s) a) (.err .overflow) Abort.InPayment
      (withdrawFunds env s c) := by
  obtain ⟨hrecord, hfunds⟩ := View.account_eq_some.mp ha
  have hmilestones := (account_plan ha).1
  have hvesting : vestingOf s c = (view s).vesting a := by
    rw [@vestingOf_view s c a.record, hfunds]
  obtain ⟨verified, notCancelled, notWithdrawn, raised, goalMet⟩ := checks.payable
  unfold withdrawFunds
  rw [hmilestones, hvesting]
  apply Gated.pass (getCreatorCampaign_of hrecord checks.signed)
  apply Gated.guard (requireNotPaused_eq_ok.mpr checks.unpaused)
  apply Gated.check (by simp [checks.noPlan])
  apply Gated.check (by simp [verified])
  apply Gated.check (by simp [notCancelled])
  apply Gated.check (by simp [notWithdrawn])
  apply Gated.check raised
  apply Gated.check (Int.not_lt.mpr goalMet)
  refine .guard (rejectIf_eq_ok.mpr ?_) ?_
  · simp [CampaignState.of, verified, notCancelled, notWithdrawn, transitionAllowed]
  obtain ⟨hnonneg, hraised⟩ := payout.raised
  obtain ⟨hfee, hnet⟩ := ceilBps_bounds hnonneg payout.feeBps
  obtain ⟨fee, hfeeShare⟩ := (ceilShare_needs hnonneg).goes payout.fee
  obtain rfl := ceilShare_ok hfeeShare
  refine .pass hfeeShare (.found (I128.checkedSub_eq_some.mpr ⟨rfl, ?_⟩) ?_)
  · exact hraised.of_le hnet (by omega)
  refine .bind (x := ceilShare _ ((view s).vesting a).2) (ceilShare_needs hnet)
    fun reserve hreserve => ?_
  obtain rfl := ceilShare_ok hreserve
  obtain ⟨hwithheld, hrest⟩ := ceilBps_within hnet payout.reserveBps
  apply Gated.found (I128.checkedSub_eq_some.mpr ⟨rfl, hraised.of_le hrest (by omega)⟩)
  refine .bind (withholdReserve_needs payout.delay) fun s1 hs1 => ?_
  apply Gated.found (I128.checkedSub_eq_some.mpr ⟨rfl, hraised.of_le (by omega) (by omega)⟩)
  have htotal : s1.contributions.totalRaised = (view s).totalRaised := by
    rw [totalRaised_view, withholdReserve_view (a := a.close) (by simp [Account.close, hfunds]) hs1]
    simp
  rw [htotal]
  refine .last I128.needs fun total _ => ?_
  refine .through (fun _ => feeRecipientOf_inPayment) fun recipient => ?_
  refine .through (fun _ => getCampaignToken_inPayment) fun token => ?_
  refine .through (fun _ => transfer_inPayment) fun s2 => ?_
  exact .always fun _ => transfer_inPayment

/-- What `withdraw_reserve` checks. -/
structure ReserveDue (env : Env) (s : State) (a : Account) (reserve : CampaignReserve) :
    Prop where
  signed : env.auth a.record.creator = true
  unpaused : s.admin.paused = false ∧ s.admin.autoPaused = false
  held : a.funds.reserve = some reserve
  unreleased : reserve.released = false
  due : reserve.releaseTimestamp ≤ env.timestamp
  withdrawn : a.record.fundsWithdrawn = true

theorem withdrawReserve_gated {reserve : CampaignReserve} (ha : (view s).account c = some a)
    (checks : ReserveDue env s a reserve) :
    Gated (I128.InRange ((view s).totalRaised - reserve.amount)) (.err .overflow) Abort.InPayment
      (withdrawReserve env s c) := by
  obtain ⟨hrecord, hfunds⟩ := View.account_eq_some.mp ha
  have hreserve : s.campaigns.campaignReserve c = some reserve := by
    rw [reserve_view, hfunds, checks.held]
  unfold withdrawReserve
  apply Gated.found hreserve
  apply Gated.guard (requireNotPaused_eq_ok.mpr checks.unpaused)
  apply Gated.check (by simp [checks.unreleased])
  apply Gated.check (Nat.not_lt.mpr checks.due)
  apply Gated.found hrecord
  apply Gated.check (by simp [checks.withdrawn])
  apply Gated.guard (requireAuth_eq_ok.mpr checks.signed)
  refine .last I128.needs fun total _ => ?_
  refine .through (fun _ => getCampaignToken_inPayment) fun token => ?_
  exact .always fun _ => transfer_inPayment

/-! ## Refunds -/

/-- What `claim_refund` checks. -/
structure RefundDue (env : Env) (s : State) (a : Account) (who : Address) : Prop where
  signed : env.auth who = true
  unpaused : s.admin.paused = false ∧ s.admin.autoPaused = false
  refundable : a.Refundable env.timestamp
  contributed : a.funds.contribution who ≠ 0

theorem deductRefund_needs {campaign : Campaign} {cancelled : Bool} {raised : Int}
    (hcancelled : campaign.isCancelled = cancelled)
    (hraised : s.contributions.totalRaised = raised) :
    Needs (cancelled = false → I128.InRange (raised - amount)) (.err .overflow)
      (deductRefund s campaign amount) := by
  subst hcancelled hraised
  unfold deductRefund
  split
  next h => exact Gated.congr (.of_ok rfl) (iff_true_intro fun hlive => by simp [hlive] at h)
  next h =>
      refine Gated.congr (.last I128.needs fun total _ => .of_ok rfl)
        ⟨fun hfits => ?_, fun h _ => h⟩
      exact hfits (Bool.eq_false_of_not_eq_true h)

theorem claimRefund_gated (ha : (view s).account c = some a) (checks : RefundDue env s a who)
    (hamount : 0 ≤ a.funds.contribution who)
    (hrest : I128.InRange (a.record.effectiveAmountRaised - a.funds.contribution who)) :
    Gated (a.record.isCancelled = false →
        I128.InRange ((view s).totalRaised - a.funds.contribution who))
      (.err .overflow) ((view s).Unpaid c (a.funds.contribution who))
      (claimRefund env s c who) := by
  obtain ⟨hrecord, hfunds⟩ := View.account_eq_some.mp ha
  have hcontribution : s.contributions.contribution c who = a.funds.contribution who := by
    rw [contribution_view, hfunds]
  unfold claimRefund
  rw [hcontribution]
  apply Gated.guard (requireAuth_eq_ok.mpr checks.signed)
  apply Gated.guard (requireNotPaused_eq_ok.mpr checks.unpaused)
  apply Gated.found hrecord
  refine .check (not_not.mpr checks.refundable) ?_
  apply Gated.check checks.contributed
  apply Gated.found (I128.checkedSub_eq_some.mpr ⟨rfl, hrest⟩)
  refine .last (deductRefund_needs rfl ?_) fun s1 hs1 => .always fun abort habort => ?_
  · rw [totalRaised_view]
    simp [removeContribution, removeRevenueClaimed]
  have hview := deductRefund_view hs1
  refine (payment_unpaid hamount habort).congr (View.currency_congr ?_ ?_) ?_
  all_goals
    rw [hview]
    simp [removeContribution, removeRevenueClaimed]

/-! ## Milestones -/

section Slices

variable {milestones : List Milestone} {claimed : Nat → Bool} {bps : Nat} {net fee : Int}

theorem floorShare_needs :
    Needs (I128.InRange (amount * bps)) (.err .overflow) (floorShare amount bps) :=
  .last I128.needs fun _ _ => .of_ok rfl

theorem floorBps_nonneg (hamount : 0 ≤ amount) : 0 ≤ floorBps amount bps :=
  Int.tdiv_nonneg (Int.mul_nonneg hamount (Int.natCast_nonneg _)) (by decide)

/-- The sum of a loop over the milestones stays in range to its end. -/
def SumFits (amount : Int) (claimed : Nat → Bool) (sum : Int) (rest : List Milestone) : Prop :=
  0 ≤ sum ∧ I128.InRange (sum + slicesOf amount (claimedOf rest claimed))

theorem SumFits.taken {milestone : Milestone} {rest : List Milestone} {sum : Int}
    (h : SumFits amount claimed sum (milestone :: rest)) (hamount : 0 ≤ amount)
    (hclaimed : claimed milestone.id = true) :
    I128.InRange (sum + floorBps amount milestone.payoutBps) ∧
      SumFits amount claimed (sum + floorBps amount milestone.payoutBps) rest := by
  obtain ⟨hsum, hin⟩ := h
  have hfloor : 0 ≤ floorBps amount milestone.payoutBps := floorBps_nonneg hamount
  have hslices := slicesOf_nonneg hamount (claimedOf rest claimed)
  rw [claimedOf_taken hclaimed, slicesOf_cons, ← Int.add_assoc] at hin
  exact ⟨hin.of_le (by omega) (by omega), by omega, hin⟩

theorem SumFits.skipped {milestone : Milestone} {rest : List Milestone} {sum : Int}
    (h : SumFits amount claimed sum (milestone :: rest))
    (hclaimed : ¬ claimed milestone.id = true) : SumFits amount claimed sum rest := by
  rwa [SumFits, claimedOf_skipped hclaimed] at h

theorem SumFits.start (hamount : 0 ≤ amount) (hin : I128.InRange amount)
    (hbps : bpsOf (claimedOf milestones claimed) ≤ bpsDenominator) :
    SumFits amount claimed 0 milestones := by
  have hslices := slicesOf_le hamount hbps
  refine ⟨Int.le_refl 0, ?_⟩
  rw [Int.zero_add]
  exact hin.of_le (slicesOf_nonneg hamount _) hslices

/-- The loop over the claimed milestones needs the product of each. -/
theorem addClaimed_needs (hamount : 0 ≤ amount) (hin : I128.InRange amount)
    (hbps : bpsOf (claimedOf milestones claimed) ≤ bpsDenominator) :
    Needs (∀ m ∈ milestones, claimed m.id = true → I128.InRange (amount * m.payoutBps))
      (.err .overflow) (each (addClaimed claimed amount) (0, 0) milestones) := by
  refine Needs.each (I := fun sums rest =>
      sums.1 + bpsOf (claimedOf rest claimed) ≤ bpsDenominator ∧
        SumFits amount claimed sums.2 rest) ?_ ?_ milestones (0, 0)
    ⟨by rwa [Nat.zero_add], .start hamount hin hbps⟩
  · rintro sums milestone rest ⟨hsum, hfit⟩
    refine .when (fun hclaimed => ?_) (.of_ok rfl)
    rw [claimedOf_taken hclaimed, bpsOf_cons] at hsum
    have hword : bpsDenominator < 2 ^ 32 := by decide
    apply Gated.found (Word.checkedAdd_of_lt (by omega))
    refine .last floorShare_needs fun slice hslice => ?_
    obtain rfl := floorShare_ok hslice
    exact .found (I128.checkedAdd_eq_some.mpr ⟨rfl, (hfit.taken hamount hclaimed).1⟩) (.of_ok rfl)
  · rintro sums milestone rest sums' ⟨hsum, hfit⟩ hstep
    rw [addClaimed_step hstep]
    split
    next hclaimed =>
        rw [claimedOf_taken hclaimed, bpsOf_cons, ← Nat.add_assoc] at hsum
        exact ⟨hsum, (hfit.taken hamount hclaimed).2⟩
    next hunclaimed =>
        rw [claimedOf_skipped hunclaimed] at hsum
        exact ⟨hsum, hfit.skipped hunclaimed⟩

theorem addClaimedFee_needs (hamount : 0 ≤ amount) (hin : I128.InRange amount)
    (hbps : bpsOf (claimedOf milestones claimed) ≤ bpsDenominator) :
    Needs (∀ m ∈ milestones, claimed m.id = true → I128.InRange (amount * m.payoutBps))
      (.err .overflow) (each (addClaimedFee claimed amount) 0 milestones) := by
  refine Needs.each (I := SumFits amount claimed) ?_ ?_ milestones 0 (.start hamount hin hbps)
  · intro sum milestone rest hfit
    refine .when (fun hclaimed => ?_) (.of_ok rfl)
    refine .last floorShare_needs fun slice hslice => ?_
    obtain rfl := floorShare_ok hslice
    exact .of_ok (okOr_eq_ok.mpr
      (I128.checkedAdd_eq_some.mpr ⟨rfl, (hfit.taken hamount hclaimed).1⟩))
  · intro sum milestone rest sum' hfit hstep
    rw [addClaimedFee_step hstep]
    split
    next hclaimed => exact (hfit.taken hamount hclaimed).2
    next hunclaimed => exact hfit.skipped hunclaimed

theorem PlanShape.bps_le {milestone : Milestone} (shape : PlanShape milestones)
    (mem : milestone ∈ milestones) : milestone.payoutBps ≤ bpsDenominator := by
  rw [← shape.whole]
  exact List.le_sum_of_mem (List.mem_map_of_mem mem)

theorem PlanShape.find {milestone : Milestone} (shape : PlanShape milestones)
    (mem : milestone ∈ milestones) :
    (milestones.find? fun m => m.id = milestone.id) = some milestone := by
  have hsome : (milestones.find? fun m => m.id = milestone.id).isSome :=
    List.find?_isSome.mpr ⟨milestone, mem, by simp⟩
  obtain ⟨other, hfind⟩ := Option.isSome_iff_exists.mp hsome
  have hid : other.id = milestone.id := by simpa using List.find?_some hfind
  rw [hfind, List.inj_on_of_nodup_map shape.distinct (List.mem_of_find?_eq_some hfind) mem hid]

/-- The payout needs the products of the net amount; those of the fee are small. -/
theorem milestonePayout_needs {milestone : Milestone} (hnet : 0 ≤ net) (hin : I128.InRange net)
    (hfee : 0 ≤ fee) (hsmall : fee * bpsDenominator ≤ I128.maxValue) (shape : PlanShape milestones)
    (mem : milestone ∈ milestones) :
    Needs ((∀ m ∈ milestones, claimed m.id = true → I128.InRange (net * m.payoutBps)) ∧
        I128.InRange (net * milestone.payoutBps))
      (.err .overflow) (milestonePayout milestones claimed milestone fee net) := by
  have hbps : bpsOf (claimedOf milestones claimed) ≤ bpsDenominator := bpsOf_claimed_le shape
  have hfees : ∀ m ∈ milestones, I128.InRange (fee * m.payoutBps) := by
    intro m hm
    have hle : (m.payoutBps : Int) ≤ bpsDenominator := Int.ofNat_le.mpr (shape.bps_le hm)
    exact (I128.InRange.of_nonneg (Int.mul_nonneg hfee (Int.natCast_nonneg _))).mpr
      (Int.le_trans (Int.mul_le_mul_of_nonneg_left hle hfee) hsmall)
  have hle : fee ≤ fee * bpsDenominator := le_mul_of_one_le_right hfee (by decide)
  have hin' : I128.InRange fee :=
    (I128.InRange.of_nonneg hfee).mpr (Int.le_trans hle hsmall)
  obtain ⟨feeSlice, hfeeSlice⟩ := floorShare_needs.goes (hfees milestone mem)
  obtain ⟨feeClaimed, hfeeClaimed⟩ :=
    (addClaimedFee_needs hfee hin' hbps).goes fun m hm _ => hfees m hm
  have hslices := slicesOf_le hnet hbps
  have hslicesNonneg := slicesOf_nonneg hnet (claimedOf milestones claimed)
  have hfeeSlices := slicesOf_le hfee hbps
  have hfeeNonneg := slicesOf_nonneg hfee (claimedOf milestones claimed)
  refine .bind (addClaimed_needs hnet hin hbps) fun sums hsums => ?_
  obtain rfl := addClaimed_ok hsums
  refine .last floorShare_needs fun slice _ => ?_
  apply Gated.found (Word.checkedSub_eq_some.mpr ⟨rfl, by rwa [Nat.zero_add]⟩)
  split
  next hlast =>
      apply Gated.found (I128.checkedSub_eq_some.mpr ⟨rfl, hin.of_le (by omega) (by omega)⟩)
      refine .pass hfeeSlice (.pass hfeeClaimed ?_)
      obtain rfl := addClaimedFee_ok hfeeClaimed
      exact .found (I128.checkedSub_eq_some.mpr ⟨rfl, hin'.of_le (by omega) (by omega)⟩)
        (.of_ok rfl)
  next => exact .pass hfeeSlice (.of_ok rfl)

end Slices

theorem payMilestoneFee_inPayment {abort : Abort}
    (h : payMilestoneFee s token who amount = .error abort) : abort.InPayment := by
  unfold payMilestoneFee at h
  split at h
  next => exact transfer_inPayment h
  next => cases h

/-- The parties and the currency of the payments are known, and their amounts are held. -/
def View.Affords (v : View) (c : Nat) (creator : Address) (pays : List MilestonePay) : Prop :=
  ∃ token admin, v.currency c = some token ∧ v.admin.admin = some admin ∧
    v.tokens.Covers (pays.flatMap (claimTransfers token admin creator))

theorem View.affords_congr {v v' : View} {creator : Address} {pays : List MilestonePay}
    (hcurrency : v'.currency c = v.currency c) (hadmin : v'.admin = v.admin)
    (hbalance : v'.tokens.balance = v.tokens.balance) :
    v'.Affords c creator pays ↔ v.Affords c creator pays := by
  simp only [Affords, hcurrency, hadmin, Tokens.covers_congr hbalance]

theorem View.Affords.head {v : View} {creator : Address} {pay : MilestonePay}
    {pays : List MilestonePay} (h : v.Affords c creator (pay :: pays)) :
    v.Affords c creator [pay] := by
  obtain ⟨token, admin, currency, hadmin, hcovers⟩ := h
  rw [List.flatMap_cons, Tokens.covers_append] at hcovers
  refine ⟨token, admin, currency, hadmin, ?_⟩
  rw [List.flatMap_singleton]
  exact hcovers.1

/-- A claim that comes to the payment fails only for want of tokens. -/
theorem claimPayment_failed {creator : Address} {fee : Int} {abort : Abort} (hamount : 0 ≤ amount)
    (h : (getAdmin s >>= fun admin => getCampaignToken s c >>= fun token =>
      payMilestoneFee s token admin fee >>= fun s =>
        transfer s token contractAddress creator amount) = .error abort) :
    abort.InPayment ∧ ¬ (view s).Affords c creator [⟨amount, fee⟩] := by
  constructor
  · rcases bind_eq_error.mp h with hadmin | ⟨admin, -, h⟩
    · exact getAdmin_inPayment hadmin
    rcases bind_eq_error.mp h with htoken | ⟨token, -, h⟩
    · exact getCampaignToken_inPayment htoken
    rcases bind_eq_error.mp h with hfee | ⟨s1, -, h⟩
    · exact payMilestoneFee_inPayment hfee
    · exact transfer_inPayment h
  · rintro ⟨token, admin, hcurrency, hadmin, hcovers⟩
    rw [List.flatMap_singleton] at hcovers
    obtain ⟨s', hpaid⟩ := (claimPayment_iff hamount).mpr hcovers
    have hgoes : getAdmin s = .ok admin := okOr_eq_ok.mpr hadmin
    rw [hgoes, (getCampaignToken_eq_ok s).mpr hcurrency] at h
    cases hpaid.symm.trans h

/-- What `claim_milestone` checks before it computes. -/
structure MilestoneDue (env : Env) (s : State) (a : Account) (milestone : Milestone) : Prop where
  signed : env.auth a.record.creator = true
  unpaused : s.admin.paused = false ∧ s.admin.autoPaused = false
  payable : a.Payable
  mem : milestone ∈ a.funds.milestones
  verified : milestone.verified = true
  unclaimed : a.funds.claimed milestone.id = false

/-- The slices of the net amount can be computed, and the counter lowered. -/
def FitsMilestone (v : View) (a : Account) (milestone : Milestone) : Prop :=
  ((∀ m ∈ a.funds.milestones, a.funds.claimed m.id = true → I128.InRange
        ((a.record.amountRaised - ceilBps a.record.amountRaised (v.effectiveFee a.record)) *
          m.payoutBps)) ∧
      I128.InRange
        ((a.record.amountRaised - ceilBps a.record.amountRaised (v.effectiveFee a.record)) *
          milestone.payoutBps)) ∧
    I128.InRange
      (v.totalRaised - ((v.milestonePay a milestone).fee + (v.milestonePay a milestone).creator))

theorem claimMilestone_gated {milestone : Milestone} (ha : (view s).account c = some a)
    (checks : MilestoneDue env s a milestone) (shape : PlanShape a.funds.milestones)
    (hraised : 0 ≤ a.record.amountRaised) (hin : I128.InRange a.record.amountRaised)
    (hfeeBps : (view s).effectiveFee a.record ≤ platformFeeMaxBps)
    (hfee : I128.InRange (a.record.amountRaised * (view s).effectiveFee a.record + bpsCeilOffset))
    (hsmall : ceilBps a.record.amountRaised ((view s).effectiveFee a.record) * bpsDenominator ≤
      I128.maxValue) (pos : 0 < ((view s).milestonePay a milestone).creator)
    (hpays : I128.InRange (((view s).milestonePay a milestone).fee +
      ((view s).milestonePay a milestone).creator)) :
    Gated (FitsMilestone (view s) a milestone) (.err .overflow) (fun abort => abort.InPayment ∧
        ¬ (view s).Affords c a.record.creator [(view s).milestonePay a milestone])
      (claimMilestone env s c milestone.id) := by
  obtain ⟨hrecord, hfunds⟩ := View.account_eq_some.mp ha
  obtain ⟨hmilestones, hclaimed⟩ := account_plan ha
  obtain ⟨verified, notCancelled, notWithdrawn, raised, goalMet⟩ := checks.payable
  obtain ⟨hfeeNonneg, hnet⟩ := ceilBps_bounds hraised hfeeBps
  unfold claimMilestone
  rw [hmilestones, hclaimed]
  apply Gated.found hrecord
  apply Gated.guard (requireAuth_eq_ok.mpr checks.signed)
  apply Gated.guard (requireNotPaused_eq_ok.mpr checks.unpaused)
  apply Gated.check (by simp [notCancelled])
  apply Gated.check (by simp [verified])
  apply Gated.check (by simp [notWithdrawn])
  apply Gated.check raised
  apply Gated.check (Int.not_lt.mpr goalMet)
  apply Gated.check (List.ne_nil_of_mem checks.mem)
  apply Gated.found (shape.find checks.mem)
  apply Gated.check (by simp [checks.verified])
  apply Gated.check (by simp [checks.unclaimed])
  obtain ⟨feeTotal, hfeeTotal⟩ := (ceilShare_needs hraised).goes hfee
  obtain rfl := ceilShare_ok hfeeTotal
  apply Gated.pass hfeeTotal
  apply Gated.found (I128.checkedSub_eq_some.mpr ⟨rfl, hin.of_le hnet (by omega)⟩)
  refine .bind (milestonePayout_needs hnet (hin.of_le hnet (by omega)) hfeeNonneg hsmall shape
    checks.mem) fun payout hpayout => ?_
  obtain ⟨-, rfl⟩ := milestonePayout_ok hpayout
  apply Gated.check (Int.not_le.mpr pos)
  apply Gated.found (I128.checkedAdd_eq_some.mpr ⟨rfl, hpays⟩)
  refine .last I128.needs fun total _ => .always fun abort habort => ?_
  dsimp only at habort
  generalize hs2 : closeWhenDone _ c a.record _ = s2 at habort
  have hclosed := closeWhenDone_view hs2 (by simpa using hrecord)
  obtain ⟨hin, hshort⟩ := claimPayment_failed (Int.le_of_lt pos) habort
  refine ⟨hin, fun hafford => hshort ((View.affords_congr ?_ ?_ ?_).mpr hafford)⟩
  · exact View.currency_congr (by rw [hclosed]; simp) (by rw [hclosed]; simp)
  · rw [hclosed]
    simp
  · rw [hclosed]
    simp

end ProofOfHeart
