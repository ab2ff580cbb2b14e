import ProofOfHeart.Account.Effect

/-! # Contributions and refunds as effects on accounts -/

namespace ProofOfHeart

open Checked Function

variable {env : Env} {s s' : State} {c : Nat} {who : Address} {amount : Int}

theorem checkBurstGuard_view {campaign : Campaign}
    (h : checkBurstGuard env s c campaign amount = .ok s') : view s' = view s := by
  simp only [checkBurstGuard, bind_eq_ok] at h
  obtain ⟨_, -, _, -, _, -, _, -, _, -, h⟩ := h
  split at h
  next => rw [pure_eq_ok.mp h]
  next =>
      simp only [bind_eq_ok, pure_eq_ok] at h
      obtain ⟨_, -, _, -, rfl⟩ := h
      rfl

theorem snapshotFeeRecipient_view {campaign : Campaign}
    (h : snapshotFeeRecipient s c campaign = .ok s') :
    view s' = { view s with
      funds := update (view s).funds c { (view s).funds c with
        feeRecipient := if campaign.amountRaised = 0 then (view s).admin.admin
          else ((view s).funds c).feeRecipient } } := by
  unfold snapshotFeeRecipient at h
  split at h
  next hzero =>
      simp only [getAdmin, bind_eq_ok, okOr_eq_ok, pure_eq_ok, admin_view] at h
      obtain ⟨admin, hadmin, rfl⟩ := h
      rw [view_setCampaignFeeRecipient, if_pos hzero, hadmin]
  next hzero =>
      rw [← pure_eq_ok.mp h, if_neg hzero, update_eq_self]

theorem countContributor_view {lifetime : Int} (h : countContributor s c lifetime = .ok s') :
    view s' = { view s with
      funds := update (view s).funds c { (view s).funds c with
        contributors := ((view s).funds c).contributors + (if lifetime = 0 then 1 else 0) } } := by
  unfold countContributor at h
  split at h
  next hzero =>
      obtain ⟨-, rfl⟩ := (incrementContributorCount_eq_ok s c).mp h
      rw [view_setContributorCount, if_pos hzero]
  next hzero =>
      rw [← pure_eq_ok.mp h, if_neg hzero, Nat.add_zero, update_eq_self]

theorem updateContributionAccounting_view {campaign : Campaign} {current lifetime : Int}
    (h : updateContributionAccounting s c who campaign current lifetime amount = .ok s') :
    view s' = { view s with
      campaign := update (view s).campaign c (some { campaign with
        amountRaised := campaign.amountRaised + amount
        effectiveAmountRaised := campaign.effectiveAmountRaised + amount })
      funds := update (view s).funds c { (view s).funds c with
        contribution := update ((view s).funds c).contribution who (current + amount)
        lifetime := update ((view s).funds c).lifetime who (lifetime + amount)
        contributors := ((view s).funds c).contributors + (if lifetime = 0 then 1 else 0)
        feeRecipient := if campaign.amountRaised = 0 then (view s).admin.admin
          else ((view s).funds c).feeRecipient }
      totalRaised := (view s).totalRaised + amount } := by
  simp only [updateContributionAccounting, bind_eq_ok, okOr_eq_ok, I128.checkedAdd_eq_some,
    pure_eq_ok, totalRaised_view] at h
  obtain ⟨s1, hs1, _, ⟨rfl, -⟩, _, ⟨rfl, -⟩, _, ⟨rfl, -⟩, _, ⟨rfl, -⟩, s2, hs2, _, ⟨rfl, -⟩,
    rfl⟩ := h
  simp [countContributor_view hs2, snapshotFeeRecipient_view hs1]

theorem acceptContribution_spec (h : acceptContribution env s c who amount = .ok s') :
    ∃ a, (view s).account c = some a ∧ a.Accepts env.timestamp who ∧ 0 < amount ∧
      view s' = { (view s).setAccount c (a.contribute (view s).admin.admin who amount) with
        totalRaised := (view s).totalRaised + amount } := by
  simp only [acceptContribution, getCampaignOrError, requireActiveCampaign, bind_eq_ok,
    rejectIf_eq_ok, okOr_eq_ok, campaign_view] at h
  obtain ⟨_, hpos, campaign, hcampaign, _, hverified, _, hactive, _, hcreator, _, htime, _, -,
    _, -, _, -, s1, hs1, h⟩ := h
  refine ⟨⟨campaign, (view s).funds c⟩, View.account_of_campaign hcampaign,
    ⟨by simpa using hverified, ?_, ?_, hcreator, Nat.le_of_not_lt htime⟩, by omega, ?_⟩
  · simp only [not_or, Bool.not_eq_true] at hactive
    simpa using hactive.2
  · simp only [not_or, Bool.not_eq_true] at hactive
    exact hactive.1
  · rw [updateContributionAccounting_view h, checkBurstGuard_view hs1]
    rfl

theorem updateTopContributor_view {newTotal : Int} :
    view (updateTopContributor s c who newTotal) = view s := by
  unfold updateTopContributor
  split
  next => split <;> rfl
  next => rfl

theorem contribute_spec (h : contribute env s c who amount = .ok s') :
    ∃ a token, (view s).account c = some a ∧ a.Accepts env.timestamp who ∧ 0 < amount ∧
      (view s).currency c = some token ∧
      view s' = { (view s).setAccount c (a.contribute (view s).admin.admin who amount) with
        totalRaised := (view s).totalRaised + amount
        tokens := (view s).tokens.move ⟨token, who, contractAddress, amount⟩ } := by
  simp only [contribute, bind_eq_ok, okOr_eq_ok, I128.checkedAdd_eq_some,
    getCampaignToken_eq_ok] at h
  obtain ⟨_, -, _, -, s1, hs1, _, ⟨rfl, -⟩, token, htoken, h⟩ := h
  obtain ⟨a, ha, haccepts, hpos, hview⟩ := acceptContribution_spec hs1
  obtain ⟨-, -, hs'⟩ := transfer_view _ h
  rw [view_setLastContributionTime, updateTopContributor_view, hview] at htoken hs'
  refine ⟨a, token, ha, haccepts, hpos, ?_, hs'⟩
  rw [← htoken]
  refine (View.currency_congr ?_ ?_).symm
  · simp [View.setAccount, Account.contribute, (View.account_eq_some.mp ha).2]
  · rfl

/-! ## Batches -/

/-- The amounts a batch holds for one campaign, in order. -/
def amountsTo (c : Nat) (items : List (Nat × Int)) : List Int :=
  (items.filter fun item => item.1 = c).map Prod.snd

/-- One campaign's part of a batch, item by item. -/
def Account.contributeAll (a : Account) (admin : Option Address) (who : Address)
    (amounts : List Int) : Account :=
  amounts.foldl (fun a amount => a.contribute admin who amount) a

/-- A row of contributions adds to the two totals and touches four entries. -/
theorem Account.contributeAll_eq (a : Account) (admin : Option Address) (who : Address)
    (amounts : List Int) :
    ∃ contribution lifetime contributors feeRecipient, a.contributeAll admin who amounts =
      ⟨{ a.record with
          amountRaised := a.record.amountRaised + amounts.sum
          effectiveAmountRaised := a.record.effectiveAmountRaised + amounts.sum },
        { a.funds with
          contribution := contribution
          lifetime := lifetime
          contributors := contributors
          feeRecipient := feeRecipient }⟩ := by
  induction amounts generalizing a with
  | nil =>
      refine ⟨a.funds.contribution, a.funds.lifetime, a.funds.contributors,
        a.funds.feeRecipient, ?_⟩
      simp [Account.contributeAll]
  | cons amount rest ih =>
      obtain ⟨contribution, lifetime, contributors, feeRecipient, heq⟩ :=
        ih (a.contribute admin who amount)
      refine ⟨contribution, lifetime, contributors, feeRecipient, heq.trans ?_⟩
      simp [Account.contribute, Int.add_assoc]

theorem Account.contributeAll_record {a : Account} {admin : Option Address} {who : Address}
    {amounts : List Int} :
    (a.contributeAll admin who amounts).record = { a.record with
      amountRaised := a.record.amountRaised + amounts.sum
      effectiveAmountRaised := a.record.effectiveAmountRaised + amounts.sum } := by
  obtain ⟨_, _, _, _, heq⟩ := a.contributeAll_eq admin who amounts
  rw [heq]

/-- What a batch of items has done to the view. -/
structure Batched (now : Nat) (who : Address) (items : List (Nat × Int)) (v v' : View) :
    Prop where
  account : ∀ c, v'.account c =
    (v.account c).map fun a => a.contributeAll v.admin.admin who (amountsTo c items)
  funds : ∀ c, v.campaign c = none → v'.funds c = v.funds c
  totalRaised : v'.totalRaised = v.totalRaised + (items.map Prod.snd).sum
  admin : v'.admin = v.admin
  campaignCount : v'.campaignCount = v.campaignCount
  activeCount : v'.activeCount = v.activeCount
  creators : v'.creators = v.creators
  tokens : v'.tokens = v.tokens
  accepted : ∀ item ∈ items, 0 < item.2 ∧
    ∃ a, v.account item.1 = some a ∧ a.Accepts now who

theorem Batched.nil {now : Nat} {v : View} : Batched now who [] v v where
  account c := by simp [amountsTo, Account.contributeAll]
  funds _ _ := rfl
  totalRaised := by simp
  admin := rfl
  campaignCount := rfl
  activeCount := rfl
  creators := rfl
  tokens := rfl
  accepted := by simp

theorem Account.contribute_accepts {a : Account} {now : Nat} {admin : Option Address}
    {other : Address} :
    (a.contribute admin who amount).Accepts now other ↔ a.Accepts now other :=
  ⟨fun h => ⟨h.1, h.2, h.3, h.4, h.5⟩, fun h => ⟨h.1, h.2, h.3, h.4, h.5⟩⟩

theorem Batched.cons {now : Nat} {v v' : View} {rest : List (Nat × Int)} {a : Account}
    (ha : v.account c = some a) (haccepts : a.Accepts now who) (hpos : 0 < amount)
    (h : Batched now who rest { v.setAccount c (a.contribute v.admin.admin who amount) with
      totalRaised := v.totalRaised + amount } v') :
    Batched now who ((c, amount) :: rest) v v' where
  account other := by
    have hmid : ({ v.setAccount c (a.contribute v.admin.admin who amount) with
        totalRaised := v.totalRaised + amount } : View).account other =
        (v.setAccount c (a.contribute v.admin.admin who amount)).account other := rfl
    rw [h.account other, hmid]
    by_cases hc : other = c
    · rw [hc, View.setAccount_account_self]
      simp [ha, amountsTo, Account.contributeAll, View.setAccount]
    · have hne : c ≠ other := Ne.symm hc
      rw [View.setAccount_account_of_ne hc]
      simp [amountsTo, hne, View.setAccount]
  funds other hnone := by
    have hc : other ≠ c := by
      rintro rfl
      rw [(View.account_eq_some.mp ha).1] at hnone
      cases hnone
    rw [h.funds other (by simpa [View.setAccount, hc] using hnone)]
    simp [View.setAccount, hc]
  totalRaised := by
    rw [h.totalRaised, List.map_cons, List.sum_cons]
    exact Int.add_assoc ..
  admin := h.admin
  campaignCount := h.campaignCount
  activeCount := h.activeCount
  creators := h.creators
  tokens := h.tokens
  accepted := by
    intro item hitem
    rcases List.mem_cons.mp hitem with rfl | hitem
    · exact ⟨hpos, a, ha, haccepts⟩
    · obtain ⟨hitempos, b, hb, hbaccepts⟩ := h.accepted item hitem
      refine ⟨hitempos, ?_⟩
      by_cases hc : item.1 = c
      · refine ⟨a, hc ▸ ha, ?_⟩
        have hsame : b = a.contribute v.admin.admin who amount := by
          have hself : ({ v.setAccount c (a.contribute v.admin.admin who amount) with
              totalRaised := v.totalRaised + amount } : View).account c =
              some (a.contribute v.admin.admin who amount) := View.setAccount_account_self
          rw [hc, hself, Option.some.injEq] at hb
          exact hb.symm
        exact Account.contribute_accepts.mp (hsame ▸ hbaccepts)
      · exact ⟨b, (View.setAccount_account_of_ne hc).symm.trans hb, hbaccepts⟩

theorem batchContributeItem_view {progress progress' : BatchProgress} {item : Nat × Int}
    (h : batchContributeItem env who progress item = .ok progress') :
    acceptContribution env progress.state item.1 who item.2 = .ok progress'.state := by
  simp only [batchContributeItem, bind_eq_ok, pure_eq_ok] at h
  obtain ⟨s1, hs1, _, -, _, -, _, -, rfl⟩ := h
  exact hs1

/-- The loop over the items, by induction on the list. -/
theorem batchItems_batched {items : List (Nat × Int)} :
    ∀ {progress progress' : BatchProgress},
      each (batchContributeItem env who) progress items = .ok progress' →
      Batched env.timestamp who items (view progress.state) (view progress'.state) := by
  induction items with
  | nil =>
      intro progress progress' h
      rw [each_nil, Except.ok.injEq] at h
      exact h ▸ Batched.nil
  | cons item rest ih =>
      intro progress progress' h
      obtain ⟨mid, hmid, hrest⟩ := each_cons_eq_ok.mp h
      obtain ⟨a, ha, haccepts, hpos, hview⟩ :=
        acceptContribution_spec (batchContributeItem_view hmid)
      exact Batched.cons ha haccepts hpos (hview ▸ ih hrest)

/-- Paying the debts changes the tokens alone. -/
theorem payOwed_view {debts : List (Address × Int)} (h : each (payOwed who) s debts = .ok s') :
    { view s' with tokens := (view s).tokens } = view s := by
  refine each_preserves (fun t => { view t with tokens := (view s).tokens } = view s)
    ?_ debts s s' rfl h
  intro t debt t' ht hstep
  obtain ⟨-, -, hview⟩ := transfer_view _ hstep
  rw [hview]
  exact ht

theorem batchContribute_spec {items : List (Nat × Int)}
    (h : batchContribute env s who items = .ok s') :
    Batched env.timestamp who items (view s) { view s' with tokens := (view s).tokens } := by
  simp only [batchContribute, bind_eq_ok] at h
  obtain ⟨_, -, _, -, _, -, progress, hprogress, h⟩ := h
  have hbatched := batchItems_batched hprogress
  rw [← hbatched.tokens, payOwed_view h]
  exact hbatched

/-! ## Refunds -/

theorem deductRefund_view {campaign : Campaign} (h : deductRefund s campaign amount = .ok s') :
    view s' = { view s with totalRaised :=
      (view s).totalRaised - (if campaign.isCancelled then 0 else amount) } := by
  unfold deductRefund at h
  split at h
  next hcancelled => rw [← pure_eq_ok.mp h, if_pos hcancelled, Int.sub_zero]
  next hcancelled =>
      simp only [bind_eq_ok, okOr_eq_ok, I128.checkedSub_eq_some, pure_eq_ok, totalRaised_view] at h
      obtain ⟨_, ⟨rfl, -⟩, rfl⟩ := h
      rw [view_setTotalRaisedGlobal, if_neg hcancelled]

theorem claimRefund_spec (h : claimRefund env s c who = .ok s') :
    ∃ a token, (view s).account c = some a ∧ a.Refundable env.timestamp ∧
      0 < a.funds.contribution who ∧ (view s).currency c = some token ∧
      a.funds.contribution who ≤ (view s).tokens.balance token contractAddress ∧
      view s' = { (view s).setAccount c (a.refund who) with
        totalRaised := (view s).totalRaised -
          (if a.record.isCancelled then 0 else a.funds.contribution who)
        tokens := (view s).tokens.move
          ⟨token, contractAddress, who, a.funds.contribution who⟩ } := by
  simp only [claimRefund, getCampaignOrError, bind_eq_ok, rejectIf_eq_ok, okOr_eq_ok,
    I128.checkedSub_eq_some, getCampaignToken_eq_ok, campaign_view] at h
  obtain ⟨_, -, _, -, campaign, hcampaign, _, hopen, _, hamount, _, ⟨rfl, -⟩, s1, hs1, token,
    htoken, h⟩ := h
  have hview := deductRefund_view hs1
  obtain ⟨hpos, hbalance, hs'⟩ := transfer_view _ h
  rw [hview] at htoken hbalance hs'
  refine ⟨⟨campaign, (view s).funds c⟩, token, View.account_of_campaign hcampaign, ?_, ?_, ?_, ?_,
    ?_⟩
  · exact (not_not.mp hopen).imp id id
  · exact Int.lt_iff_le_and_ne.mpr ⟨hpos, Ne.symm hamount⟩
  · rw [← htoken]
    exact (View.currency_congr (by simp [removeContribution, removeRevenueClaimed])
      (by simp [removeContribution, removeRevenueClaimed])).symm
  · simpa [removeContribution, removeRevenueClaimed, contribution_view] using hbalance
  · rw [hs']
    simp [removeContribution, removeRevenueClaimed, View.setAccount, Account.refund,
      contribution_view]

theorem setPersonalCapFn_view (h : setPersonalCapFn env s c who amount = .ok s') :
    view s' = view s := by
  simp only [setPersonalCapFn, bind_eq_ok, pure_eq_ok] at h
  obtain ⟨_, -, _, -, _, -, _, -, _, -, _, -, rfl⟩ := h
  rfl

theorem removePersonalCapFn_view (h : removePersonalCapFn env s c who = .ok s') :
    view s' = view s := by
  simp only [removePersonalCapFn, bind_eq_ok, pure_eq_ok] at h
  obtain ⟨_, -, _, -, _, -, _, -, rfl⟩ := h
  rfl

end ProofOfHeart
