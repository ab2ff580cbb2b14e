import Mathlib.Algebra.BigOperators.Group.Finset.Piecewise
import Mathlib.Order.Interval.Finset.Nat
import ProofOfHeart.Account.Step

/-! # What a call means to one campaign

An act is the part of a call that concerns the funds or the term of one campaign.
`AccountStep` says what an act does to the account, which transfers the call makes
and by how much the act moves the global counter; `Effect.stepped` derives it for
every campaign from the effect of the whole call.
-/

namespace ProofOfHeart

open Checked Function

inductive Act
  | contribute (who : Address) (amounts : List Int)
  | refund (who : Address)
  | withdraw
  | release
  | plan
  | claimMilestone (milestoneId : Nat)
  | cancel
  | adminCancel
  | extend
  | deposit (amount : Int)
  | claimRevenue (who : Address)
  | claimCreatorRevenue
  | other
  deriving DecidableEq, Repr

/-- The amounts a batch holds for one campaign come as one act. -/
def Call.act (c : Nat) : Call → Act
  | .contribute id who amount => if c = id then .contribute who [amount] else .other
  | .batchContribute who items =>
      if amountsTo c items = [] then .other else .contribute who (amountsTo c items)
  | .claimRefund id who => if c = id then .refund who else .other
  | .withdrawFunds id => if c = id then .withdraw else .other
  | .withdrawReserve id => if c = id then .release else .other
  | .setMilestones id _ => if c = id then .plan else .other
  | .claimMilestone id milestoneId => if c = id then .claimMilestone milestoneId else .other
  | .cancelCampaign id => if c = id then .cancel else .other
  | .adminCancelCampaign _ id _ => if c = id then .adminCancel else .other
  | .extendCampaignDeadline id _ => if c = id then .extend else .other
  | .depositRevenue id amount => if c = id then .deposit amount else .other
  | .claimRevenue id who => if c = id then .claimRevenue who else .other
  | .claimCreatorRevenue id => if c = id then .claimCreatorRevenue else .other
  | _ => .other

/-- The act on campaign `c`, the transfers of the call, the change of the global
counter on account of `c`, and the account before and after. -/
inductive AccountStep (env : Env) (v : View) (c : Nat) :
    Act → List Transfer → Int → Account → Account → Prop
  | contributed {a : Account} {moves : List Transfer} {who : Address} {amounts : List Int}
      (nonempty : amounts ≠ []) (pos : ∀ amount ∈ amounts, 0 < amount)
      (accepts : a.Accepts env.timestamp who) :
      AccountStep env v c (.contribute who amounts) moves amounts.sum a
        (a.contributeAll v.admin.admin who amounts)
  | refunded {a : Account} {who token : Address} (refundable : a.Refundable env.timestamp)
      (pos : 0 < a.funds.contribution who) (currency : v.currency c = some token) :
      AccountStep env v c (.refund who)
        [⟨token, contractAddress, who, a.funds.contribution who⟩]
        (-(if a.record.isCancelled then 0 else a.funds.contribution who)) a (a.refund who)
  | withdrew {a : Account} {token recipient : Address} (payable : a.Payable)
      (noPlan : a.funds.milestones = []) (currency : v.currency c = some token)
      (hrecipient : a.funds.feeRecipient.or v.admin.admin = some recipient)
      (feePos : 0 ≤ (v.split a).fee) (creatorPos : 0 ≤ (v.split a).creator) :
      AccountStep env v c .withdraw
        [⟨token, contractAddress, recipient, (v.split a).fee⟩,
          ⟨token, contractAddress, a.record.creator, (v.split a).creator⟩]
        (-(a.record.effectiveAmountRaised - (v.split a).reserve)) a
        (a.close.withhold env.timestamp (v.vesting a).1 (v.split a).reserve)
  | released {a : Account} {token : Address} {reserve : CampaignReserve}
      (hreserve : a.funds.reserve = some reserve) (unreleased : reserve.released = false)
      (due : reserve.releaseTimestamp ≤ env.timestamp)
      (withdrawn : a.record.fundsWithdrawn = true) (currency : v.currency c = some token)
      (pos : 0 ≤ reserve.amount) :
      AccountStep env v c .release
        [⟨token, contractAddress, a.record.creator, reserve.amount⟩] (-reserve.amount) a
        (a.releaseReserve reserve)
  | planned {a : Account} {moves : List Transfer} {milestones : List Milestone}
      (notCancelled : a.record.isCancelled = false) (unpaid : a.record.fundsWithdrawn = false)
      (noPlan : a.funds.milestones = []) (hplan : Plan milestones) :
      AccountStep env v c .plan moves 0 a
        { a with funds := { a.funds with milestones := unverified milestones } }
  | marked {a : Account} {moves : List Transfer} {milestoneId : Nat} :
      AccountStep env v c .other moves 0 a
        { a with funds := { a.funds with
            milestones := verifiedAt milestoneId a.funds.milestones } }
  | claimed {a : Account} {token admin : Address} {milestone : Milestone}
      (payable : a.Payable) (mem : milestone ∈ a.funds.milestones)
      (unclaimed : a.funds.claimed milestone.id = false)
      (pos : 0 < (v.milestonePay a milestone).creator) (currency : v.currency c = some token)
      (hadmin : v.admin.admin = some admin) :
      AccountStep env v c (.claimMilestone milestone.id)
        ((if (v.milestonePay a milestone).fee > 0 then
            [⟨token, contractAddress, admin, (v.milestonePay a milestone).fee⟩] else []) ++
          [⟨token, contractAddress, a.record.creator, (v.milestonePay a milestone).creator⟩])
        (-((v.milestonePay a milestone).fee + (v.milestonePay a milestone).creator)) a
        (a.claimMilestone milestone.id)
  | cancelled {a : Account} {moves : List Transfer} (live : a.Live)
      (unpaid : a.record.fundsWithdrawn = false)
      (goalMissed : a.record.amountRaised < a.record.fundingGoal) :
      AccountStep env v c .cancel moves (-(max a.record.amountRaised 0)) a a.cancelByCreator
  | adminCancelled {a : Account} {moves : List Transfer} (live : a.Live)
      (unpaid : a.record.fundsWithdrawn = false) :
      AccountStep env v c .adminCancel moves (-(max a.record.amountRaised 0)) a a.cancel
  | extended {a : Account} {moves : List Transfer} {deadline : Nat} (live : a.Live)
      (inTime : env.timestamp < a.record.deadline) (later : a.record.deadline ≤ deadline) :
      AccountStep env v c .extend moves 0 a
        { a with record := { a.record with deadline := deadline, deadlineExtended := true } }
  /-- Entries of the record that no law about funds depends on; the fee override
  stays bounded. -/
  | edited {a : Account} {moves : List Transfer} (creator : Address)
      (pendingCreator : Option Address) (title description : Text) (isVerified : Bool)
      (feeOverride : Option Nat)
      (bounded : feeOverride = a.record.feeOverride ∨
        ∃ feeBps ≤ platformFeeMaxBps, feeOverride = some feeBps) :
      AccountStep env v c .other moves 0 a
        { a with record := { a.record with
            creator := creator
            pendingCreator := pendingCreator
            title := title
            description := description
            isVerified := isVerified
            feeOverride := feeOverride } }
  | deposited {a : Account} {token : Address} {amount : Int} (shares : a.SharesRevenue)
      (raised : a.record.amountRaised ≠ 0) (pos : 0 < amount) :
      AccountStep env v c (.deposit amount)
        [⟨token, a.record.creator, contractAddress, amount⟩] 0 a (a.deposit amount)
  | claimedRevenue {a : Account} {token who : Address} (shares : a.SharesRevenue)
      (contributed : a.funds.contribution who ≠ 0)
      (undrawn : a.funds.revenueClaimed who < a.due a.funds.pool who)
      (pos : 0 < a.claimable who) :
      AccountStep env v c (.claimRevenue who)
        [⟨token, contractAddress, who, a.claimable who⟩] 0 a (a.claim who)
  | claimedCreatorRevenue {a : Account} {token : Address}
      (undrawn : a.funds.creatorClaimed < a.creatorSide a.funds.pool) :
      AccountStep env v c .claimCreatorRevenue
        [⟨token, contractAddress, a.record.creator,
          a.creatorSide a.funds.pool - a.funds.creatorClaimed⟩] 0 a a.claimCreator

variable {env : Env} {v v' : View} {call : Call} {c : Nat} {a : Account}

theorem AccountStep.same {moves : List Transfer} : AccountStep env v c .other moves 0 a a :=
  .edited a.record.creator a.record.pendingCreator a.record.title a.record.description
    a.record.isVerified a.record.feeOverride (.inl rfl)

theorem AccountStep.of_edit {moves : List Transfer} {record : Campaign}
    (h : a.Edit c env.timestamp call record) :
    AccountStep env v c (call.act c) moves 0 a { a with record := record } := by
  cases h with
  | update live unverified unfunded => exact .edited _ _ _ _ _ _ (.inl rfl)
  | describe live => exact .edited _ _ _ _ _ _ (.inl rfl)
  | extend live once inTime later =>
      simp only [Call.act, if_true]
      exact .extended live inTime later
  | nominate live other free => exact .edited _ _ _ _ _ _ (.inl rfl)
  | handOver live pending other => exact .edited _ _ _ _ _ _ (.inl rfl)
  | withdrawNomination => exact .edited _ _ _ _ _ _ (.inl rfl)
  | overrideFee bounded => exact .edited _ _ _ _ _ _ (.inr ⟨_, bounded, rfl⟩)
  | verify verifiable hcall =>
      rcases hcall with rfl | rfl | ⟨ids, -, rfl⟩
      all_goals exact .edited _ _ _ _ _ _ (.inl rfl)

/-! ## From the effect of a call to its acts -/

/-- Nothing has been stored for a campaign. -/
def Funds.blank : Funds where
  startTime := none
  vesting := none
  reserve := none
  milestones := []
  claimed := fun _ => false
  token := none
  feeRecipient := none
  contribution := fun _ => 0
  lifetime := fun _ => 0
  contributors := 0
  pool := 0
  revenueClaimed := fun _ => 0
  creatorClaimed := 0
  distributed := 0
  claimants := 0

/-- Campaigns are numbered from one without gaps, and a free number is blank. -/
structure View.Registered (v : View) : Prop where
  exists_iff : ∀ c, (∃ a, v.account c = some a) ↔ 1 ≤ c ∧ c ≤ v.campaignCount
  blank : ∀ c, v.account c = none → v.funds c = .blank

def View.ids (v : View) : Finset Nat := Finset.Icc 1 v.campaignCount

theorem View.Registered.mem_ids (reg : v.Registered) (ha : v.account c = some a) : c ∈ v.ids :=
  Finset.mem_Icc.mpr ((reg.exists_iff c).mp ⟨a, ha⟩)

theorem View.Registered.account_of_mem (reg : v.Registered) (hc : c ∈ v.ids) :
    ∃ a, v.account c = some a := (reg.exists_iff c).mpr (Finset.mem_Icc.mp hc)

theorem View.Registered.next_none (reg : v.Registered) :
    v.account (v.campaignCount + 1) = none := by
  cases h : v.account (v.campaignCount + 1) with
  | none => rfl
  | some a =>
      have := (reg.exists_iff _).mp ⟨a, h⟩
      omega

theorem View.Registered.next_campaign (reg : v.Registered) :
    v.campaign (v.campaignCount + 1) = none := Option.map_eq_none_iff.mp reg.next_none

/-- The campaign that a creation adds, under the next free number. -/
inductive Born (env : Env) (v : View) : Call → Nat → Account → Prop
  | born {call : Call} {params : CreateCampaignParams} {pinned : Option Address} {deadline : Nat}
      (hcall : call = .createCampaign params ∧ pinned = none ∨
        ∃ token, call = .createCampaignWithToken params token ∧
          (pinned = none ∨ pinned = some token))
      (inTime : env.timestamp ≤ deadline) (goal : 0 < params.fundingGoal)
      (share : params.share ≤ revenueShareMaxBps) :
      Born env v call (v.campaignCount + 1)
        ⟨params.campaign (v.campaignCount + 1) deadline,
          Funds.blank.created env.timestamp v.admin.withdrawReleaseDelayDays
            v.admin.withdrawReservePercentage pinned⟩

/-- Every campaign makes its step, the counter moves by the sum of the parts, and
at most the next free number is taken. -/
structure Stepped (env : Env) (v : View) (call : Call) (v' : View) : Prop where
  existing : ∃ delta : Nat → Int, v'.totalRaised = v.totalRaised + ∑ c ∈ v.ids, delta c ∧
    ∀ c a, v.account c = some a → ∃ a', v'.account c = some a' ∧
      AccountStep env v c (call.act c) v'.tokens.moved (delta c) a a'
  free : ∀ c, v.account c = none → call.act c = .other ∧
    (v'.account c = none ∧ v'.funds c = v.funds c ∨
      v'.campaignCount = v.campaignCount + 1 ∧ ∃ a, v'.account c = some a ∧ Born env v call c a)
  count : v'.campaignCount = v.campaignCount ∨ v'.campaignCount = v.campaignCount + 1 ∧
    ∃ a, v'.account (v.campaignCount + 1) = some a

/-- A call on one campaign. -/
theorem Stepped.single {a' : Account} {delta : Int} (reg : v.Registered)
    (ha : v.account c = some a)
    (haccount : ∀ other, v'.account other = (v.setAccount c a').account other)
    (hfunds : v'.funds = (v.setAccount c a').funds)
    (hcount : v'.campaignCount = v.campaignCount)
    (hraised : v'.totalRaised = v.totalRaised + delta)
    (hother : ∀ other, other ≠ c → call.act other = .other)
    (hstep : AccountStep env v c (call.act c) v'.tokens.moved delta a a') :
    Stepped env v call v' where
  existing := by
    refine ⟨fun other => if other = c then delta else 0, ?_, fun other b hb => ?_⟩
    · rw [hraised, Finset.sum_ite_eq' v.ids c, if_pos (reg.mem_ids ha)]
    · rw [haccount]
      by_cases hc : other = c
      · subst hc
        refine ⟨a', View.setAccount_account_self, ?_⟩
        rw [Option.some.inj (hb.symm.trans ha)]
        dsimp only
        rwa [if_pos rfl]
      · refine ⟨b, (View.setAccount_account_of_ne hc).trans hb, ?_⟩
        dsimp only
        rw [hother other hc, if_neg hc]
        exact .same
  free := by
    intro other hnone
    have hc : other ≠ c := by
      rintro rfl
      rw [ha] at hnone
      cases hnone
    refine ⟨hother other hc, .inl ⟨?_, ?_⟩⟩
    · rw [haccount, View.setAccount_account_of_ne hc, hnone]
    · rw [hfunds]
      exact update_of_ne hc _ _
  count := .inl hcount

/-- A call that changes no campaign. -/
theorem Stepped.of_same (hcampaign : v'.campaign = v.campaign) (hfunds : v'.funds = v.funds)
    (hcount : v'.campaignCount = v.campaignCount) (hraised : v'.totalRaised = v.totalRaised)
    (hother : ∀ c, call.act c = .other) : Stepped env v call v' := by
  have haccount : v'.account = v.account := by
    funext c
    rw [View.account, View.account, hcampaign, hfunds]
  refine ⟨⟨fun _ => 0, by simp [hraised], fun c a ha => ⟨a, by rw [haccount, ha], ?_⟩⟩,
    fun c hnone => ⟨hother c, .inl ⟨by rw [haccount, hnone], by rw [hfunds]⟩⟩, .inl hcount⟩
  rw [hother]
  exact .same

theorem sum_amountsTo {items : List (Nat × Int)} {ids : Finset Nat}
    (h : ∀ item ∈ items, item.1 ∈ ids) :
    ∑ c ∈ ids, (amountsTo c items).sum = (items.map Prod.snd).sum := by
  induction items with
  | nil => simp [amountsTo]
  | cons item rest ih =>
      have hrest := ih fun x hx => h x (List.mem_cons_of_mem _ hx)
      have hcons : ∀ c, (amountsTo c (item :: rest)).sum =
          (if c = item.1 then item.2 else 0) + (amountsTo c rest).sum := by
        intro c
        by_cases hc : item.1 = c
        · simp [amountsTo, hc]
        · simp [amountsTo, hc, Ne.symm hc]
      simp only [hcons, Finset.sum_add_distrib, hrest, Finset.sum_ite_eq',
        if_pos (h item List.mem_cons_self), List.map_cons, List.sum_cons]

theorem Batched.stepped {who : Address} {items : List (Nat × Int)} (reg : v.Registered)
    (h : Batched env.timestamp who items v { v' with tokens := v.tokens }) :
    Stepped env v (.batchContribute who items) v' := by
  refine ⟨⟨fun c => (amountsTo c items).sum, ?_, fun c a ha => ⟨_, (h.account c).trans
    (by rw [ha]; rfl), ?_⟩⟩, fun c hnone => ⟨?_, .inl ⟨?_, ?_⟩⟩, .inl h.campaignCount⟩
  · rw [sum_amountsTo]
    · exact h.totalRaised
    · intro item hitem
      obtain ⟨-, a, ha, -⟩ := h.accepted item hitem
      exact reg.mem_ids ha
  · by_cases hnone : amountsTo c items = []
    · dsimp only
      rw [Call.act, if_pos hnone, hnone]
      exact .same
    · rw [Call.act, if_neg hnone]
      have hmem : ∀ amount ∈ amountsTo c items, (c, amount) ∈ items := by
        intro amount hamount
        simp only [amountsTo, List.mem_map, List.mem_filter, decide_eq_true_eq] at hamount
        obtain ⟨⟨id, x⟩, ⟨hitem, rfl⟩, rfl⟩ := hamount
        exact hitem
      refine .contributed hnone (fun amount hamount => (h.accepted _ (hmem _ hamount)).1) ?_
      obtain ⟨amount, hamount⟩ := List.exists_mem_of_ne_nil _ hnone
      obtain ⟨-, b, hb, accepts⟩ := h.accepted _ (hmem amount hamount)
      rwa [Option.some.inj (ha.symm.trans hb)]
  · have hempty : amountsTo c items = [] := by
      simp only [amountsTo, List.map_eq_nil_iff, List.filter_eq_nil_iff, decide_eq_true_eq]
      rintro item hitem rfl
      obtain ⟨-, b, hb, -⟩ := h.accepted item hitem
      rw [hnone] at hb
      cases hb
    rw [Call.act, if_pos hempty]
  · exact (h.account c).trans (by rw [hnone]; rfl)
  · exact h.funds c (by simpa [View.account] using hnone)

/-- The rule that carries every call to each campaign. -/
theorem Effect.stepped (h : Effect env v call v') (reg : v.Registered)
    (hmoved : v.tokens.moved = []) : Stepped env v call v' := by
  cases h with
  | @create call params pinned deadline hcall fits inTime goal share =>
      have hother : ∀ c, call.act c = .other := by
        rcases hcall with ⟨rfl, -⟩ | ⟨token, rfl, -⟩ <;> exact fun _ => rfl
      have hnext : v.funds (v.campaignCount + 1) = .blank := reg.blank _ reg.next_none
      refine ⟨⟨fun _ => 0, by simp [View.setAccount], fun c a ha => ⟨a, ?_, ?_⟩⟩,
        fun c hnone => ⟨hother c, ?_⟩,
        .inr ⟨rfl, _, View.setAccount_account_self⟩⟩
      · have hc : c ≠ v.campaignCount + 1 := by
          rintro rfl
          rw [reg.next_none] at ha
          cases ha
        exact (View.setAccount_account_of_ne hc).trans ha
      · rw [hother]
        exact .same
      · by_cases hc : c = v.campaignCount + 1
        · subst hc
          refine .inr ⟨rfl, _, View.setAccount_account_self, ?_⟩
          rw [hnext]
          exact .born hcall inTime goal share
        · exact .inl ⟨(View.setAccount_account_of_ne hc).trans hnone, update_of_ne hc _ _⟩
  | @contribute c who amount a token ha accepts pos currency =>
      refine .single reg ha (fun _ => rfl) rfl rfl rfl (fun other hc => if_neg hc) ?_
      rw [Call.act, if_pos rfl]
      have hstep : AccountStep env v c (.contribute who [amount])
          [⟨token, who, contractAddress, amount⟩] [amount].sum a
          (a.contributeAll v.admin.admin who [amount]) :=
        .contributed (List.cons_ne_nil amount []) (by simpa using pos) accepts
      simpa only [Tokens.move, hmoved, List.nil_append, List.sum_singleton,
        Account.contributeAll, List.foldl_cons, List.foldl_nil] using hstep
  | batch batched => exact batched.stepped reg
  | refund ha refundable pos currency =>
      refine .single reg ha (fun _ => rfl) rfl rfl Int.sub_eq_add_neg (fun other hc => if_neg hc) ?_
      rw [Call.act, if_pos rfl]
      simpa [Tokens.move, hmoved] using AccountStep.refunded refundable pos currency
  | withdraw ha payable noPlan currency hrecipient feePos creatorPos =>
      refine .single reg ha (fun _ => rfl) rfl rfl Int.sub_eq_add_neg (fun other hc => if_neg hc) ?_
      rw [Call.act, if_pos rfl]
      simpa only [Tokens.move, hmoved, List.nil_append, List.cons_append] using
        AccountStep.withdrew payable noPlan currency hrecipient feePos creatorPos
  | release ha hreserve unreleased due withdrawn currency pos =>
      refine .single reg ha (fun _ => rfl) rfl rfl Int.sub_eq_add_neg (fun other hc => if_neg hc) ?_
      rw [Call.act, if_pos rfl]
      simpa only [Tokens.move, hmoved, List.nil_append] using
        AccountStep.released hreserve unreleased due withdrawn currency pos
  | plan ha notCancelled unpaid noPlan hplan =>
      refine .single reg ha (fun _ => rfl) rfl rfl (Int.add_zero _).symm
        (fun other hc => if_neg hc) ?_
      rw [Call.act, if_pos rfl]
      exact .planned notCancelled unpaid noPlan hplan
  | verifyMilestone ha notCancelled =>
      exact .single reg ha (fun _ => rfl) rfl rfl (Int.add_zero _).symm (fun _ _ => rfl) .marked
  | @claimMilestone c a token admin milestone ha payable mem marked unclaimed pos currency
      hadmin =>
      refine .single reg ha (fun _ => rfl) rfl rfl Int.sub_eq_add_neg (fun other hc => if_neg hc) ?_
      rw [Call.act, if_pos rfl]
      have hstep := @AccountStep.claimed env v c a token admin milestone payable mem unclaimed pos
        currency hadmin
      by_cases hfee : (v.milestonePay a milestone).fee > 0
      · simpa only [Tokens.move, hmoved, List.nil_append, if_pos hfee] using hstep
      · simpa only [Tokens.move, hmoved, List.nil_append, if_neg hfee] using hstep
  | cancel ha live unpaid goalMissed currency =>
      refine .single reg ha (fun _ => rfl) rfl rfl Int.sub_eq_add_neg (fun other hc => if_neg hc) ?_
      rw [Call.act, if_pos rfl]
      exact .cancelled live unpaid goalMissed
  | adminCancel ha live unpaid =>
      refine .single reg ha (fun _ => rfl) rfl rfl Int.sub_eq_add_neg (fun other hc => if_neg hc) ?_
      rw [Call.act, if_pos rfl]
      exact .adminCancelled live unpaid
  | @edit call c a record ha hedit notAccept =>
      refine .single reg ha (fun _ => rfl) rfl rfl (Int.add_zero _).symm (fun other hc => ?_)
        (.of_edit hedit)
      cases hedit with
      | extend live once inTime later => exact if_neg hc
      | verify verifiable hcall => rcases hcall with rfl | rfl | ⟨ids, -, rfl⟩ <;> rfl
      | _ => rfl
  | handOver ha live pending other hposition hslot hlast =>
      exact .single reg ha (fun _ => rfl) rfl rfl (Int.add_zero _).symm (fun _ _ => rfl)
        (.of_edit (.handOver live pending other))
  | @verifications ids v' h =>
      obtain ⟨hfunds, -, hcount, -, hraised, -⟩ := h.unchanged
      refine ⟨⟨fun _ => 0, ?_, fun c a ha => ?_⟩, fun c hnone => ⟨rfl, .inl ⟨?_, ?_⟩⟩,
        .inl hcount⟩
      · simpa using hraised
      · rcases h.account c with hsame | ⟨b, hb, verifiable, hmem, hb'⟩
        · exact ⟨a, hsame.trans ha, .same⟩
        · rw [Option.some.inj (ha.symm.trans hb)]
          exact ⟨_, hb', .of_edit (.verify verifiable (.inr (.inr ⟨ids, hmem, rfl⟩)))⟩
      · rcases h.account c with hsame | ⟨b, hb, -⟩
        · exact hsame.trans hnone
        · rw [hnone] at hb
          cases hb
      · rw [hfunds]
  | deposit ha shares raised pos currency =>
      refine .single reg ha (fun _ => rfl) rfl rfl (Int.add_zero _).symm
        (fun other hc => if_neg hc) ?_
      rw [Call.act, if_pos rfl]
      simpa only [Tokens.move, hmoved, List.nil_append] using
        AccountStep.deposited shares raised pos
  | claimRevenue ha shares contributed raised undrawn pos currency =>
      refine .single reg ha (fun _ => rfl) rfl rfl (Int.add_zero _).symm
        (fun other hc => if_neg hc) ?_
      rw [Call.act, if_pos rfl]
      simpa only [Tokens.move, hmoved, List.nil_append] using
        AccountStep.claimedRevenue shares contributed undrawn pos
  | claimCreatorRevenue ha sharing undrawn currency =>
      refine .single reg ha (fun _ => rfl) rfl rfl (Int.add_zero _).symm
        (fun other hc => if_neg hc) ?_
      rw [Call.act, if_pos rfl]
      simpa only [Tokens.move, hmoved, List.nil_append] using
        AccountStep.claimedCreatorRevenue undrawn
  | administer h =>
      obtain ⟨store, hstep, rfl⟩ := h
      refine .of_same rfl rfl rfl rfl ?_
      cases hstep <;> exact fun _ => rfl
  | outside h =>
      refine .of_same rfl rfl rfl rfl ?_
      cases call with
      | _ => first | exact fun _ => rfl | cases h

end ProofOfHeart
