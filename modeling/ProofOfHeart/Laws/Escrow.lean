import ProofOfHeart.Laws.ContributionLedger
import ProofOfHeart.Lib.Shares

/-! # Escrow of a campaign without milestones

Whatever was contributed is refunded, paid out in one go, released from the reserve
or still held; the payout and the release happen once, the release not before the
delay fixed at creation has passed since the payout.
-/

namespace ProofOfHeart

open Checked Function Trace Balances

variable {host : Host} {tr : List Receipt} {cfg : Config} {c : Nat} {a a' : Account}
  {env : Env} {v : View} {act : Act} {moves : List Transfer} {delta : Int}

/-! ## The split of a payout -/

theorem ceilBps_eq (amount : Int) (bps : Nat) : ceilBps amount bps = Shares.ceil 10000 amount bps :=
  rfl

theorem floorBps_eq (amount : Int) (bps : Nat) :
    floorBps amount bps = Shares.floor 10000 amount bps := rfl

theorem View.effectiveFee_le (conf : v.Configured) (phase : a.Phase) :
    v.effectiveFee a.record ≤ platformFeeMaxBps := by
  unfold View.effectiveFee
  cases hfee : a.record.feeOverride with
  | none => exact conf.feeBound
  | some feeBps => exact phase.feeBound feeBps hfee

/-- A fee within its bound takes no more than the amount. -/
theorem splitFunds_reserve_nonneg {amount : Int} {feeBps reserveBps : Nat} (hamount : 0 ≤ amount)
    (hfee : feeBps ≤ platformFeeMaxBps) : 0 ≤ (splitFunds amount feeBps reserveBps).reserve := by
  have hle : (feeBps : Int) ≤ 10000 := by
    have hmax : platformFeeMaxBps = 1000 := rfl
    omega
  have hrest : ceilBps amount feeBps ≤ amount := by
    rw [ceilBps_eq]
    exact Shares.ceil_le (by decide) hamount (Int.natCast_nonneg _) hle
  simp only [splitFunds]
  rw [ceilBps_eq]
  exact Shares.ceil_nonneg (by decide) (by omega) (Int.natCast_nonneg _)

/-! ## What is held -/

/-- What a reserve still holds back. -/
def unreleased : Option CampaignReserve → Int
  | some reserve => if reserve.released then 0 else reserve.amount
  | none => 0

/-- A reserve is withheld where none was before. -/
theorem unreleased_withhold {now delayDays : Nat} {amount : Int} (hnone : a.funds.reserve = none)
    (hamount : 0 ≤ amount) :
    unreleased (a.close.withhold now delayDays amount).funds.reserve = amount := by
  simp only [Account.withhold, Account.close]
  split
  next hpos => rfl
  next hzero =>
      rw [hnone, unreleased]
      omega

noncomputable def Account.held (a : Account) : Int :=
  if a.record.fundsWithdrawn then unreleased a.funds.reserve else total a.funds.contribution

/-- A reserve exists only after the payout, and it holds something. -/
structure Account.Reserves (a : Account) : Prop where
  afterPayout : a.record.fundsWithdrawn = false → a.funds.reserve = none
  positive : ∀ reserve, a.funds.reserve = some reserve → 0 < reserve.amount

theorem Account.Reserves.unreleased_nonneg (reserves : a.Reserves) :
    0 ≤ unreleased a.funds.reserve := by
  cases hreserve : a.funds.reserve with
  | none => exact Int.le_refl 0
  | some reserve =>
      have hpos := reserves.positive reserve hreserve
      simp only [unreleased]
      split <;> omega

theorem AccountStep.reserves (h : AccountStep env v c act moves delta a a')
    (reserves : a.Reserves) : a'.Reserves := by
  obtain ⟨afterPayout, positive⟩ := reserves
  cases h with
  | contributed nonempty pos accepts =>
      obtain ⟨_, _, _, _, heq⟩ := a.contributeAll_eq v.admin.admin _ _
      rw [heq]
      exact ⟨afterPayout, positive⟩
  | withdrew =>
      refine ⟨fun hopen => (by cases hopen), fun reserve hsome => ?_⟩
      simp only [Account.withhold, Account.close] at hsome
      split at hsome
      next hpos =>
          rw [← Option.some.inj hsome]
          exact hpos
      next hzero => exact positive reserve hsome
  | released hreserve unreleased due withdrawn =>
      refine ⟨fun hopen => Bool.noConfusion (withdrawn.symm.trans hopen), fun reserve hsome => ?_⟩
      have hpos := positive _ hreserve
      rw [← Option.some.inj hsome]
      exact hpos
  | claimed payable => exact ⟨fun _ => afterPayout payable.notWithdrawn, positive⟩
  | _ => exact ⟨afterPayout, positive⟩

theorem run_reserves (run : Run (machine host) tr cfg)
    (ha : (view cfg.state).account c = some a) : a.Reserves := by
  refine account_invariant (I := fun _ _ a => a.Reserves) (fun _ hborn => ?_)
    (fun passage ih => passage.step.reserves ih) run ha
  cases hborn
  exact ⟨fun _ => rfl, fun _ hsome => by cases hsome⟩

theorem Passage.reserves {r : Receipt} (passage : Passage host c tr cfg r act moves delta a a') :
    a.Reserves := run_reserves passage.run (passage.pre ▸ passage.before)

theorem Account.Books.held_eq (books : a.Books) (unpaid : a.record.fundsWithdrawn = false) :
    a.held = a.record.effectiveAmountRaised := by
  rw [Account.held, unpaid, if_neg Bool.false_ne_true, books.live]

/-! ## Conservation -/

/-- One act balances what came in against what went out and what is held. -/
theorem AccountStep.balance (h : AccountStep env v c act moves delta a a') (phase : a.Phase)
    (books : a.Books) (books' : a'.Books) (reserves : a.Reserves)
    (conf : v.Configured) (hact : act ≠ .plan) (noPlan : a.funds.milestones = []) :
    act.contributed + a.held = act.pays Act.isRefund moves + act.pays Act.isWithdraw moves +
      act.pays Act.isRelease moves + a'.held := by
  cases h with
  | contributed nonempty pos accepts =>
      have hopen := phase.unpaid accepts.of_live
      rw [books.held_eq hopen, books'.held_eq (by rw [Account.contributeAll_record]; exact hopen),
        Account.contributeAll_record]
      simp [Act.pays, Act.contributed, Act.isRefund, Act.isWithdraw, Act.isRelease]
      omega
  | refunded refundable pos currency =>
      have hopen := refundable.unpaid phase
      rw [books.held_eq hopen, books'.held_eq hopen]
      simp [Act.pays, Act.contributed, Act.isRefund, Act.isWithdraw, Act.isRelease, Account.refund]
  | withdrew payable _ currency hrecipient feePos creatorPos =>
      have hopen := payable.notWithdrawn
      have hsum := splitFunds_sum a.record.effectiveAmountRaised (v.effectiveFee a.record)
        (v.vesting a).2
      have hnonneg : 0 ≤ (v.split a).reserve :=
        splitFunds_reserve_nonneg books.effective_nonneg (View.effectiveFee_le conf phase)
      have hheld : (a.close.withhold env.timestamp (v.vesting a).1 (v.split a).reserve).held =
          (v.split a).reserve := by
        exact unreleased_withhold (reserves.afterPayout hopen) hnonneg
      rw [books.held_eq hopen, hheld]
      simp [Act.pays, Act.contributed, Act.isRefund, Act.isWithdraw, Act.isRelease]
      simp only [View.split] at hsum ⊢
      omega
  | released hreserve unreleased' due withdrawn currency pos =>
      simp [Act.pays, Act.contributed, Act.isRefund, Act.isWithdraw, Act.isRelease, Account.held,
        Account.releaseReserve, withdrawn, hreserve, unreleased, unreleased']
  | planned => exact absurd rfl hact
  | claimed payable mem =>
      rw [noPlan] at mem
      cases mem
  | _ =>
      have hsame : 0 + a.held = 0 + 0 + 0 + a.held := rfl
      exact hsame

/-- No plan is made by anything but `set_milestones`. -/
theorem AccountStep.noPlan (h : AccountStep env v c act moves delta a a') (hact : act ≠ .plan)
    (noPlan : a.funds.milestones = []) : a'.funds.milestones = [] := by
  cases h with
  | contributed nonempty pos accepts =>
      obtain ⟨_, _, _, _, heq⟩ := a.contributeAll_eq v.admin.admin _ _
      rw [heq]
      exact noPlan
  | planned => exact absurd rfl hact
  | marked =>
      simp only [noPlan, verifiedAt, List.map_nil]
  | _ => exact noPlan

/-- The balance sheet of campaign `c` after the history `tr`. -/
def Balanced (c : Nat) (tr : List Receipt) (a : Account) : Prop :=
  contributedTo c tr = paidFor Act.isRefund c tr + paidFor Act.isWithdraw c tr +
    paidFor Act.isRelease c tr + a.held

theorem run_balanced (run : Run (machine host) tr cfg)
    (hplan : ∀ r ∈ tr, r.call.act c ≠ .plan) (ha : (view cfg.state).account c = some a) :
    a.funds.milestones = [] ∧ Balanced c tr a := by
  refine account_run (C := fun r => r.call.act c ≠ .plan)
    (I := fun tr _ a => a.funds.milestones = [] ∧ Balanced c tr a) ?_ ?_ run hplan ha
  · intro tr r a hacts hborn
    have hheld : a.held = 0 := by
      cases hborn
      exact total_zero
    refine ⟨by cases hborn; rfl, ?_⟩
    rw [Balanced, contributedTo_eq_zero hacts, paidFor_eq_zero rfl hacts,
      paidFor_eq_zero rfl hacts, paidFor_eq_zero rfl hacts, hheld]
    rfl
  · rintro tr cfg r act moves delta a a' passage - hr ⟨noPlan, ih⟩
    rw [passage.hact] at hr
    have hbooks := run_books passage.run (passage.pre ▸ passage.before)
    have hbalance := passage.step.balance passage.phase hbooks.1
      (passage.step.books passage.phase passage.time hbooks).1
      passage.reserves passage.configured hr
      noPlan
    refine ⟨passage.step.noPlan hr noPlan, ?_⟩
    unfold Balanced at ih ⊢
    rw [contributedTo_cons, paidFor_cons, paidFor_cons, paidFor_cons, passage.hact,
      passage.hmoves]
    omega

/-! ## Once each -/

/-- How many acts of one kind a run holds for campaign `c`. -/
def timesFor (kind : Act → Bool) (c : Nat) (tr : List Receipt) : Nat :=
  tr.countP fun r => kind (r.call.act c)

theorem timesFor_cons {kind : Act → Bool} {r : Receipt} : timesFor kind c (r :: tr) =
    timesFor kind c tr + (if kind (r.call.act c) then 1 else 0) := List.countP_cons

theorem timesFor_eq_zero {kind : Act → Bool} (hkind : kind .other = false)
    (h : ∀ r ∈ tr, r.call.act c = .other) : timesFor kind c tr = 0 := by
  refine List.countP_eq_zero.mpr fun r hr => ?_
  rw [h r hr, hkind]
  exact Bool.false_ne_true

def wasReleased : Option CampaignReserve → Bool
  | some reserve => reserve.released
  | none => false

/-- The flags remember whether the payout and the release have been made. -/
def Remembered (c : Nat) (tr : List Receipt) (a : Account) : Prop :=
  timesFor Act.isWithdraw c tr ≤ (if a.record.fundsWithdrawn then 1 else 0) ∧
    timesFor Act.isRelease c tr ≤ (if wasReleased a.funds.reserve then 1 else 0)

theorem AccountStep.remembered {r : Receipt} (h : AccountStep env v c act moves delta a a')
    (hact : r.call.act c = act) (reserves : a.Reserves) (ih : Remembered c tr a) :
    Remembered c (r :: tr) a' := by
  obtain ⟨hwithdraw, hrelease⟩ := ih
  unfold Remembered
  rw [timesFor_cons, timesFor_cons, hact]
  cases h with
  | contributed nonempty pos accepts =>
      obtain ⟨_, _, _, _, heq⟩ := a.contributeAll_eq v.admin.admin _ _
      rw [heq]
      exact ⟨hwithdraw, hrelease⟩
  | withdrew payable =>
      rw [payable.notWithdrawn, if_neg Bool.false_ne_true] at hwithdraw
      rw [reserves.afterPayout payable.notWithdrawn] at hrelease
      refine ⟨Nat.add_le_add_right hwithdraw 1, Nat.le_trans hrelease (Nat.zero_le _)⟩
  | released hreserve unreleased =>
      rw [hreserve, wasReleased, unreleased, if_neg Bool.false_ne_true] at hrelease
      exact ⟨hwithdraw, Nat.add_le_add_right hrelease 1⟩
  | claimed payable =>
      rw [payable.notWithdrawn, if_neg Bool.false_ne_true] at hwithdraw
      exact ⟨Nat.le_trans hwithdraw (Nat.zero_le _), hrelease⟩
  | _ => exact ⟨hwithdraw, hrelease⟩

theorem run_remembered (run : Run (machine host) tr cfg)
    (ha : (view cfg.state).account c = some a) : Remembered c tr a := by
  refine account_invariant (I := fun tr _ a => Remembered c tr a) ?_ ?_ run ha
  · intro tr r a hacts _
    unfold Remembered
    rw [timesFor_eq_zero rfl hacts, timesFor_eq_zero rfl hacts]
    exact ⟨Nat.zero_le _, Nat.zero_le _⟩
  · intro tr cfg r act moves delta a a' passage ih
    exact passage.step.remembered passage.hact
      passage.reserves ih

/-! ## The release date -/

/-- The call that created campaign `c`. -/
def Receipt.creates (c : Nat) (r : Receipt) : Prop :=
  r.pre.campaigns.campaignCount + 1 = c ∧
    ∃ params, r.call = .createCampaign params ∨
      ∃ token, r.call = .createCampaignWithToken params token

/-- The release date that follows from the payout `w` and the creation `k`. -/
def releaseDate (w k : Receipt) : Nat :=
  w.env.timestamp + k.pre.admin.withdrawReleaseDelayDays * secondsPerDay

/-- The delay is that of the creation, and a reserve is dated by the payout. -/
def Dated (c : Nat) (tr : List Receipt) (a : Account) : Prop :=
  (∃ k ∈ tr, k.creates c ∧ a.funds.vesting =
      some (k.pre.admin.withdrawReleaseDelayDays, k.pre.admin.withdrawReservePercentage)) ∧
    ∀ reserve, a.funds.reserve = some reserve → ∃ w ∈ tr, ∃ k ∈ tr, k.creates c ∧
      (w.call.act c).isWithdraw = true ∧ reserve.releaseTimestamp = releaseDate w k

theorem Dated.later {r : Receipt} (h : Dated c tr a) (hvesting : a'.funds.vesting = a.funds.vesting)
    (hreserve : ∀ reserve, a'.funds.reserve = some reserve → ∃ old, a.funds.reserve = some old ∧
      reserve.releaseTimestamp = old.releaseTimestamp) : Dated c (r :: tr) a' := by
  obtain ⟨⟨k, hk, hcreates, hdelay⟩, hdate⟩ := h
  refine ⟨⟨k, List.mem_cons_of_mem _ hk, hcreates, hvesting.trans hdelay⟩, fun reserve hsome => ?_⟩
  obtain ⟨old, hold, htime⟩ := hreserve reserve hsome
  obtain ⟨w, hw, k, hk, hcreates, hwithdraw, hold⟩ := hdate old hold
  exact ⟨w, List.mem_cons_of_mem _ hw, k, List.mem_cons_of_mem _ hk, hcreates, hwithdraw,
    htime.trans hold⟩

theorem AccountStep.dated {r : Receipt} (h : AccountStep r.env v c act moves delta a a')
    (hact : r.call.act c = act) (ih : Dated c tr a) : Dated c (r :: tr) a' := by
  cases h with
  | contributed nonempty pos accepts =>
      obtain ⟨_, _, _, _, heq⟩ := a.contributeAll_eq v.admin.admin _ _
      rw [heq]
      exact ih.later rfl fun reserve hsome => ⟨reserve, hsome, rfl⟩
  | withdrew payable =>
      by_cases hpos : (v.split a).reserve > 0
      · obtain ⟨⟨k, hk, hcreates, hdelay⟩, -⟩ := ih
        refine ⟨⟨k, List.mem_cons_of_mem _ hk, hcreates, hdelay⟩, fun reserve hsome => ?_⟩
        refine ⟨r, List.mem_cons_self, k, List.mem_cons_of_mem _ hk, hcreates, by rw [hact]; rfl,
          ?_⟩
        simp only [Account.withhold, Account.close, if_pos hpos, Option.some.injEq] at hsome
        rw [← hsome, View.vesting, hdelay]
        rfl
      · refine ih.later rfl fun reserve hsome => ⟨reserve, ?_, rfl⟩
        simpa only [Account.withhold, Account.close, if_neg hpos] using hsome
  | released hreserve =>
      refine ih.later rfl fun reserve hsome => ⟨_, hreserve, ?_⟩
      rw [← Option.some.inj hsome]
  | _ => exact ih.later rfl fun reserve hsome => ⟨reserve, hsome, rfl⟩

theorem run_dated (run : Run (machine host) tr cfg)
    (ha : (view cfg.state).account c = some a) : Dated c tr a := by
  refine account_invariant (I := fun tr _ a => Dated c tr a) ?_ ?_ run ha
  · intro tr r a _ hborn
    cases hborn with
    | born hcall inTime goal share =>
        refine ⟨⟨r, List.mem_cons_self, ⟨rfl, ?_⟩, rfl⟩, fun reserve hsome => by cases hsome⟩
        rcases hcall with ⟨hcall, -⟩ | ⟨token, hcall, -⟩
        · exact ⟨_, .inl hcall⟩
        · exact ⟨_, .inr ⟨token, hcall⟩⟩
  · intro tr cfg r act moves delta a a' passage ih
    exact passage.step.dated passage.hact ih

/-- Every release is made from a reserve whose date has come. -/
def ReleasedOnTime (c : Nat) (tr : List Receipt) : Prop :=
  ∀ r ∈ tr, (r.call.act c).isRelease = true → ∃ reserve, ∃ w ∈ tr, ∃ k ∈ tr,
    r.pre.campaigns.campaignReserve c = some reserve ∧ (w.call.act c).isWithdraw = true ∧
    k.creates c ∧ reserve.releaseTimestamp = releaseDate w k ∧ releaseDate w k ≤ r.env.timestamp

theorem run_releasedOnTime (run : Run (machine host) tr cfg)
    (ha : (view cfg.state).account c = some a) : ReleasedOnTime c tr := by
  refine account_invariant (c := c) (I := fun tr _ _ => ReleasedOnTime c tr) ?_ ?_ run ha
  · intro tr r a hacts _ x hx hrelease
    rw [hacts x hx] at hrelease
    cases hrelease
  · intro tr cfg r act moves delta a a' passage ih x hx hrelease
    rcases List.mem_cons.mp hx with rfl | hx
    · rw [passage.hact] at hrelease
      obtain ⟨-, hdate⟩ := run_dated passage.run (passage.pre ▸ passage.before)
      cases passage.step with
      | released hreserve unreleased due =>
          obtain ⟨w, hw, k, hk, hcreates, hwithdraw, htime⟩ := hdate _ hreserve
          have hfunds := (View.account_eq_some.mp passage.before).2
          refine ⟨_, w, List.mem_cons_of_mem _ hw, k, List.mem_cons_of_mem _ hk, ?_, hwithdraw,
            hcreates, htime, htime ▸ due⟩
          rw [reserve_view, hfunds, hreserve]
      | _ => cases hrelease
    · obtain ⟨reserve, w, hw, k, hk, hrest⟩ := ih x hx hrelease
      exact ⟨reserve, w, List.mem_cons_of_mem _ hw, k, List.mem_cons_of_mem _ hk, hrest⟩

/-- A campaign without milestones: nothing is lost, the payout and the release are
made at most once, and the release not before its date. -/
theorem escrow_conserved (run : Run (machine host) tr cfg) {campaign : Campaign}
    (hcampaign : cfg.state.campaigns.campaign c = some campaign)
    (hplan : ∀ r ∈ tr, r.call.act c ≠ .plan) :
    contributedTo c tr =
      paidFor Act.isRefund c tr + paidFor Act.isWithdraw c tr + paidFor Act.isRelease c tr +
        (if campaign.fundsWithdrawn then unreleased (cfg.state.campaigns.campaignReserve c)
          else ∑ᶠ who, cfg.state.contributions.contribution c who) ∧
    timesFor Act.isWithdraw c tr ≤ 1 ∧ timesFor Act.isRelease c tr ≤ 1 ∧
    ReleasedOnTime c tr := by
  have ha := View.account_of_campaign (v := view cfg.state) hcampaign
  obtain ⟨hwithdraw, hrelease⟩ := run_remembered run ha
  refine ⟨(run_balanced run hplan ha).2, Nat.le_trans hwithdraw ?_, Nat.le_trans hrelease ?_,
    run_releasedOnTime run ha⟩
  · split <;> decide
  · split <;> decide

/-- A tenth of the payout is withheld for thirty days and then released. -/
def Sample.vested : List Request :=
  ask 0 admin (.setVestingParams admin 30 1000) :: opened 0 ++
    [ask 1 alice (.contribute 1 alice 100000), ask 2 creator (.withdrawFunds 1),
      ask 2592002 creator (.withdrawReserve 1)]

theorem escrow_sample :
    ∃ tr cfg, Run (machine Sample.host) tr cfg ∧ (∃ r ∈ tr, (r.call.act 1).isRelease = true) ∧
      contributedTo 1 tr = paidFor Act.isRefund 1 tr + paidFor Act.isWithdraw 1 tr +
        paidFor Act.isRelease 1 tr + unreleased (cfg.state.campaigns.campaignReserve 1) ∧
      ReleasedOnTime 1 tr := by
  have h : Sample.Ends 300 Sample.vested fun tr cfg =>
      (∃ r ∈ tr, (r.call.act 1).isRelease = true) ∧ (∀ r ∈ tr, r.call.act 1 ≠ .plan) ∧
        (cfg.state.campaigns.campaign 1).map Campaign.fundsWithdrawn = some true := by
    decide +kernel
  obtain ⟨tr, cfg, run, hrelease, hplan, hcampaign⟩ := h.run
  obtain ⟨campaign, hcampaign, hwithdrawn⟩ := Option.map_eq_some_iff.mp hcampaign
  obtain ⟨hbalance, -, -, hdate⟩ := escrow_conserved run hcampaign hplan
  rw [if_pos hwithdrawn] at hbalance
  exact ⟨tr, cfg, run, hrelease, hbalance, hdate⟩

end ProofOfHeart
