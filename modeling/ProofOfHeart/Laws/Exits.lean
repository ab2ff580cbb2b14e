import ProofOfHeart.Laws.MilestoneOrder
import ProofOfHeart.Laws.Custody

/-! # Whoever is owed something is paid

What the contract keeps for a campaign covers whatever may still be paid on its
account, as long as nothing has been paid twice. Together with the custody of the
tokens this means that a settlement that meets its checks never fails in its payment.
-/

namespace ProofOfHeart

open Checked Function Trace Balances

variable {host : Host} {tr : List Receipt} {cfg : Config} {c : Nat} {a a' : Account}
  {env : Env} {s : State} {v : View} {call : Call} {who token recipient : Address} {amount : Int}
  {fees : Nat → Nat} {act : Act} {moves outs : List Transfer} {delta : Int} {milestone : Milestone}

/-! ## Nothing is paid twice -/

/-- The conditions under which payouts exclude refunds, milestone claims stay within what
was raised, and revenue claims within what was deposited, for every campaign. -/
structure Orderly (fees : Nat → Nat) (tr : List Receipt) : Prop where
  cancels : ∀ r ∈ tr, ∀ c, r.CancelsUnclaimed c
  closes : ∀ c, ClosedAtFee c (fees c) tr
  sweeps : ∀ r ∈ tr, ∀ c, r.SweepsDust c
  deposits : ∀ r ∈ tr, ∀ c, r.DepositsOverDust c

theorem Orderly.earlier {r : Receipt} (h : Orderly fees (r :: tr)) : Orderly fees tr where
  cancels x hx := h.cancels x (List.mem_cons_of_mem _ hx)
  closes c := by
    rintro ⟨x, hx, hcloses⟩ y hy
    exact h.closes c ⟨x, List.mem_cons_of_mem _ hx, hcloses⟩ y (List.mem_cons_of_mem _ hy)
  sweeps x hx := h.sweeps x (List.mem_cons_of_mem _ hx)
  deposits x hx := h.deposits x (List.mem_cons_of_mem _ hx)

theorem run_distributed (run : Run (machine host) tr cfg) (orderly : Orderly fees tr)
    (ha : (view cfg.state).account c = some a) :
    a.funds.distributed ≤ a.contributorSide a.funds.pool :=
  (run_solvent run (fun r hr => ⟨orderly.sweeps r hr c, orderly.deposits r hr c⟩) ha).distributed_le
    (run_revenueBooks run ha) (run_books run ha).1

/-- Neither the contributions nor the revenue are overdrawn. -/
structure Account.Solid (c : Nat) (tr : List Receipt) (a : Account) : Prop where
  contributions : paidFor Act.isWithdraw c tr + milestonesPaid c tr + paidFor Act.isRelease c tr ≤
    a.record.effectiveAmountRaised
  revenue : a.funds.distributed + a.funds.creatorClaimed ≤ a.funds.pool

theorem run_solid (run : Run (machine host) tr cfg) (orderly : Orderly fees tr)
    (ha : (view cfg.state).account c = some a) : a.Solid c tr where
  contributions := by
    have tallied := run_tallied run ha
    have hcovered := (settlement_exclusive run (fun r hr => orderly.cancels r hr c)
      (orderly.closes c)).2
    rw [tallied.raised, tallied.refunded] at hcovered
    omega
  revenue := by
    have hdistributed := run_distributed run orderly ha
    have hcreator := (run_revenueBooks run ha).creator
    rw [Account.contributorSide] at hdistributed
    omega

theorem run_keptFor_nonneg (run : Run (machine host) tr cfg) (orderly : Orderly fees tr)
    (c : Nat) : 0 ≤ keptFor c tr := by
  cases ha : (view cfg.state).account c with
  | none => rw [keptFor_eq_zero (run_absent run ha)]
  | some a =>
      obtain ⟨hcontributions, hrevenue⟩ := run_solid run orderly ha
      rw [run_keptFor run ha]
      omega

/-- What is kept for one campaign is held in its currency. -/
theorem keptFor_le_held (run : Run (machine host) tr cfg) (orderly : Orderly fees tr)
    (hcustody : Custodial token tr) (ha : (view cfg.state).account c = some a)
    (currency : (view cfg.state).currency c = some token) :
    keptFor c tr ≤ cfg.state.tokens.held token := by
  have hnonneg : ∀ other ∈ (view cfg.state).ids,
      0 ≤ if (view cfg.state).currency other = some token then keptFor other tr else 0 := by
    intro other _
    split
    next => exact run_keptFor_nonneg run orderly other
    next => exact Int.le_refl 0
  have hone := Finset.single_le_sum hnonneg ((run_sane run).mem_ids ha)
  rw [if_pos currency] at hone
  exact Int.le_trans hone (run_keptIn run hcustody)

/-! ## What is kept covers what is due -/

theorem run_noClaims (run : Run (machine host) tr cfg) (ha : (view cfg.state).account c = some a)
    (noPlan : a.funds.milestones = []) : milestonesPaid c tr = 0 := by
  rcases run_planned run ha with ⟨-, hnone⟩ | ⟨hplan, -⟩
  · exact (run_prorated run ha).none hnone
  · exact absurd noPlan hplan

/-- All that can be refunded is kept. -/
theorem run_effective_kept {now : Nat} (run : Run (machine host) tr cfg)
    (orderly : Orderly fees tr) (ha : (view cfg.state).account c = some a)
    (refundable : a.Refundable now) : a.record.effectiveAmountRaised ≤ keptFor c tr := by
  have funded := run_funded run (fun r hr => orderly.cancels r hr c) ha
  have hunpaid := refundable.unpaid (run_phase run ha)
  obtain ⟨hwithdraw, hrelease, -⟩ := (run_paidOnce run ha).unpaid (.inl hunpaid)
  have hclaims : milestonesPaid c tr = 0 := paidFor_eq_zero_of_none fun r hr =>
    Bool.eq_false_of_not_eq_true fun hclaim =>
      funded.no_payout refundable ⟨r, hr, by rw [Act.isPayout, hclaim, Bool.or_true]⟩
  have hrevenue := (run_solid run orderly ha).revenue
  rw [run_keptFor run ha, hwithdraw, hrelease, hclaims]
  omega

theorem run_payout_kept (run : Run (machine host) tr cfg) (orderly : Orderly fees tr)
    (ha : (view cfg.state).account c = some a) (noPlan : a.funds.milestones = [])
    (payable : a.Payable) :
    ((view cfg.state).split a).fee + ((view cfg.state).split a).creator ≤ keptFor c tr := by
  obtain ⟨hwithdraw, hrelease, -⟩ := (run_paidOnce run ha).unpaid (.inl payable.notWithdrawn)
  have hclaims := run_noClaims run ha noPlan
  have hrevenue := (run_solid run orderly ha).revenue
  have hsum := splitFunds_sum a.record.effectiveAmountRaised
    ((view cfg.state).effectiveFee a.record) ((view cfg.state).vesting a).2
  have hreserve : 0 ≤ (splitFunds a.record.effectiveAmountRaised
      ((view cfg.state).effectiveFee a.record) ((view cfg.state).vesting a).2).reserve :=
    splitFunds_reserve_nonneg (run_books run ha).1.effective_nonneg
      (View.effectiveFee_le (run_sane run).toConfigured (run_phase run ha))
  rw [run_keptFor run ha, hwithdraw, hrelease, hclaims]
  simp only [View.split]
  omega

theorem run_reserve_kept {reserve : CampaignReserve} (run : Run (machine host) tr cfg)
    (orderly : Orderly fees tr) (ha : (view cfg.state).account c = some a)
    (hreserve : a.funds.reserve = some reserve) (hheld : reserve.released = false)
    (withdrawn : a.record.fundsWithdrawn = true) : reserve.amount ≤ keptFor c tr := by
  have paidOnce := run_paidOnce run ha
  have noPlan : a.funds.milestones = [] := by
    by_contra hplan
    obtain ⟨-, -, hnone⟩ := paidOnce.unpaid (.inr hplan)
    rw [hreserve] at hnone
    cases hnone
  have hclaims := run_noClaims run ha noPlan
  have hrevenue := (run_solid run orderly ha).revenue
  obtain ⟨books, hwhole⟩ := run_books run ha
  have hsame : a.record.effectiveAmountRaised = a.record.amountRaised := by
    rcases hwhole with whole | hopen
    · exact books.effective_eq whole
    · exact Bool.noConfusion ((hopen.unpaid (run_phase run ha)).symm.trans withdrawn)
  have hbound := paidOnce.bound
  rw [hreserve, unreleased, hheld, if_neg Bool.false_ne_true] at hbound
  rw [run_keptFor run ha, hclaims, hsame]
  omega

/-- A share that is due is still there. -/
theorem Account.Solvent.share_le (solvent : a.Solvent) (books : a.Books)
    (revenue : RevenueBooks c tr a) (who : Address) :
    a.due a.funds.pool who - a.funds.revenueClaimed who ≤
      a.contributorSide a.funds.pool - a.funds.distributed := by
  have hdue := books.due_finite a.funds.pool
  have hone : total (update a.funds.revenueClaimed who (a.due a.funds.pool who)) ≤
      Entitlements.reserved a.funds.revenueClaimed (a.due a.funds.pool) := by
    refine total_le revenue.finite.update (Entitlements.finite_max revenue.finite hdue) ?_
    intro other
    by_cases hother : other = who
    · rw [hother, update_self]
      exact le_max_right _ _
    · rw [update_of_ne hother]
      exact le_max_left _ _
  rw [total_update revenue.finite, ← revenue.distributed] at hone
  have hside := Int.le_trans hone solvent
  omega

theorem run_share_kept (run : Run (machine host) tr cfg) (orderly : Orderly fees tr)
    (ha : (view cfg.state).account c = some a) : a.claimable who ≤ keptFor c tr := by
  have books := (run_books run ha).1
  have revenue := run_revenueBooks run ha
  have solvent := run_solvent run
    (fun r hr => ⟨orderly.sweeps r hr c, orderly.deposits r hr c⟩) ha
  have hcontributions := (run_solid run orderly ha).contributions
  have hcreator := revenue.creator
  have hshare := solvent.share_le books revenue who
  have hrest : a.claimable who ≤ a.contributorSide a.funds.pool - a.funds.distributed := by
    unfold Account.claimable
    dsimp only
    split
    next => exact Int.le_refl _
    next => exact hshare
  rw [run_keptFor run ha]
  rw [Account.contributorSide] at hrest
  omega

theorem run_creatorShare_kept (run : Run (machine host) tr cfg) (orderly : Orderly fees tr)
    (ha : (view cfg.state).account c = some a) :
    a.creatorSide a.funds.pool - a.funds.creatorClaimed ≤ keptFor c tr := by
  have hdistributed := run_distributed run orderly ha
  have hcontributions := (run_solid run orderly ha).contributions
  rw [run_keptFor run ha]
  rw [Account.contributorSide] at hdistributed
  omega

/-! ## The next claim of a milestone -/

/-- No claim takes the milestones above what was raised. -/
theorem Passage.claims_le {r : Receipt} {feeBps : Nat}
    (passage : Passage host c tr cfg r act moves delta a a') (hfee : ClosedAtFee c feeBps (r :: tr))
    (hclaim : act.isMilestoneClaim = true) :
    milestonesPaid c (r :: tr) ≤ a.record.amountRaised := by
  have ha := passage.before
  rw [passage.pre] at ha
  have planned := passage.step.planned_step passage.planned
  have hraised := passage.books.raised_nonneg
  obtain ⟨milestone, mem, -, -, hact, payable, -, rfl, -⟩ := passage.step.claim_transfers hclaim
  have hsame : (a.claimMilestone milestone.id).record.amountRaised = a.record.amountRaised := by
    rw [Account.claimMilestone_record]
  rw [← hsame] at hraised ⊢
  by_cases hlast : allClaimed a.funds.milestones a.funds.claimed milestone.id = true
  · have hall := hfee ⟨r, List.mem_cons_self, passage.closes hact hlast⟩
    have covered := run_covered passage.run (fun x hx => hall x (List.mem_cons_of_mem _ hx)) ha
    exact (covered.claim passage (hall r List.mem_cons_self) hclaim).bound
  · have prorated := (run_prorated passage.run ha).claim passage hclaim
    refine prorated.le_raised planned hraised ?_
    rw [Account.claimMilestone, if_neg hlast]
    exact payable.notWithdrawn

/-- The receipt of a call before it is made. -/
def unmade (env : Env) (s : State) (call : Call) : Receipt := ⟨env, call, s, s⟩

/-- Only the call and the state it finds decide under which fee it closes a campaign. -/
theorem ClosedAtFee.of_unmade {r : Receipt} {feeBps : Nat}
    (h : ClosedAtFee c feeBps (unmade env r.pre r.call :: tr)) :
    ClosedAtFee c feeBps (r :: tr) := by
  rintro ⟨x, hx, hcloses⟩ y hy
  have hall : ∀ z ∈ unmade env r.pre r.call :: tr, z.ClaimsAtFee c feeBps := by
    rcases List.mem_cons.mp hx with rfl | hx
    · exact h ⟨_, List.mem_cons_self, hcloses⟩
    · exact h ⟨x, List.mem_cons_of_mem _ hx, hcloses⟩
  rcases List.mem_cons.mp hy with rfl | hy
  · exact hall (unmade env y.pre y.call) List.mem_cons_self
  · exact hall y (List.mem_cons_of_mem _ hy)

/-- The slice that is claimed next is still there. -/
theorem run_claim_kept (run : Run (machine host) tr cfg) (orderly : Orderly fees tr)
    (hcloses : ClosedAtFee c (fees c)
      (unmade env cfg.state (.claimMilestone c milestone.id) :: tr))
    (ha : (view cfg.state).account c = some a) (payable : a.Payable)
    (mem : milestone ∈ a.funds.milestones) (unclaimed : a.funds.claimed milestone.id = false)
    (pos : 0 < ((view cfg.state).milestonePay a milestone).creator)
    (currency : (view cfg.state).currency c = some token) :
    ((view cfg.state).milestonePay a milestone).fee +
      ((view cfg.state).milestonePay a milestone).creator ≤ keptFor c tr := by
  have sane := run_sane run
  obtain ⟨admin, hadmin⟩ := sane.administered
  -- the receipt that the claim would leave
  let r : Receipt := ⟨{ env with ledger := cfg.ledger }, .claimMilestone c milestone.id, cfg.state,
    { cfg.state with
      tokens.moved := claimTransfers token admin a.record.creator
        ((view cfg.state).milestonePay a milestone) }⟩
  have passage : Passage host c tr cfg r (.claimMilestone milestone.id) _
      (-(((view cfg.state).milestonePay a milestone).fee +
        ((view cfg.state).milestonePay a milestone).creator)) a (a.claimMilestone milestone.id) :=
    ⟨run, rfl, Nat.le_refl _, ha, sane.toConfigured, if_pos rfl, rfl,
      .claimed payable mem unclaimed pos currency hadmin⟩
  have hbound := passage.claims_le (hcloses.of_unmade (r := r)) rfl
  obtain ⟨-, -, -, -, -, -, hpays, -⟩ := passage.step.claim_pays rfl passage.phase passage.books
    passage.planned sane.toConfigured
  rw [milestonesPaid_cons passage.hact passage.hmoves] at hbound
  obtain ⟨hwithdraw, hrelease, -⟩ := (run_paidOnce run ha).unpaid (.inl payable.notWithdrawn)
  have hrevenue := (run_solid run orderly ha).revenue
  obtain ⟨books, hwhole⟩ := run_books run ha
  have heffective := books.effective_eq (hwhole.resolve_right payable.not_refundable)
  rw [run_keptFor run ha, hwithdraw, hrelease, heffective]
  omega

/-! ## The payments go through -/

theorem Outgoing.covers {paid : Address} {w : Tokens} (h : Outgoing paid outs)
    (hheld : (outs.map Transfer.amount).sum ≤ w.held paid) : w.Covers outs := by
  induction outs generalizing w with
  | nil => trivial
  | cons t rest ih =>
      obtain ⟨⟨htoken, hsender, hpos⟩, hrest⟩ := List.forall_mem_cons.mp h
      have hnonneg : 0 ≤ (rest.map Transfer.amount).sum :=
        List.sum_nonneg fun x hx => by
          obtain ⟨t', ht', rfl⟩ := List.mem_map.mp hx
          exact (hrest t' ht').2.2
      have hmoved : w.held paid - (if paid = t.token then t.amount else 0) ≤ (w.move t).held paid :=
        Tokens.held_out hsender hpos
      rw [if_pos htoken.symm] at hmoved
      rw [List.map_cons, List.sum_cons] at hheld
      refine ⟨?_, ih hrest (by omega)⟩
      rw [htoken, hsender]
      exact Int.le_trans (by omega) hheld

theorem claimTransfers_outgoing {admin creator : Address} {pay : MilestonePay}
    (hpos : 0 ≤ pay.creator) : Outgoing token (claimTransfers token admin creator pay) := by
  refine List.forall_mem_append.mpr ⟨fun t ht => ?_, ?_⟩
  · split at ht
    next hfee =>
        obtain rfl := List.mem_singleton.mp ht
        exact ⟨rfl, rfl, Int.le_of_lt hfee⟩
    next => cases ht
  · exact List.forall_mem_singleton.mpr ⟨rfl, rfl, hpos⟩

/-- A claim is paid out of what is held. -/
theorem View.Affords.of_held {admin creator : Address} {pay : MilestonePay}
    (currency : v.currency c = some token) (hadmin : v.admin.admin = some admin)
    (hfee : 0 ≤ pay.fee) (hcreator : 0 ≤ pay.creator)
    (hheld : pay.fee + pay.creator ≤ v.tokens.held token) : v.Affords c creator [pay] := by
  refine ⟨token, admin, currency, hadmin, ?_⟩
  have hsum : (([pay].flatMap (claimTransfers token admin creator)).map Transfer.amount).sum =
      totalOf [pay] := claimTransfers_sum (List.forall_mem_singleton.mpr ⟨hfee, hcreator⟩)
  rw [List.flatMap_singleton] at hsum ⊢
  refine (claimTransfers_outgoing hcreator).covers ?_
  rw [hsum, totalOf_cons, totalOf_nil, MilestonePay.total, Int.add_zero]
  exact hheld

theorem transfer_avoids (hpos : 0 ≤ amount) (hheld : amount ≤ s.tokens.balance token who) :
    Avoids Abort.InPayment (transfer s token who recipient amount) := by
  rw [transfer, if_neg (by omega)]
  exact .of_ok rfl

theorem getCampaignToken_avoids (currency : (view s).currency c = some token) :
    Avoids Abort.InPayment (getCampaignToken s c) :=
  .of_ok ((getCampaignToken_eq_ok s).mpr currency)

theorem getCreatorCampaign_avoids : Avoids Abort.InPayment (getCreatorCampaign env s c) :=
  .found id fun _ _ => .check id (.of_ok rfl)

theorem ceilShare_avoids {bps : Nat} : Avoids Abort.InPayment (ceilShare amount bps) :=
  .found id fun _ _ => .found id fun _ _ => .of_ok rfl

theorem withholdReserve_avoids {delayDays : Nat} :
    Avoids Abort.InPayment (withholdReserve env s c delayDays amount) :=
  .branch (.found id fun _ _ => .found id fun _ _ => .of_ok rfl) (.of_ok rfl)

theorem creatorShareTotal_avoids {pool : Int} {shareBps : Nat} :
    Avoids Abort.InPayment (creatorShareTotal pool shareBps) := .found id fun _ _ => .okOr id

theorem feeRecipientOf_avoids (hadmin : (view s).admin.admin = some who) :
    Avoids Abort.InPayment (feeRecipientOf s c) := by
  unfold feeRecipientOf
  split
  next => exact .of_ok rfl
  next => exact .of_ok (okOr_eq_ok.mpr hadmin)

/-- A payment out of what is held, to somebody in the currency of the campaign. -/
theorem payment_avoids (currency : (view s).currency c = some token) (hpos : 0 ≤ amount)
    (hheld : amount ≤ (view s).tokens.held token) :
    Avoids Abort.InPayment (getCampaignToken s c >>= fun token =>
      transfer s token contractAddress recipient amount) := by
  refine .bind (getCampaignToken_avoids currency) fun paid hpaid => ?_
  obtain rfl := Option.some.inj (currency.symm.trans ((getCampaignToken_eq_ok s).mp hpaid))
  exact transfer_avoids hpos hheld

theorem transfers_avoid {first second : Int} {other : Address} (hfirst : 0 ≤ first)
    (hsecond : 0 ≤ second) (hheld : first + second ≤ s.tokens.held token) :
    Avoids Abort.InPayment (transfer s token contractAddress recipient first >>= fun s =>
      transfer s token contractAddress other second) := by
  refine .bind (transfer_avoids hfirst ?_) fun s1 hs1 => transfer_avoids hsecond ?_
  · rw [← Tokens.held]
    omega
  · obtain ⟨-, -, rfl⟩ := transfer_eq_ok.mp hs1
    have hout : s.tokens.held token - (if token = token then first else 0) ≤ _ :=
      Tokens.held_out (t := ⟨token, contractAddress, recipient, first⟩) rfl hfirst
    rw [if_pos rfl] at hout
    exact Int.le_trans (by omega) hout

theorem withdrawFunds_avoids (ha : (view s).account c = some a)
    (currency : (view s).currency c = some token) (hadmin : (view s).admin.admin = some who)
    (hfee : 0 ≤ ((view s).split a).fee) (hcreator : 0 ≤ ((view s).split a).creator)
    (hheld : ((view s).split a).fee + ((view s).split a).creator ≤ (view s).tokens.held token) :
    Avoids Abort.InPayment (withdrawFunds env s c) := by
  obtain ⟨hrecord, hfunds⟩ := View.account_eq_some.mp ha
  have hvesting : vestingOf s c = (view s).vesting a := by
    rw [@vestingOf_view s c a.record, hfunds]
  unfold withdrawFunds
  refine .bind getCreatorCampaign_avoids fun campaign hcampaign => ?_
  obtain rfl : campaign = a.record := Option.some.inj
    ((View.account_eq_some.mp (getCreatorCampaign_spec hcampaign)).1.symm.trans hrecord)
  rw [hvesting]
  refine .check id <| .check id <| .check id <| .check id <| .check id <| .check id <|
    .check id <| .check id ?_
  refine .bind ceilShare_avoids fun fee hshare => .found id fun rest hrest => ?_
  obtain rfl := ceilShare_ok hshare
  obtain ⟨rfl, -⟩ := I128.checkedSub_eq_some.mp hrest
  refine .bind (x := ceilShare _ ((view s).vesting a).2) ceilShare_avoids fun reserve hreserve => ?_
  obtain rfl := ceilShare_ok hreserve
  refine .found id fun creator hrest => ?_
  obtain ⟨rfl, -⟩ := I128.checkedSub_eq_some.mp hrest
  refine .bind withholdReserve_avoids fun s1 hs1 => .found id fun _ _ => .found id fun total _ => ?_
  have hview := withholdReserve_view (a := a.close) (by simp [Account.close, hfunds]) hs1
  have hkept : (view (setTotalRaisedGlobal s1 total)).admin = (view s).admin ∧
      (view (setTotalRaisedGlobal s1 total)).currency c = (view s).currency c ∧
      (view (setTotalRaisedGlobal s1 total)).tokens = (view s).tokens := by
    rw [view_setTotalRaisedGlobal, hview]
    refine ⟨by simp, View.currency_congr ?_ ?_, by simp⟩
    · simp [Account.withhold, Account.close, hfunds]
    · simp
  generalize setTotalRaisedGlobal s1 total = s2 at hkept ⊢
  obtain ⟨hadmin', hcurrency, htokens⟩ := hkept
  refine .bind (feeRecipientOf_avoids (by rw [hadmin', hadmin])) fun recipient _ => ?_
  refine .bind (getCampaignToken_avoids (by rw [hcurrency, currency])) fun paid hpaid => ?_
  obtain rfl := Option.some.inj (currency.symm.trans
    (hcurrency.symm.trans ((getCampaignToken_eq_ok s2).mp hpaid)))
  exact transfers_avoid hfee hcreator (Int.le_trans hheld (by rw [← htokens]; exact Int.le_refl _))

theorem withdrawReserve_avoids {reserve : CampaignReserve}
    (ha : (view s).account c = some a) (hreserve : a.funds.reserve = some reserve)
    (currency : (view s).currency c = some token) (hpos : 0 ≤ reserve.amount)
    (hheld : reserve.amount ≤ (view s).tokens.held token) :
    Avoids Abort.InPayment (withdrawReserve env s c) := by
  have hstored : s.campaigns.campaignReserve c = some reserve := by
    rw [reserve_view, (View.account_eq_some.mp ha).2, hreserve]
  unfold withdrawReserve
  rw [hstored]
  refine .found id fun stored hsame => ?_
  obtain rfl := Option.some.inj hsame
  refine .check id <| .check id <| .check id <| .found id fun campaign _ => .check id <|
    .check id <| .found id fun total _ =>
      payment_avoids ((View.currency_congr ?_ ?_).trans currency) hpos (by simpa using hheld)
  · simp
  · simp

theorem claimCreatorRevenue_avoids (ha : (view s).account c = some a)
    (currency : (view s).currency c = some token)
    (hheld : a.creatorSide a.funds.pool - a.funds.creatorClaimed ≤ (view s).tokens.held token) :
    Avoids Abort.InPayment (claimCreatorRevenue env s c) := by
  obtain ⟨hrecord, hfunds⟩ := View.account_eq_some.mp ha
  have hpool : s.revenue.revenuePool c = a.funds.pool := by rw [pool_view, hfunds]
  have hclaimed : s.revenue.creatorRevenueClaimed c = a.funds.creatorClaimed := by
    rw [creatorClaimed_view, hfunds]
  unfold claimCreatorRevenue
  rw [hpool, hclaimed]
  refine .bind getCreatorCampaign_avoids fun campaign hcampaign => ?_
  obtain rfl : campaign = a.record := Option.some.inj
    ((View.account_eq_some.mp (getCreatorCampaign_spec hcampaign)).1.symm.trans hrecord)
  refine .check id <| .check id <| .check id <| .bind creatorShareTotal_avoids fun share hshare =>
    .found id fun claimable hclaimable => ?_
  obtain rfl : share = a.creatorSide a.funds.pool := creatorShareTotal_ok hshare
  obtain ⟨rfl, -⟩ := I128.checkedSub_eq_some.mp hclaimable
  refine .bind (fun _ h => (rejectIf_eq_error.mp h).2 ▸ id) fun _ hdue => .found id fun total _ =>
    payment_avoids ((View.currency_congr ?_ ?_).trans currency)
      (Int.le_of_lt (Int.not_le.mp (rejectIf_eq_ok.mp hdue))) (by simpa using hheld)
  · simp
  · simp

/-! ## The law -/

theorem Effect.token_known {v' : View} (h : Effect env v call v') (hknown : v.admin.token ≠ none) :
    v'.admin.token ≠ none := by
  rcases h.admin with hsame | ⟨store, hstep, hstore⟩
  · rwa [hsame]
  · rw [hstore]
    cases hstep with
    | accept => exact Option.some_ne_none _
    | _ => exact hknown

theorem run_tokenKnown (run : Run (machine host) tr cfg) : (view cfg.state).admin.token ≠ none := by
  refine run.invariant (I := fun _ cfg => (view cfg.state).admin.token ≠ none) ?_ ?_ ?_
  · rintro r cfg ⟨hvalid, -, ⟨admin, platform, platformFee, hcall⟩, rfl⟩
    have hinit := hvalid.dispatched
    rw [hcall] at hinit
    simp only [dispatch, init, bind_eq_ok, pure_eq_ok] at hinit
    obtain ⟨_, -, _, -, _, -, _, -, _, -, hpost⟩ := hinit
    rw [← hpost]
    exact Option.some_ne_none _
  · rintro tr cfg r cfg' run hknown ⟨hvalid, -, hpre, rfl⟩
    have conf := (run_sane run).toConfigured
    rw [← hpre] at hknown conf
    exact (hvalid.effect conf).token_known hknown
  · rintro tr cfg cfg' hknown ⟨tokens, -, rfl⟩
    exact hknown

/-- Every campaign has a currency. -/
theorem run_currency (run : Run (machine host) tr cfg) (c : Nat) :
    ∃ token, (view cfg.state).currency c = some token := by
  unfold View.currency
  split
  next token _ => exact ⟨token, rfl⟩
  next => exact Option.ne_none_iff_exists'.mp (run_tokenKnown run)

/-- The contract takes care of every token in which a campaign settles. -/
def CustodialInUse (tr : List Receipt) (s : State) : Prop :=
  ∀ c ∈ (view s).ids, ∀ token, (view s).currency c = some token → Custodial token tr

/-- A settlement of an orderly contract that meets its checks does not fail in its payment. -/
theorem settlement_avoids (run : Run (machine host) tr cfg) (typed : call.WellTyped)
    (hcustody : CustodialInUse tr cfg.state) (orderly : Orderly fees tr)
    (hcloses : ∀ c, ClosedAtFee c (fees c) (unmade env cfg.state call :: tr))
    (admissible : Admissible env cfg.state call) :
    Avoids Abort.InPayment (invoke env cfg.state call) := by
  have sane := run_sane run
  obtain ⟨admin, hadmin⟩ := sane.administered
  have hheld : ∀ {c a token}, (view cfg.state).account c = some a →
      (view cfg.state).currency c = some token →
      keptFor c tr ≤ (view cfg.state.clearMoved).tokens.held token :=
    fun ha currency => keptFor_le_held run orderly
      (hcustody _ (sane.mem_ids ha) _ currency) ha currency
  rw [invoke_eq typed]
  cases admissible with
  | @withdrawFunds c a ha checks =>
      obtain ⟨token, currency⟩ := run_currency run c
      have payout := run_payout run ha
      obtain ⟨hfee, hnet⟩ := ceilBps_bounds payout.raised.1 payout.feeBps
      obtain ⟨-, hcreator⟩ := ceilBps_within hnet payout.reserveBps
      exact withdrawFunds_avoids ha currency hadmin hfee hcreator (Int.le_trans
        (run_payout_kept run orderly ha checks.noPlan checks.payable) (hheld ha currency))
  | @withdrawReserve c a reserve ha checks =>
      obtain ⟨token, currency⟩ := run_currency run c
      have hpos := (run_reserves run ha).unreleased_nonneg
      rw [checks.held, unreleased, checks.unreleased, if_neg Bool.false_ne_true] at hpos
      exact withdrawReserve_avoids ha checks.held currency hpos (Int.le_trans
        (run_reserve_kept run orderly ha checks.held checks.unreleased checks.withdrawn)
        (hheld ha currency))
  | @claimRefund c a who ha checks =>
      obtain ⟨token, currency⟩ := run_currency run c
      have hkept := Int.le_trans ((run_books run ha).1.contribution_le_effective who)
        (run_effective_kept run orderly ha checks.refundable)
      refine (run_refund_gated run ha checks).avoids id fun abort hunpaid _ => ?_
      exact absurd (hunpaid.balance_lt currency)
        (Int.not_lt.mpr (Int.le_trans hkept (hheld ha currency)))
  | @claimMilestone c a milestone ha checks pos =>
      obtain ⟨token, currency⟩ := run_currency run c
      obtain ⟨shape, hraised, hle, hfee⟩ := run_slicing run ha (List.ne_nil_of_mem checks.mem)
      have slicing : (view cfg.state.clearMoved).Slicing a := ⟨shape, hraised, hle, hfee⟩
      have gated := slicing.gated ha ⟨checks.signed, checks.unpaused, checks.payable, checks.mem,
        checks.verified, checks.unclaimed⟩ pos
      have hfeePays := (payMilestone_sum shape checks.mem checks.unclaimed hraised hfee).1
      have hkept := run_claim_kept run orderly (hcloses c) ha checks.payable checks.mem
        checks.unclaimed pos currency
      exact gated.avoids id fun abort hshort _ => hshort.2 (.of_held currency hadmin hfeePays
        (Int.le_of_lt pos) (Int.le_trans hkept (hheld ha currency)))
  | @claimRevenue c a who ha checks undrawn =>
      obtain ⟨token, currency⟩ := run_currency run c
      have gated := claimRevenue_gated (s := cfg.state.clearMoved) ha
        ⟨checks.signed, checks.unpaused, checks.shares, checks.contributed⟩
        (run_claimable run ha checks.contributed undrawn) undrawn
      refine gated.avoids id fun abort hunpaid _ => ?_
      exact absurd (hunpaid.balance_lt currency)
        (Int.not_lt.mpr (Int.le_trans (run_share_kept run orderly ha) (hheld ha currency)))
  | @claimCreatorRevenue c a ha checks undrawn =>
      obtain ⟨token, currency⟩ := run_currency run c
      exact claimCreatorRevenue_avoids ha currency (Int.le_trans
        (run_creatorShare_kept run orderly ha) (hheld ha currency))

/-- While nothing is paid twice, a settlement that meets its checks goes through exactly
when the values it computes fit, whatever else has been settled before. -/
theorem settlements_paid_iff (run : Run (machine host) tr cfg) (typed : call.WellTyped)
    (hcustody : CustodialInUse tr cfg.state) (orderly : Orderly fees tr)
    (hcloses : ∀ c, ClosedAtFee c (fees c) (unmade env cfg.state call :: tr))
    (admissible : Admissible env cfg.state call) :
    (∃ s', invoke env cfg.state call = .ok s') ↔ SettlementFits env (view cfg.state) call :=
  (settlement_gated run typed admissible).goes_iff
    (settlement_avoids run typed hcustody orderly hcloses admissible)

/-- The acts that may overdraw what is kept for a campaign. -/
def Act.mayOverdraw : Act → Bool
  | .adminCancel | .claimMilestone _ | .claimRevenue _ | .deposit _ => true
  | _ => false

def Call.mayOverdraw : Call → Bool
  | .adminCancelCampaign .. | .claimMilestone .. | .claimRevenue .. | .depositRevenue .. => true
  | _ => false

theorem Call.act_of_not_overdraw (h : call.mayOverdraw = false) (c : Nat) :
    (call.act c).mayOverdraw = false := by
  cases call with
  | adminCancelCampaign | claimMilestone | claimRevenue | depositRevenue => cases h
  | _ =>
      dsimp only [Call.act]
      try split
      all_goals rfl

theorem Act.mayOverdraw_of_claim (h : act.isMilestoneClaim = true) : act.mayOverdraw = true := by
  cases act with
  | claimMilestone => rfl
  | _ => cases h

/-- Without such calls nothing is paid twice. -/
theorem orderly_of_none (h : ∀ r ∈ tr, r.call.mayOverdraw = false) : Orderly fees tr where
  cancels r hr c hact := by
    cases hact ▸ Call.act_of_not_overdraw (h r hr) c
  closes c := by
    rintro - r hr hclaim
    cases (Act.mayOverdraw_of_claim hclaim).symm.trans (Call.act_of_not_overdraw (h r hr) c)
  sweeps r hr c who a hact := by
    cases hact ▸ Call.act_of_not_overdraw (h r hr) c
  deposits r hr c amount a hact := by
    cases hact ▸ Call.act_of_not_overdraw (h r hr) c

/-- After a payout and a refund in two currencies the last contributor is refunded. -/
theorem settlements_paid_sample :
    ∃ tr cfg, Run (machine Sample.host) tr cfg ∧
      ∃ s', invoke (Sample.env 900001 Sample.bob) cfg.state
        (.claimRefund 2 Sample.bob) = .ok s' := by
  have h : Sample.Ends 300 Sample.twoTokens fun tr cfg =>
      (∀ c ∈ (view cfg.state).ids, (view cfg.state).currency c = some Sample.token ∨
        (view cfg.state).currency c = some Sample.newToken) ∧
      (∀ r ∈ tr, r.call.deploys = true → 0 ≤ r.pre.tokens.held Sample.token ∧
        0 ≤ r.pre.tokens.held Sample.newToken) ∧
      (∀ r ∈ tr, r.env.auth contractAddress = false) ∧
      (∀ r ∈ tr, r.call.migrates = false) ∧ (∀ r ∈ tr, r.call.mayOverdraw = false) ∧
      cfg.state.admin.paused = false ∧ cfg.state.admin.autoPaused = false ∧
      ∃ a ∈ (view cfg.state).account 2, a.record.deadline < 900001 ∧
        a.record.amountRaised < a.record.fundingGoal ∧ a.funds.contribution Sample.bob ≠ 0 ∧
        I128.InRange ((view cfg.state).totalRaised - a.funds.contribution Sample.bob) := by
    decide +kernel
  obtain ⟨tr, cfg, run, hcurrency, hstart, hparty, hmigrates, hplain, hpaused, hauto, a, ha,
    hlate, hmissed, contributed, hfits⟩ := h.run
  have hcustody : CustodialInUse tr cfg.state := by
    intro c hc token htoken
    have hempty := migratesEmpty_of_none hmigrates
    rcases hcurrency c hc with hsame | hsame
    · obtain rfl := Option.some.inj (htoken.symm.trans hsame)
      exact ⟨fun r hr hdeploys => (hstart r hr hdeploys).1, hparty, hempty⟩
    · obtain rfl := Option.some.inj (htoken.symm.trans hsame)
      exact ⟨fun r hr hdeploys => (hstart r hr hdeploys).2, hparty, hempty⟩
  have admissible : Admissible (Sample.env 900001 Sample.bob) cfg.state
      (.claimRefund 2 Sample.bob) :=
    .claimRefund ha ⟨by decide, ⟨hpaused, hauto⟩, .inr ⟨hlate, hmissed⟩, contributed⟩
  have orderly : Orderly (fun _ => 0)
      (unmade (Sample.env 900001 Sample.bob) cfg.state (.claimRefund 2 Sample.bob) :: tr) :=
    orderly_of_none (List.forall_mem_cons.mpr ⟨rfl, hplain⟩)
  have hpaid := settlements_paid_iff run (by decide) hcustody orderly.earlier orderly.closes
    admissible
  exact ⟨tr, cfg, run, hpaid.mpr ((forall_account ha).mpr fun _ => hfits)⟩

end ProofOfHeart
