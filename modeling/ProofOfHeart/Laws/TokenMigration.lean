import ProofOfHeart.Account.Terms
import ProofOfHeart.Laws.ActiveCount
import ProofOfHeart.Laws.EscrowCounter

/-! # Changing the platform token

The change is refused while a campaign is active or the escrow counter is not zero.
Together with the two counters being right this leaves nothing to be paid in the old
token, except refunds of cancelled campaigns, which the counter no longer holds.
-/

namespace ProofOfHeart

open Checked Function Trace

variable {host : Host} {tr : List Receipt} {cfg : Config} {c : Nat} {a a' : Account}
  {env : Env} {v v' : View} {call : Call} {act : Act} {moves : List Transfer} {delta : Int}

/-! ## The guard -/

/-- The platform token changes only when both counters are zero. -/
theorem Effect.token (h : Effect env v call v') : v'.admin.token = v.admin.token ∨
    ∃ admin, call = .acceptTokenUpdate admin ∧ v.activeCount = 0 ∧ v.totalRaised = 0 := by
  rcases h.admin with hsame | ⟨store, hstep, hstore⟩
  · exact .inl (by rw [hsame])
  · rw [hstore]
    cases hstep with
    | accept byAdmin pending released due idle settled => exact .inr ⟨_, rfl, idle, settled⟩
    | _ => exact .inl rfl

theorem Effect.accept_guard {admin : Address} (h : Effect env v (.acceptTokenUpdate admin) v') :
    v.activeCount = 0 ∧ v.totalRaised = 0 := by
  cases h with
  | administer h =>
      obtain ⟨store, hstep, -⟩ := h
      cases hstep with
      | accept byAdmin pending released due idle settled => exact ⟨idle, settled⟩
  | edit ha hedit =>
      cases hedit with
      | verify verifiable hcall => rcases hcall with h | h | ⟨ids, -, h⟩ <;> cases h
  | create hcall => rcases hcall with ⟨h, -⟩ | ⟨token, h, -⟩ <;> cases h
  | outside h => cases h

/-! ## What is owed -/

/-- The campaign may still have to pay its contributors or its creator. -/
def Account.Owing (a : Account) : Prop :=
  a.record.isActive = true ∨
    (a.record.isCancelled = true ∧ a.record.effectiveAmountRaised ≠ 0) ∨
    unreleased a.funds.reserve ≠ 0

/-- The change of token finds every cancelled campaign without a pinned token fully
refunded. -/
def Receipt.MigratesRefunded (r : Receipt) : Prop :=
  ∀ admin, r.call = .acceptTokenUpdate admin →
    ∀ c campaign, r.pre.campaigns.campaign c = some campaign → campaign.isCancelled = true →
      r.pre.campaigns.campaignToken c = none → campaign.effectiveAmountRaised = 0

/-- The conditions of the counter together with the refunds of cancelled campaigns. -/
structure MigratesSafely (terms : Nat → Int × Nat) (tr : List Receipt) : Prop
    extends CountsRight terms tr where
  refunded : ∀ r ∈ tr, r.MigratesRefunded

theorem MigratesSafely.earlier {terms : Nat → Int × Nat} {r : Receipt}
    (h : MigratesSafely terms (r :: tr)) : MigratesSafely terms tr :=
  ⟨h.toCountsRight.earlier, fun x hx => h.refunded x (List.mem_cons_of_mem _ hx)⟩

/-- Both counters zero: no active campaign and nothing held. -/
theorem run_idle {terms : Nat → Int × Nat} (run : Run (machine host) tr cfg)
    (hright : CountsRight terms tr) (hidle : (view cfg.state).activeCount = 0)
    (hsettled : (view cfg.state).totalRaised = 0) (ha : (view cfg.state).account c = some a) :
    a.record.isActive = false ∧ a.escrow (milestonesPaid c tr) = 0 := by
  have hmem := (run_sane run).mem_ids ha
  have hcount := run_activeCount run
  rw [hidle] at hcount
  have hnone := Finset.card_eq_zero.mp hcount.symm
  have hinactive : a.record.isActive = false := by
    by_contra hactive
    have hopen : c ∈ (view cfg.state).openIds := Finset.mem_filter.mpr
      ⟨hmem, (View.isOpen_of_account ha).trans (Bool.eq_true_of_not_eq_false hactive)⟩
    rw [hnone] at hopen
    cases hopen
  have hsum : ∑ other ∈ (view cfg.state).ids, escrow tr cfg.state other = 0 :=
    (run_counter run hright).symm.trans hsettled
  have hnonneg : ∀ other ∈ (view cfg.state).ids, 0 ≤ escrow tr cfg.state other :=
    fun other _ => run_escrow_nonneg run fun r hr => hright.cancels r hr other
  refine ⟨hinactive, ?_⟩
  rw [← escrow_eq ha]
  exact (Finset.sum_eq_zero_iff_of_nonneg hnonneg).mp hsum c hmem

/-- At the change of token a campaign without a pinned token owes nothing. -/
theorem run_accept {terms : Nat → Int × Nat} {r : Receipt} {admin : Address}
    (run : Run (machine host) tr cfg) (hvalid : r.Valid host) (hpre : r.pre = cfg.state)
    (hsafe : MigratesSafely terms (r :: tr)) (hcall : r.call = .acceptTokenUpdate admin)
    (ha : (view r.pre).account c = some a) (hunpinned : a.funds.token = none) : ¬ a.Owing := by
  have sane := run_sane run
  rw [← hpre] at sane
  have heffect := hvalid.effect sane.toConfigured
  rw [hcall] at heffect
  obtain ⟨hidle, hsettled⟩ := heffect.accept_guard
  obtain ⟨hinactive, hescrow⟩ := run_idle run hsafe.toCountsRight.earlier
    (hpre ▸ hidle) (hpre ▸ hsettled) (hpre ▸ ha)
  have phase := run_phase run (hpre ▸ ha)
  have reserves := run_reserves run (hpre ▸ ha)
  obtain ⟨hrecord, hfunds⟩ := View.account_eq_some.mp ha
  rintro (hactive | ⟨hcancelled, heffective⟩ | hreserve)
  · exact Bool.noConfusion (hinactive.symm.trans hactive)
  · refine heffective (hsafe.refunded r List.mem_cons_self admin hcall c a.record hrecord
      hcancelled ?_)
    rw [← hunpinned, ← hfunds]
    rfl
  · have hwithdrawn : a.record.fundsWithdrawn = true := by
      by_contra hopen
      rw [reserves.afterPayout (Bool.eq_false_of_not_eq_true hopen)] at hreserve
      exact hreserve rfl
    have hlive : a.record.isCancelled = false := by
      by_contra hcancelled
      have hopen := phase.exclusive (Bool.eq_true_of_not_eq_false hcancelled)
      exact Bool.noConfusion (hopen.symm.trans hwithdrawn)
    rw [Account.escrow, hlive, hwithdrawn, if_neg Bool.false_ne_true, if_pos rfl] at hescrow
    exact hreserve hescrow

/-- Nothing starts to be owed without being owed before, and what takes in or pays
out contributions is owed at the time. -/
theorem AccountStep.owing (h : AccountStep env v c act moves delta a a') (phase : a.Phase)
    (books : a.Books) (reserves : a.Reserves)
    (hafter : a'.Owing ∨ act.isContribution = true ∨ act.isRefund = true ∨ act.isRelease = true) :
    a.Owing := by
  cases h with
  | contributed nonempty pos accepts => exact .inl accepts.active
  | @refunded _ who token refundable pos currency =>
      by_cases hactive : a.record.isActive = true
      · exact .inl hactive
      · rcases phase.closed.mp (Bool.eq_false_of_not_eq_true hactive) with hcancelled | hpaid
        · have heffective := books.contribution_le_effective who
          exact .inr (.inl ⟨hcancelled, by omega⟩)
        · exact Bool.noConfusion ((refundable.unpaid phase).symm.trans hpaid)
  | withdrew payable => exact .inl (payable.active phase)
  | claimed payable => exact .inl (payable.active phase)
  | cancelled live => exact .inl live.active
  | adminCancelled live => exact .inl live.active
  | released hreserve unreleased' due withdrawn =>
      have hpos := reserves.positive _ hreserve
      refine .inr (.inr ?_)
      rw [hreserve, unreleased, unreleased', if_neg Bool.false_ne_true]
      exact ne_of_gt hpos
  | _ =>
      rcases hafter with h | h | h | h
      · exact h
      · cases h
      · cases h
      · cases h

theorem AccountStep.token_kept (h : AccountStep env v c act moves delta a a') :
    a'.funds.token = a.funds.token := congrArg Terms.token h.terms

/-! ## The token of a campaign -/

/-- While a campaign with a token of its own, or one that owes something, is looked
at, every contribution to it was made in its present token. -/
def SameToken (tr : List Receipt) (s : State) : Prop :=
  ∀ c a, (view s).account c = some a → (a.funds.token ≠ none ∨ a.Owing) →
    ∀ e ∈ tr, (e.call.act c).isContribution = true →
      (view e.pre).currency c = (view s).currency c

/-- One call keeps the token of a campaign that owes something afterwards. -/
theorem currency_kept {terms : Nat → Int × Nat} {r : Receipt} (run : Run (machine host) tr cfg)
    (hvalid : r.Valid host) (hpre : r.pre = cfg.state) (hsafe : MigratesSafely terms (r :: tr))
    (ha : (view r.pre).account c = some a) (ha' : (view r.post).account c = some a')
    (htoken : a'.funds.token = a.funds.token) (howing : a.funds.token ≠ none ∨ a.Owing) :
    (view r.post).currency c = (view r.pre).currency c := by
  have sane := run_sane run
  rw [← hpre] at sane
  have hfunds := (View.account_eq_some.mp ha).2
  have hfunds' := (View.account_eq_some.mp ha').2
  have hpinned : (view r.post).currency c = a.funds.token.or (view r.post).admin.token ∧
      (view r.pre).currency c = a.funds.token.or (view r.pre).admin.token := by
    unfold View.currency
    rw [hfunds, hfunds', htoken]
    cases a.funds.token <;> exact ⟨rfl, rfl⟩
  rw [hpinned.1, hpinned.2]
  rcases (hvalid.effect sane.toConfigured).token with hsame | ⟨admin, hcall, -⟩
  · rw [hsame]
    rfl
  · by_cases hnone : a.funds.token = none
    · exact absurd (howing.resolve_left (not_not.mpr hnone))
        (run_accept run hvalid hpre hsafe hcall ha hnone)
    · obtain ⟨token, hsome⟩ := Option.ne_none_iff_exists'.mp hnone
      rw [hsome]
      rfl

theorem run_sameToken {terms : Nat → Int × Nat} (run : Run (machine host) tr cfg)
    (hsafe : MigratesSafely terms tr) : SameToken tr cfg.state := by
  revert hsafe
  refine run.invariant (I := fun tr cfg => MigratesSafely terms tr → SameToken tr cfg.state)
    ?_ ?_ ?_
  · intro r cfg hstart _ c a ha
    rw [(start_fresh hstart).account_none] at ha
    cases ha
  · rintro tr cfg r cfg' run ih ⟨hvalid, hledger, hpre, rfl⟩ hsafe c a' ha' howing e he
      hcontribution
    have hbefore := ih hsafe.earlier
    have sane := run_sane run
    have habsent := run_absent run (c := c)
    rw [← hpre] at sane hbefore habsent
    have hstepped := hvalid.stepped sane
    cases hc : (view r.pre).account c with
    | none =>
        have hacts : ∀ x ∈ r :: tr, x.call.act c = .other :=
          List.forall_mem_cons.mpr ⟨(hstepped.free c hc).1, habsent hc⟩
        rw [hacts e he] at hcontribution
        cases hcontribution
    | some a =>
        obtain ⟨⟨delta, hraised, hexisting⟩, -, -⟩ := hstepped
        obtain ⟨b, hb, hstep⟩ := hexisting c a hc
        obtain rfl := Option.some.inj (hb.symm.trans ha')
        have phase := run_phase run (hpre ▸ hc)
        have books := (run_books run (hpre ▸ hc)).1
        have reserves := run_reserves run (hpre ▸ hc)
        have htoken := hstep.token_kept
        rw [htoken] at howing
        have howing' := howing.imp id fun h => hstep.owing phase books reserves (.inl h)
        rw [currency_kept run hvalid hpre hsafe hc ha' htoken howing']
        rcases List.mem_cons.mp he with rfl | he
        · rfl
        · exact hbefore c a hc howing' e he hcontribution
  · rintro tr cfg cfg' ih ⟨tokens, -, rfl⟩ hsafe
    exact ih hsafe

/-- A refund or a release pays in the token in which the contributions came. -/
def PaysReceived (c : Nat) (later earlier : Receipt) : Prop :=
  ((later.call.act c).isRefund = true ∨ (later.call.act c).isRelease = true) →
    (earlier.call.act c).isContribution = true →
      ∀ move ∈ later.post.tokens.moved, getCampaignToken earlier.pre c = .ok move.token

theorem AccountStep.pays_currency (h : AccountStep env v c act moves delta a a')
    (hact : act.isRefund = true ∨ act.isRelease = true) :
    ∀ move ∈ moves, v.currency c = some move.token := by
  cases h with
  | refunded refundable pos currency =>
      intro move hmove
      rw [List.mem_singleton.mp hmove]
      exact currency
  | released hreserve unreleased' due withdrawn currency =>
      intro move hmove
      rw [List.mem_singleton.mp hmove]
      exact currency
  | _ => rcases hact with h | h <;> cases h

theorem run_paysReceived {terms : Nat → Int × Nat} (run : Run (machine host) tr cfg)
    (hsafe : MigratesSafely terms tr) (c : Nat) : tr.Pairwise (PaysReceived c) := by
  revert hsafe
  refine run.invariant (I := fun tr _ => MigratesSafely terms tr → tr.Pairwise (PaysReceived c))
    (fun _ _ _ _ => List.pairwise_singleton _ _) ?_ (fun _ _ _ ih _ => ih)
  rintro tr cfg r cfg' run ih ⟨hvalid, hledger, hpre, rfl⟩ hsafe
  refine List.pairwise_cons.mpr ⟨fun e he hpays hcontribution move hmove => ?_, ih hsafe.earlier⟩
  have sane := run_sane run
  have hsame := run_sameToken run hsafe.earlier
  rw [← hpre] at sane hsame
  have hstepped := hvalid.stepped sane
  cases hc : (view r.pre).account c with
  | none =>
      rw [(hstepped.free c hc).1] at hpays
      rcases hpays with h | h <;> cases h
  | some a =>
      obtain ⟨⟨delta, hraised, hexisting⟩, -, -⟩ := hstepped
      obtain ⟨a', ha', hstep⟩ := hexisting c a hc
      have phase := run_phase run (hpre ▸ hc)
      have books := (run_books run (hpre ▸ hc)).1
      have reserves := run_reserves run (hpre ▸ hc)
      have howing := hstep.owing phase books reserves (.inr (.inr hpays))
      rw [getCampaignToken_eq_ok, hsame c a hc (.inr howing) e he hcontribution]
      exact hstep.pays_currency hpays move hmove

/-- At a change of token no campaign without a pinned token has a contribution to
refund or a reserve to release. -/
def MigratesSettled (r : Receipt) : Prop :=
  ∀ admin, r.call = .acceptTokenUpdate admin →
    ∀ c campaign, r.pre.campaigns.campaign c = some campaign →
      r.pre.campaigns.campaignToken c = none →
      (∀ who, r.pre.contributions.contribution c who ≠ 0 → ¬ (campaign.isCancelled = true ∨
        (campaign.deadline < r.env.timestamp ∧ campaign.amountRaised < campaign.fundingGoal))) ∧
      ∀ reserve, r.pre.campaigns.campaignReserve c = some reserve → reserve.released = true

theorem run_migratesSettled {terms : Nat → Int × Nat} (run : Run (machine host) tr cfg)
    (hsafe : MigratesSafely terms tr) : ∀ r ∈ tr, MigratesSettled r := by
  revert hsafe
  refine run.invariant (I := fun tr _ => MigratesSafely terms tr → ∀ r ∈ tr, MigratesSettled r)
    ?_ ?_ (fun _ _ _ ih _ => ih)
  · rintro r cfg ⟨-, -, ⟨admin, token, platformFee, hinit⟩, -⟩ - x hx admin' hcall
    rw [List.mem_singleton.mp hx, hinit] at hcall
    cases hcall
  · rintro tr cfg r cfg' run ih ⟨hvalid, hledger, hpre, rfl⟩ hsafe x hx
    rcases List.mem_cons.mp hx with rfl | hx
    · intro admin hcall c campaign hcampaign hunpinned
      have ha := View.account_of_campaign (v := view x.pre) hcampaign
      have hidle := run_accept run hvalid hpre hsafe hcall ha hunpinned
      have hrun := ha
      rw [hpre] at hrun
      have phase := run_phase run hrun
      have books := (run_books run hrun).1
      have reserves := run_reserves run hrun
      rw [← hpre] at phase books reserves
      refine ⟨fun who hwho hopen => hidle ?_, fun reserve hreserve => ?_⟩
      · have hnonneg := books.contribution_nonneg who
        have heffective := books.contribution_le_effective who
        have hne : ((view x.pre).funds c).contribution who ≠ 0 := hwho
        have refundable : Account.Refundable ⟨campaign, (view x.pre).funds c⟩ x.env.timestamp :=
          hopen
        by_cases hactive : campaign.isActive = true
        · exact .inl hactive
        · rcases phase.closed.mp (Bool.eq_false_of_not_eq_true hactive) with hcancelled | hpaid
          · refine .inr (.inl ⟨hcancelled, ?_⟩)
            dsimp only at hnonneg heffective ⊢
            omega
          · exact Bool.noConfusion ((refundable.unpaid phase).symm.trans hpaid)
      · by_contra hunreleased
        have hpos := reserves.positive reserve hreserve
        refine hidle (.inr (.inr ?_))
        have hfunds : ((view x.pre).funds c).reserve = some reserve := hreserve
        dsimp only
        rw [hfunds, unreleased, if_neg hunreleased]
        exact ne_of_gt hpos
    · exact ih hsafe.earlier x hx

/-! ## Runs that meet the conditions -/

theorem run_uncancelled (run : Run (machine host) tr cfg)
    (hnone : ∀ r ∈ tr, r.call.act c ≠ .cancel ∧ r.call.act c ≠ .adminCancel)
    (ha : (view cfg.state).account c = some a) : a.record.isCancelled = false := by
  refine account_run (C := fun r => r.call.act c ≠ .cancel ∧ r.call.act c ≠ .adminCancel)
    (I := fun _ _ a => a.record.isCancelled = false) ?_ ?_ run hnone ha
  · intro tr r a hacts hborn
    cases hborn
    rfl
  · intro tr cfg r act moves delta a a' passage _ hr ih
    rw [passage.hact] at hr
    cases passage.step with
    | contributed =>
        rw [Account.contributeAll_record]
        exact ih
    | claimed =>
        rw [Account.claimMilestone_record]
        exact ih
    | cancelled => exact absurd rfl hr.1
    | adminCancelled => exact absurd rfl hr.2
    | _ => exact ih

/-- Without cancellations the token changes under the second condition. -/
theorem run_migratesRefunded (run : Run (machine host) tr cfg)
    (hnone : ∀ r ∈ tr, ∀ c, r.call.act c ≠ .cancel ∧ r.call.act c ≠ .adminCancel) :
    ∀ r ∈ tr, r.MigratesRefunded := by
  revert hnone
  refine run.invariant (I := fun tr _ => (∀ r ∈ tr, ∀ c, r.call.act c ≠ .cancel ∧
    r.call.act c ≠ .adminCancel) → ∀ r ∈ tr, r.MigratesRefunded) ?_ ?_ ?_
  · rintro r cfg ⟨-, -, ⟨admin, token, platformFee, hinit⟩, -⟩ - x hx admin' hcall
    rw [List.mem_singleton.mp hx, hinit] at hcall
    cases hcall
  · rintro tr cfg r cfg' run ih ⟨-, -, hpre, -⟩ hnone
    obtain ⟨-, hearlier⟩ := List.forall_mem_cons.mp hnone
    refine List.forall_mem_cons.mpr ⟨fun admin hcall c campaign hcampaign hcancelled => ?_,
      ih hearlier⟩
    rw [hpre] at hcampaign
    have hlive := run_uncancelled run (fun x hx => hearlier x hx c)
      (View.account_of_campaign hcampaign)
    exact Bool.noConfusion (hlive.symm.trans hcancelled)
  · intro tr cfg cfg' ih _
    exact ih

/-! ## The law -/

/-- While the counters are right and every cancelled campaign without a pinned token
is fully refunded when the token changes, nothing is left owed in the old token, and
refunds and releases pay in the token in which the contributions came. -/
theorem tokenMigration_safe {terms : Nat → Int × Nat} (run : Run (machine host) tr cfg)
    (hcancels : ∀ r ∈ tr, ∀ c, r.CancelsWhole c)
    (hcloses : ∀ c, ClosedUnder c (terms c).1 (terms c).2 tr)
    (hrefunded : ∀ r ∈ tr, r.MigratesRefunded) :
    (∀ r ∈ tr, MigratesSettled r) ∧ ∀ c, tr.Pairwise (PaysReceived c) := by
  have hsafe : MigratesSafely terms tr := ⟨⟨hcancels, hcloses⟩, hrefunded⟩
  exact ⟨run_migratesSettled run hsafe, run_paysReceived run hsafe⟩

/-- The admin proposes another token and accepts it after the delay. -/
def Sample.migration : List Request :=
  [ask 100 admin (.proposeTokenUpdate admin newToken),
    ask 700000 admin (.acceptTokenUpdate admin)]

theorem tokenMigration_sample :
    ∃ tr cfg, Run (machine Sample.host) tr cfg ∧
      (∃ r ∈ tr, r.call = .acceptTokenUpdate Sample.admin) ∧ ∀ r ∈ tr, MigratesSettled r := by
  have h : Sample.Ends 300 (Sample.halfPaid ++
      [Sample.ask 3 Sample.creator (.claimMilestone 1 1)] ++ Sample.migration) fun tr _ =>
      (∃ r ∈ tr, r.call = .acceptTokenUpdate Sample.admin) ∧
        ∀ r ∈ tr, r.call.settlesOnly 1 = true ∧ r.ClaimsUnder 1 100000 300 := by
    decide +kernel
  obtain ⟨tr, cfg, run, haccept, honly⟩ := h.run
  have hright := countsRight_of_settlesOnly honly
  have hrefunded := run_migratesRefunded run fun r hr c =>
    Call.settlesOnly.not_cancel (honly r hr).1 c
  exact ⟨tr, cfg, run, haccept,
    (tokenMigration_safe run hright.cancels hright.closes hrefunded).1⟩

/-- A cancellation empties both counters while a contribution is still to be refunded. -/
def Sample.cancelled : List Request :=
  opened 0 ++ [ask 1 alice (.contribute 1 alice 30000), ask 2 creator (.cancelCampaign 1)]

theorem tokenMigration_unrefunded :
    ∃ tr cfg, Run (machine Sample.host) tr cfg ∧
      ∃ r ∈ tr, r.call = .acceptTokenUpdate Sample.admin ∧ ¬ MigratesSettled r := by
  have h : Sample.Ends 0 (Sample.cancelled ++ Sample.migration) fun tr _ =>
      ∃ r ∈ tr, r.call = .acceptTokenUpdate Sample.admin ∧
        (r.pre.campaigns.campaign 1).map Campaign.isCancelled = some true ∧
        r.pre.campaigns.campaignToken 1 = none ∧
        r.pre.contributions.contribution 1 Sample.alice = 30000 := by
    decide +kernel
  obtain ⟨tr, cfg, run, r, hr, hcall, hcampaign, htoken, hcontribution⟩ := h.run
  obtain ⟨campaign, hcampaign, hcancelled⟩ := Option.map_eq_some_iff.mp hcampaign
  refine ⟨tr, cfg, run, r, hr, hcall, fun hsettled => ?_⟩
  exact (hsettled Sample.admin hcall 1 campaign hcampaign htoken).1 Sample.alice
    (by rw [hcontribution]; decide) (.inl hcancelled)

end ProofOfHeart
