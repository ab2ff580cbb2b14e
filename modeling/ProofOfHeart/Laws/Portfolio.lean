import ProofOfHeart.Laws.Arithmetic
import ProofOfHeart.Laws.TokenMigration
import ProofOfHeart.Queries

/-! # The portfolio of a contributor and refunds

The portfolio works out for itself whether a refund is open, and agrees with the
checks of `claim_refund`. An open refund stays open until it is claimed; whether it is
paid depends besides on what the contract holds in the token of the campaign.
-/

namespace ProofOfHeart

open Checked Function Trace

variable {host : Host} {tr later : List Receipt} {cfg cfg' : Config} {c : Nat} {a a' : Account}
  {env : Env} {s s' : State} {v : View} {act : Act} {moves : List Transfer} {delta : Int}
  {who : Address} {e : PortfolioEntry}

/-! ## Entries -/

theorem portfolioEntry_spec (h : portfolioEntry s env who c = some e) :
    ∃ a, (view s).account c = some a ∧ a.funds.contribution who ≠ 0 ∧ e.campaignId = c ∧
      e.amount = a.funds.contribution who ∧ e.status = .of a.record ∧
      (e.refundable = true ↔ a.Refundable env.timestamp) := by
  unfold portfolioEntry at h
  dsimp only at h
  split at h
  next hzero => cases h
  next hamount =>
      obtain ⟨campaign, hcampaign, rfl⟩ := Option.map_eq_some_iff.mp h
      refine ⟨_, View.account_of_campaign (v := view s) hcampaign, hamount, rfl, rfl, rfl, ?_⟩
      simp [Account.Refundable]

theorem portfolioEntry_of (ha : (view s).account c = some a)
    (hamount : a.funds.contribution who ≠ 0) : ∃ e, portfolioEntry s env who c = some e := by
  obtain ⟨hrecord, hfunds⟩ := View.account_eq_some.mp ha
  unfold portfolioEntry
  rw [contribution_view, hfunds, if_neg hamount, campaign_view, hrecord]
  exact ⟨_, rfl⟩

theorem portfolioEntry_congr (hcampaign : s'.campaigns.campaign c = s.campaigns.campaign c)
    (hamount : s'.contributions.contribution c who = s.contributions.contribution c who) :
    portfolioEntry s' env who c = portfolioEntry s env who c := by
  rw [portfolioEntry, portfolioEntry, hcampaign, hamount]

theorem portfolioEntry_id (h : portfolioEntry s env who c = some e) : e.campaignId = c := by
  obtain ⟨_, -, -, hid, -⟩ := portfolioEntry_spec h
  exact hid

/-- In a run every entry is the one of its own campaign. -/
theorem mem_portfolio (run : Run (machine host) tr cfg) :
    e ∈ getContributorPortfolio cfg.state env who ↔
      portfolioEntry cfg.state env who e.campaignId = some e := by
  unfold getContributorPortfolio
  rw [List.mem_filterMap]
  constructor
  · rintro ⟨id, -, hentry⟩
    rw [portfolioEntry_id hentry]
    exact hentry
  · intro hentry
    refine ⟨e.campaignId, ?_, hentry⟩
    obtain ⟨a, ha, -⟩ := portfolioEntry_spec hentry
    obtain ⟨hpos, hle⟩ := ((run_sane run).exists_iff _).mp ⟨a, ha⟩
    rw [List.mem_range'_1, campaignCount_view]
    omega

/-- Exactly the contributions that are not zero, by ascending number. -/
structure Lists (s : State) (who : Address) (entries : List PortfolioEntry) : Prop where
  ascending : (entries.map PortfolioEntry.campaignId).Pairwise (· < ·)
  exact : ∀ id amount, (∃ e ∈ entries, e.campaignId = id ∧ e.amount = amount) ↔
    amount ≠ 0 ∧ s.contributions.contribution id who = amount

theorem portfolio_ascending :
    ((getContributorPortfolio s env who).map PortfolioEntry.campaignId).Pairwise (· < ·) := by
  have hsub : (getContributorPortfolio s env who).map PortfolioEntry.campaignId =
      (List.range' 1 s.campaigns.campaignCount).filter
        fun id => (portfolioEntry s env who id).isSome := by
    unfold getContributorPortfolio
    rw [List.map_filterMap, ← List.filterMap_eq_filter]
    refine List.filterMap_congr fun id _ => ?_
    cases hentry : portfolioEntry s env who id with
    | none => simp [Option.guard, hentry]
    | some e => simp [Option.guard, hentry, portfolioEntry_id hentry]
  rw [hsub]
  exact List.Pairwise.filter _ List.pairwise_lt_range'

theorem run_lists (run : Run (machine host) tr cfg) :
    Lists cfg.state who (getContributorPortfolio cfg.state env who) := by
  refine ⟨portfolio_ascending, fun id amount => ⟨?_, ?_⟩⟩
  · rintro ⟨e, he, rfl, rfl⟩
    obtain ⟨a, ha, hamount, -, hsame, -⟩ := portfolioEntry_spec ((mem_portfolio run).mp he)
    rw [hsame, contribution_view, (View.account_eq_some.mp ha).2]
    exact ⟨hamount, rfl⟩
  · rintro ⟨hamount, rfl⟩
    rw [contribution_view] at hamount ⊢
    cases ha : (view cfg.state).account id with
    | none =>
        rw [(run_sane run).blank id ha] at hamount
        exact absurd rfl hamount
    | some a =>
        rw [(View.account_eq_some.mp ha).2] at hamount ⊢
        obtain ⟨e, hentry⟩ : ∃ e, portfolioEntry cfg.state env who id = some e :=
          portfolioEntry_of ha hamount
        obtain ⟨b, hb, -, hid, hsame, -⟩ := portfolioEntry_spec hentry
        obtain rfl := Option.some.inj (ha.symm.trans hb)
        exact ⟨e, (mem_portfolio run).mpr (hid ▸ hentry), hid, hsame⟩

/-! ## The checks of a refund -/

/-- `claim_refund` is not turned away: it fails, if at all, in what it computes or pays. -/
def PassesChecks (env : Env) (s : State) (c : Nat) (who : Address) : Prop :=
  ∀ abort, invoke env s (.claimRefund c who) = .error abort →
    abort = .err .overflow ∨ abort.InPayment

theorem claimRefund_closed (ha : (view s).account c = some a) (signed : env.auth who = true)
    (unpaused : s.admin.paused = false ∧ s.admin.autoPaused = false)
    (hclosed : ¬ a.Refundable env.timestamp) :
    claimRefund env s c who = .error (.err .validationFailed) := by
  have hrecord : s.campaigns.campaign c = some a.record := (View.account_eq_some.mp ha).1
  have hrefused : ¬ (a.record.isCancelled ∨ failedDueToGoal env a.record) := hclosed
  refine bind_eq_error.mpr (.inr ⟨(), requireAuth_eq_ok.mpr signed, ?_⟩)
  refine bind_eq_error.mpr (.inr ⟨(), requireNotPaused_eq_ok.mpr unpaused, ?_⟩)
  refine bind_eq_error.mpr (.inr ⟨a.record, okOr_eq_ok.mpr hrecord, ?_⟩)
  exact bind_eq_error.mpr (.inl (rejectIf_eq_error.mpr ⟨hrefused, rfl⟩))

theorem run_passesChecks_iff (run : Run (machine host) tr cfg)
    (ha : (view cfg.state).account c = some a) (signed : env.auth who = true)
    (unpaused : cfg.state.admin.paused = false ∧ cfg.state.admin.autoPaused = false)
    (contributed : a.funds.contribution who ≠ 0) :
    PassesChecks env cfg.state c who ↔ a.Refundable env.timestamp := by
  have typed : (Call.claimRefund c who).WellTyped := run_isU32 run (View.account_eq_some.mp ha).1
  unfold PassesChecks
  rw [invoke_eq typed]
  constructor
  · intro passes
    by_contra hclosed
    rcases passes _ (claimRefund_closed (s := cfg.state.clearMoved) ha signed unpaused hclosed)
      with h | h <;> cases h
  · intro hopen abort habort
    have gated := run_refund_gated run ha ⟨signed, unpaused, hopen, contributed⟩
    by_cases hfits : a.record.isCancelled = false →
        I128.InRange ((view cfg.state).totalRaised - a.funds.contribution who)
    · exact .inr (gated.remains hfits abort habort).inPayment
    · exact .inl (Except.error.inj (habort.symm.trans (gated.fails hfits)))

/-! ## The payment -/

/-- A refund goes through exactly when the counter and the tokens held allow it. -/
theorem run_refund_iff (run : Run (machine host) tr cfg)
    (ha : (view cfg.state).account c = some a) (checks : RefundDue env cfg.state a who) :
    (∃ s', claimRefund env cfg.state.clearMoved c who = .ok s') ↔
      (a.record.isCancelled = false →
        I128.InRange ((view cfg.state).totalRaised - a.funds.contribution who)) ∧
      ∃ token, (view cfg.state).currency c = some token ∧
        a.funds.contribution who ≤ (view cfg.state).tokens.balance token contractAddress := by
  have gated := run_refund_gated run ha checks
  constructor
  · rintro ⟨s', hpaid⟩
    refine ⟨by_contra fun hfits => ?_, ?_⟩
    · rw [gated.fails hfits] at hpaid
      cases hpaid
    · obtain ⟨b, token, hb, -, -, currency, hbalance, -⟩ := claimRefund_spec hpaid
      obtain rfl := Option.some.inj (ha.symm.trans hb)
      exact ⟨token, currency, hbalance⟩
  · rintro ⟨hfits, token, currency, hbalance⟩
    cases hresult : claimRefund env cfg.state.clearMoved c who with
    | ok s' => exact ⟨s', rfl⟩
    | error abort =>
        have hshort := (gated.remains hfits abort hresult).balance_lt currency
        exact absurd hshort (Int.not_lt.mpr hbalance)

/-- Without the entry of one campaign. -/
theorem portfolio_without (hcount : s'.campaigns.campaignCount = s.campaigns.campaignCount)
    (hgone : s'.contributions.contribution c who = 0)
    (hothers : ∀ id, id ≠ c → s'.campaigns.campaign id = s.campaigns.campaign id ∧
      s'.contributions.contribution id who = s.contributions.contribution id who) :
    getContributorPortfolio s' env who =
      (getContributorPortfolio s env who).filter fun e => e.campaignId ≠ c := by
  unfold getContributorPortfolio
  rw [hcount, List.filter_filterMap]
  refine List.filterMap_congr fun id _ => ?_
  by_cases hid : id = c
  · subst hid
    have hnone : portfolioEntry s' env who id = none := by
      rw [portfolioEntry, hgone]
      rfl
    rw [hnone]
    cases hentry : portfolioEntry s env who id with
    | none => rfl
    | some e => simp [Option.filter, portfolioEntry_id hentry]
  · rw [portfolioEntry_congr (hothers id hid).1 (hothers id hid).2]
    cases hentry : portfolioEntry s env who id with
    | none => rfl
    | some e => simp [Option.filter, portfolioEntry_id hentry, hid]

/-- The refund pays the amount of the entry, and of the next portfolio exactly this
entry is missing. -/
def Pays (env : Env) (s : State) (who : Address) (e : PortfolioEntry) : Prop :=
  ∃ s' token, invoke env s (.claimRefund e.campaignId who) = .ok s' ∧
    getCampaignToken s e.campaignId = .ok token ∧
    s'.tokens.moved = [⟨token, contractAddress, who, e.amount⟩] ∧
    ∀ env', getContributorPortfolio s' env' who =
      (getContributorPortfolio s env' who).filter fun other => other.campaignId ≠ e.campaignId

theorem claimRefund_pays (ha : (view s).account c = some a)
    (hpaid : claimRefund env s.clearMoved c who = .ok s') :
    ∃ token, getCampaignToken s c = .ok token ∧
      s'.tokens.moved = [⟨token, contractAddress, who, a.funds.contribution who⟩] ∧
      ∀ env', getContributorPortfolio s' env' who =
        (getContributorPortfolio s env' who).filter fun other => other.campaignId ≠ c := by
  obtain ⟨b, token, hb, -, -, currency, -, hview⟩ := claimRefund_spec hpaid
  obtain rfl := Option.some.inj (ha.symm.trans hb)
  refine ⟨token, (getCampaignToken_eq_ok s).mpr currency, ?_, fun env' => ?_⟩
  · exact congrArg (fun v : View => v.tokens.moved) hview
  · refine portfolio_without (congrArg View.campaignCount hview) ?_ fun id hid => ⟨?_, ?_⟩
    · rw [contribution_view, hview]
      simp [View.setAccount, Account.refund]
    · rw [campaign_view, hview]
      simp [View.setAccount, hid]
      rfl
    · rw [contribution_view, hview]
      simp [View.setAccount, hid]
      rfl

/-- The tokens and the counter allow the refund of an entry. -/
structure RefundCovered (s : State) (e : PortfolioEntry) : Prop where
  counted : e.status ≠ .cancelled → I128.InRange (s.contributions.totalRaised - e.amount)
  held : ∃ token, getCampaignToken s e.campaignId = .ok token ∧
    e.amount ≤ s.tokens.balance token contractAddress

theorem PortfolioStatus.of_eq_cancelled {campaign : Campaign} :
    PortfolioStatus.of campaign = .cancelled ↔ campaign.isCancelled = true := by
  unfold PortfolioStatus.of
  split
  next h => simp [h]
  next h => split <;> (try split) <;> (try split) <;> simp [h]

theorem run_pays_iff (run : Run (machine host) tr cfg) (signed : env.auth who = true)
    (unpaused : cfg.state.admin.paused = false ∧ cfg.state.admin.autoPaused = false)
    (he : e ∈ getContributorPortfolio cfg.state env who) (hopen : e.refundable = true) :
    Pays env cfg.state who e ↔ RefundCovered cfg.state e := by
  obtain ⟨a, ha, contributed, -, hamount, hstatus, hmark⟩ :=
    portfolioEntry_spec ((mem_portfolio run).mp he)
  have typed : (Call.claimRefund e.campaignId who).WellTyped :=
    run_isU32 run (View.account_eq_some.mp ha).1
  have hiff := run_refund_iff run ha ⟨signed, unpaused, hmark.mp hopen, contributed⟩
  have hcovered : RefundCovered cfg.state e ↔ (a.record.isCancelled = false →
        I128.InRange ((view cfg.state).totalRaised - a.funds.contribution who)) ∧
      ∃ token, (view cfg.state).currency e.campaignId = some token ∧
        a.funds.contribution who ≤ (view cfg.state).tokens.balance token contractAddress := by
    simp only [← getCampaignToken_eq_ok]
    rw [← hamount]
    have hlive : e.status ≠ .cancelled ↔ a.record.isCancelled = false := by
      rw [hstatus, Ne, PortfolioStatus.of_eq_cancelled, Bool.not_eq_true]
    exact ⟨fun h => ⟨fun hnot => h.counted (hlive.mpr hnot), h.held⟩,
      fun h => ⟨fun hnot => h.1 (hlive.mp hnot), h.2⟩⟩
  rw [hcovered, ← hiff, Pays, invoke_eq typed]
  constructor
  · rintro ⟨s', -, hpaid, -⟩
    exact ⟨s', hpaid⟩
  · rintro ⟨s', hpaid⟩
    obtain ⟨token, htoken, hmoved, hnext⟩ := claimRefund_pays ha hpaid
    exact ⟨s', token, hpaid, htoken, by rw [hamount]; exact hmoved, hnext⟩

/-! ## Open refunds stay open -/

theorem Call.act_of_not_refund {call : Call} (h : call ≠ .claimRefund c who) :
    call.act c ≠ .refund who := by
  cases call with
  | claimRefund id other =>
      dsimp only [Call.act]
      split
      next hid =>
          rintro heq
          obtain rfl := Act.refund.inj heq
          exact h (by rw [hid])
      next => exact Act.noConfusion
  | _ =>
      dsimp only [Call.act]
      first
      | exact Act.noConfusion
      | (split <;> exact Act.noConfusion)

/-- While refunds are open only the contributor's own refund changes a contribution. -/
theorem AccountStep.contribution_kept (h : AccountStep env v c act moves delta a a')
    (phase : a.Phase) {now : Nat} (time : now ≤ env.timestamp) (hopen : a.Refundable now)
    (hact : act ≠ .refund who) : a'.funds.contribution who = a.funds.contribution who := by
  have hrefuses := mt (h.not_refundable phase time) (not_not_intro hopen)
  cases h with
  | contributed => exact absurd rfl hrefuses
  | refunded =>
      refine update_of_ne (fun hsame => hact ?_) _ _
      rw [hsame]
  | claimed => exact absurd rfl hrefuses
  | _ => rfl

/-- A refund of `amount` to `who` is open at `now`. -/
def OpenRefund (c : Nat) (who : Address) (amount : Int) (now : Nat) (s : State) : Prop :=
  ∃ a, (view s).account c = some a ∧ a.funds.contribution who = amount ∧ a.Refundable now

/-- The same amount stays open whatever else is called. -/
theorem run_openRefund {amount : Int} {now : Nat} (run : Run (machine host) tr cfg)
    (hdue : OpenRefund c who amount now cfg.state) (onward : Onward (machine host) cfg later cfg')
    (hlater : ∀ r ∈ later, now ≤ r.env.timestamp ∧ r.call ≠ .claimRefund c who) :
    OpenRefund c who amount (max now cfg'.ledger.timestamp) cfg'.state := by
  refine run.onward (I := fun cfg =>
    OpenRefund c who amount (max now cfg.ledger.timestamp) cfg.state) ?_ ?_ ?_ onward hlater
  · obtain ⟨a, ha, hamount, hopen⟩ := hdue
    exact ⟨a, ha, hamount, hopen.later (Nat.le_max_left _ _)⟩
  · rintro tr cfg r cfg' run ⟨a, ha, hamount, hopen⟩ ⟨htime, hcall⟩ ⟨hvalid, hledger, hpre, rfl⟩
    have sane := run_sane run
    have phase := run_phase run ha
    rw [← hpre] at sane ha
    obtain ⟨delta, -, hexisting⟩ := (hvalid.stepped sane).existing
    obtain ⟨a', ha', hstep⟩ := hexisting c a ha
    have time : max now cfg.ledger.timestamp ≤ r.env.timestamp := Nat.max_le.mpr ⟨htime, hledger.1⟩
    refine ⟨a', ha', ?_, (hstep.refundable phase time hopen).later (Nat.le_max_right _ _)⟩
    rw [hstep.contribution_kept phase time hopen (Call.act_of_not_refund hcall), hamount]
  · rintro cfg cfg' hdue ⟨tokens, -, rfl⟩
    exact hdue

/-- In every later state the entry is there, with its amount and its mark, until the
contributor claims it. -/
def Stays (host : Host) (cfg : Config) (env : Env) (who : Address) (e : PortfolioEntry) : Prop :=
  ∀ later cfg', Onward (machine host) cfg later cfg' →
    (∀ r ∈ later, env.timestamp ≤ r.env.timestamp ∧ r.call ≠ .claimRefund e.campaignId who) →
    ∀ env', env.timestamp ≤ env'.timestamp → cfg'.ledger.timestamp ≤ env'.timestamp →
      ∃ e' ∈ getContributorPortfolio cfg'.state env' who,
        e'.campaignId = e.campaignId ∧ e'.amount = e.amount ∧ e'.refundable = true

theorem run_stays (run : Run (machine host) tr cfg)
    (he : e ∈ getContributorPortfolio cfg.state env who) (hopen : e.refundable = true) :
    Stays host cfg env who e := by
  intro later cfg' onward hlater env' htime hledger
  obtain ⟨a, ha, contributed, -, hamount, -, hmark⟩ :=
    portfolioEntry_spec ((mem_portfolio run).mp he)
  obtain ⟨a', ha', hsame, hopen'⟩ := run_openRefund run ⟨a, ha, rfl, hmark.mp hopen⟩ onward hlater
  obtain ⟨e', hentry⟩ : ∃ e', portfolioEntry cfg'.state env' who e.campaignId = some e' :=
    portfolioEntry_of ha' (hsame ▸ contributed)
  obtain ⟨b, hb, -, hid, hamount', -, hmark'⟩ := portfolioEntry_spec hentry
  obtain rfl := Option.some.inj (ha'.symm.trans hb)
  refine ⟨e', (mem_portfolio (run.append onward)).mpr (hid ▸ hentry), hid, ?_, ?_⟩
  · rw [hamount', hsame, hamount]
  · exact hmark'.mpr (hopen'.later (Nat.max_le.mpr ⟨htime, hledger⟩))

/-! ## The law -/

/-- The portfolio lists the contributions and marks as refundable what `claim_refund`
accepts, pays as listed and goes on accepting. -/
structure Agrees (host : Host) (cfg : Config) (env : Env) (who : Address) : Prop where
  lists : Lists cfg.state who (getContributorPortfolio cfg.state env who)
  marks : ∀ e ∈ getContributorPortfolio cfg.state env who,
    e.refundable = true ↔ PassesChecks env cfg.state e.campaignId who
  pays : ∀ e ∈ getContributorPortfolio cfg.state env who, e.refundable = true →
    Pays env cfg.state who e
  stays : ∀ e ∈ getContributorPortfolio cfg.state env who, e.refundable = true →
    Stays host cfg env who e

/-- Portfolio and refunds agree exactly when every refund it offers is covered. -/
theorem portfolio_agrees_iff (run : Run (machine host) tr cfg) (signed : env.auth who = true)
    (unpaused : cfg.state.admin.paused = false ∧ cfg.state.admin.autoPaused = false) :
    Agrees host cfg env who ↔ ∀ e ∈ getContributorPortfolio cfg.state env who,
      e.refundable = true → RefundCovered cfg.state e := by
  constructor
  · intro agrees e he hopen
    exact (run_pays_iff run signed unpaused he hopen).mp (agrees.pays e he hopen)
  · intro hcovered
    refine ⟨run_lists run, fun e he => ?_, fun e he hopen => ?_, fun e he => run_stays run he⟩
    · obtain ⟨a, ha, contributed, -, -, -, hmark⟩ :=
        portfolioEntry_spec ((mem_portfolio run).mp he)
      exact hmark.trans (run_passesChecks_iff run ha signed unpaused contributed).symm
    · exact (run_pays_iff run signed unpaused he hopen).mpr (hcovered e he hopen)

/-- A second contributor finds the refund of a failed campaign open and covered. -/
theorem portfolio_sample :
    ∃ tr cfg, Run (machine Sample.host) tr cfg ∧
      (∃ e ∈ getContributorPortfolio cfg.state (Sample.env 900001 Sample.bob) Sample.bob,
        e.refundable = true) ∧
      Agrees Sample.host cfg (Sample.env 900001 Sample.bob) Sample.bob := by
  have h : Sample.Ends 0 Sample.refunded fun _ cfg =>
      (cfg.state.admin.paused = false ∧ cfg.state.admin.autoPaused = false) ∧
      (∃ e ∈ getContributorPortfolio cfg.state (Sample.env 900001 Sample.bob) Sample.bob,
        e.refundable = true) ∧
      ∀ e ∈ getContributorPortfolio cfg.state (Sample.env 900001 Sample.bob) Sample.bob,
        I128.InRange (cfg.state.contributions.totalRaised - e.amount) ∧
        ∃ token ∈ (view cfg.state).currency e.campaignId,
          e.amount ≤ cfg.state.tokens.balance token contractAddress := by
    decide +kernel
  obtain ⟨tr, cfg, run, unpaused, hopen, hcovered⟩ := h.run
  refine ⟨tr, cfg, run, hopen,
    (portfolio_agrees_iff run (by decide) unpaused).mpr fun e he _ => ?_⟩
  obtain ⟨hcounted, token, htoken, hheld⟩ := hcovered e he
  exact ⟨fun _ => hcounted, token, (getCampaignToken_eq_ok _).mpr htoken, hheld⟩

/-- After a change of the token the refund of a cancelled campaign is offered and fails. -/
theorem portfolio_unpaid :
    ∃ tr cfg, Run (machine Sample.host) tr cfg ∧
      (cfg.state.admin.paused = false ∧ cfg.state.admin.autoPaused = false) ∧
      (Sample.env 700001 Sample.alice).auth Sample.alice = true ∧
      ¬ Agrees Sample.host cfg (Sample.env 700001 Sample.alice) Sample.alice := by
  have h : Sample.Ends 0 (Sample.cancelled ++ Sample.migration) fun _ cfg =>
      (cfg.state.admin.paused = false ∧ cfg.state.admin.autoPaused = false) ∧
      ∃ e ∈ getContributorPortfolio cfg.state (Sample.env 700001 Sample.alice) Sample.alice,
        e.refundable = true ∧ (invoke (Sample.env 700001 Sample.alice) cfg.state
          (.claimRefund e.campaignId Sample.alice)).isOk = false := by
    decide +kernel
  obtain ⟨tr, cfg, run, unpaused, e, he, hopen, hfails⟩ := h.run
  refine ⟨tr, cfg, run, unpaused, by decide, fun agrees => ?_⟩
  obtain ⟨s', token, hpaid, -⟩ := agrees.pays e he hopen
  rw [hpaid] at hfails
  cases hfails

end ProofOfHeart
