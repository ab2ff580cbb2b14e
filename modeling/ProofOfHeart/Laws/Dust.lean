import ProofOfHeart.Laws.Arithmetic

/-! # What rounding leaves of the contributors' side

The last contributor to claim for the first time takes everything the others have left.
The contract looks at the contributor's own share before it looks at what is left, so
that somebody whose share rounds down to nothing is turned away and the rest stays.
-/

namespace ProofOfHeart

open Checked Function Trace Balances

variable {host : Host} {tr : List Receipt} {cfg : Config} {r : Receipt} {env : Env} {c : Nat}
  {a a' : Account} {act : Act} {moves : List Transfer} {delta : Int} {who : Address}
  {record : Campaign} {s s' : State}

/-! ## Who has claimed -/

theorem mem_draws_cons_claim {payer : Address} (h : r.call.act c = .claimRevenue payer) :
    who ∈ (draws c (r :: tr)).map Prod.fst ↔ who = payer ∨ who ∈ (draws c tr).map Prod.fst := by
  rw [draws_cons_claim h, List.map_cons, List.mem_cons]

/-- The amounts claimed tell who has drawn. -/
theorem Passage.drawn_iff (passage : Passage host c tr cfg r act moves delta a a')
    (ih : 0 < a.funds.revenueClaimed who ↔ who ∈ (ProofOfHeart.draws c tr).map Prod.fst) :
    0 < a'.funds.revenueClaimed who ↔ who ∈ (ProofOfHeart.draws c (r :: tr)).map Prod.fst := by
  have phase := passage.phase
  have revenue := passage.revenue
  have hact := passage.hact
  have claimers := run_claimers passage.run (passage.pre ▸ passage.before)
  by_cases hclaim : ∃ payer, act = .claimRevenue payer
  · obtain ⟨payer, rfl⟩ := hclaim
    rw [mem_draws_cons_claim hact]
    cases passage.step with
    | claimedRevenue shares contributed undrawn pos =>
        have hnonneg := claimers.nonneg who
        by_cases hwho : who = payer
        · simp only [Account.claim, hwho, update_self, true_or, iff_true]
          rw [hwho] at hnonneg
          omega
        · simp only [Account.claim, update_of_ne hwho, hwho, false_or]
          exact ih
  · have hnot : ∀ payer, r.call.act c ≠ .claimRevenue payer :=
      fun payer heq => hclaim ⟨payer, hact.symm.trans heq⟩
    rw [draws_cons_of_not hnot, ← ih]
    cases passage.step with
    | contributed =>
        obtain ⟨_, _, _, _, heq⟩ := a.contributeAll_eq (view r.pre).admin.admin _ _
        rw [heq]
    | @refunded _ payer token refundable =>
        obtain ⟨-, hzero, -⟩ := revenue.unpaid (refundable.unpaid phase)
        simp only [Account.refund, ← hzero payer, update_eq_self]
    | claimedRevenue => exact absurd ⟨_, rfl⟩ hclaim
    | _ => exact Iff.rfl

theorem run_drawn_iff (run : Run (machine host) tr cfg)
    (ha : (view cfg.state).account c = some a) :
    0 < a.funds.revenueClaimed who ↔ who ∈ (draws c tr).map Prod.fst := by
  refine account_invariant (I := fun tr _ a =>
    0 < a.funds.revenueClaimed who ↔ who ∈ (draws c tr).map Prod.fst)
    (fun {tr r a} hacts hborn => ?_) (fun passage ih => passage.drawn_iff ih) run ha
  have hnone : draws c (r :: tr) = [] := by
    refine List.filterMap_eq_nil_iff.mpr fun x hx => ?_
    rw [hacts x hx]
  rw [hnone]
  cases hborn
  simp [Funds.created, Funds.blank]

/-! ## The last claim -/

/-- While everybody else has claimed no more than is due, a share that is still open fits
what is left. -/
theorem Account.Moderate.due_le (moderate : a.Moderate) (phase : a.Phase) (books : a.Books)
    (revenue : RevenueBooks c tr a) (hwho : 0 < a.funds.contribution who)
    (unclaimed : a.funds.revenueClaimed who = 0) :
    a.due a.funds.pool who ≤ a.contributorSide a.funds.pool - a.funds.distributed := by
  have hfinite := books.due_finite a.funds.pool
  have hle : ∀ other, a.funds.revenueClaimed other ≤ update (a.due a.funds.pool) who 0 other := by
    intro other
    by_cases hother : other = who
    · rw [hother, update_self, unclaimed]
    · rw [update_of_ne hother]
      exact moderate.within ⟨who, hwho, unclaimed⟩ other
  have htotal := total_le revenue.finite hfinite.update hle
  rw [total_update hfinite, ← revenue.distributed] at htotal
  have hside := Account.total_due_le phase books revenue.poolNonneg
  omega

/-- The last claim pays exactly what is left. -/
theorem Account.Moderate.claimable_last (moderate : a.Moderate) (phase : a.Phase) (books : a.Books)
    (revenue : RevenueBooks c tr a) (hwho : 0 < a.funds.contribution who)
    (last : a.LastClaim who) :
    a.claimable who = a.contributorSide a.funds.pool - a.funds.distributed := by
  have hle := moderate.due_le phase books revenue hwho last.1
  have hfirst : a.funds.revenueClaimed who = 0 := last.1
  rw [Account.claimable, hfirst, Int.sub_zero]
  by_cases hmore : a.contributorSide a.funds.pool - a.funds.distributed > a.due a.funds.pool who
  · exact if_pos ⟨last, hmore⟩
  · refine (if_neg fun h => hmore h.2).trans ?_
    omega

/-- A share of one unit at least. -/
theorem Account.due_pos_iff (books : a.Books) (hpool : 0 ≤ a.funds.pool)
    (hwho : 0 < a.funds.contribution who) : 0 < a.due a.funds.pool who ↔
      10000 * a.record.effectiveAmountRaised ≤
        a.funds.contribution who * a.funds.pool * a.record.revenueSharePercentage := by
  have heffective := Int.lt_of_lt_of_le hwho (books.contribution_le_effective who)
  rw [Account.due_share books hpool, contributorShare, ← Int.add_one_le_iff, Int.zero_add,
    Int.le_ediv_iff_mul_le (by decide), Int.one_mul, Int.le_ediv_iff_mul_le heffective]

/-- The last claim goes through exactly when the share is not nothing, the products fit
and the contract holds what is left. -/
theorem claimRevenue_last_iff (ha : (view s).account c = some a)
    (claims : ContributorClaims env s a who)
    (claimable : a.funds.revenueClaimed who < a.due a.funds.pool who → a.Claimable who)
    (last : a.LastClaim who) :
    (∃ s', claimRevenue env s c who = .ok s') ↔
      a.funds.revenueClaimed who < a.due a.funds.pool who ∧
        (FitsShare (a.funds.contribution who) a.funds.pool a.record.revenueSharePercentage ∧
          FitsCreator a.funds.pool a.record.revenueSharePercentage) ∧
        ∃ token, (view s).currency c = some token ∧
          a.claimable who ≤ (view s).tokens.balance token contractAddress := by
  constructor
  · rintro ⟨s', h⟩
    obtain ⟨b, token, hb, -, -, -, undrawn, -, currency, hbalance, -⟩ := claimRevenue_spec h
    obtain rfl := Option.some.inj (ha.symm.trans hb)
    have gated := claimRevenue_gated ha claims (claimable undrawn) undrawn
    have hfits := Classical.byContradiction fun hnot => by cases h.symm.trans (gated.fails hnot)
    exact ⟨undrawn, ⟨hfits.1, hfits.2 last⟩, token, currency, hbalance⟩
  · rintro ⟨undrawn, ⟨hshare, hcreator⟩, token, currency, hbalance⟩
    have gated := claimRevenue_gated ha claims (claimable undrawn) undrawn
    cases h : claimRevenue env s c who with
    | ok s' => exact ⟨s', rfl⟩
    | error abort =>
        have hunpaid := gated.remains ⟨hshare, fun _ => hcreator⟩ abort h
        exact absurd (hunpaid.balance_lt currency) (Int.not_lt.mpr hbalance)

/-- Whoever is alone in not having claimed makes the last claim, on what is left. -/
theorem run_lastClaim (run : Run (machine host) tr cfg)
    (ha : (view cfg.state).account c = some a) (contributed : a.funds.contribution who ≠ 0)
    (unclaimed : who ∉ (draws c tr).map Prod.fst)
    (others : ∀ other, other ≠ who → a.funds.contribution other ≠ 0 →
      other ∈ (draws c tr).map Prod.fst) :
    a.LastClaim who ∧
      a.claimable who = a.contributorSide a.funds.pool - a.funds.distributed := by
  have books := (run_books run ha).1
  have claimers := run_claimers run ha
  have hwho : 0 < a.funds.contribution who := books.contribution_pos contributed
  have hfirst : a.funds.revenueClaimed who = 0 :=
    Int.le_antisymm (Int.not_lt.mp (mt (run_drawn_iff run ha).mp unclaimed)) (claimers.nonneg who)
  have last : a.LastClaim who := by
    refine (Account.lastClaim_iff books claimers hwho).mpr ⟨hfirst, fun other hother hpos => ?_⟩
    exact (run_drawn_iff run ha).mpr (others other hother (ne_of_gt hpos))
  exact ⟨last, (run_moderate run ha).claimable_last (run_phase run ha) books
    (run_revenueBooks run ha) hwho last⟩

/-- The counters tell that everybody else has claimed. -/
theorem drawn_of_lastClaim (run : Run (machine host) tr cfg)
    (ha : (view cfg.state).account c = some a) (contributed : a.funds.contribution who ≠ 0)
    (last : a.LastClaim who) : who ∉ (draws c tr).map Prod.fst ∧
      ∀ other, other ≠ who → a.funds.contribution other ≠ 0 →
        other ∈ (draws c tr).map Prod.fst := by
  have books := (run_books run ha).1
  have hpos : ∀ other, a.funds.contribution other ≠ 0 → 0 < a.funds.contribution other :=
    fun _ hne => books.contribution_pos hne
  obtain ⟨hfirst, hothers⟩ :=
    (Account.lastClaim_iff books (run_claimers run ha) (hpos who contributed)).mp last
  refine ⟨fun hdrawn => ?_, fun other hother hne => ?_⟩
  · exact absurd ((run_drawn_iff run ha).mpr hdrawn) (by omega)
  · exact (run_drawn_iff run ha).mp (hothers other hother (hpos other hne))

/-! ## The law -/

/-- What the contributors have not got of their side of the pool. -/
def remainder (s : State) (c : Nat) (record : Campaign) : Int :=
  s.revenue.revenuePool c -
    creatorEntitlement (s.revenue.revenuePool c) record.revenueSharePercentage -
    s.revenue.contributorRevenueDistributed c

/-- The claim of the last contributor collects what is left exactly when the own share does
not round down to nothing, its products fit and the contract holds as much. -/
theorem dust_collectable_iff (run : Run (machine host) tr cfg)
    (hrecord : cfg.state.campaigns.campaign c = some record)
    (withdrawn : record.fundsWithdrawn = true) (sharing : record.hasRevenueSharing = true)
    (hpaused : cfg.state.admin.paused = false) (hauto : cfg.state.admin.autoPaused = false)
    (signed : env.auth who = true)
    (contributed : cfg.state.contributions.contribution c who ≠ 0)
    (unclaimed : who ∉ (draws c tr).map Prod.fst)
    (others : ∀ other, other ≠ who → cfg.state.contributions.contribution c other ≠ 0 →
      other ∈ (draws c tr).map Prod.fst)
    (hrest : 0 < remainder cfg.state c record) :
    (∃ s' token amount, invoke env cfg.state (.claimRevenue c who) = .ok s' ∧
      s'.tokens.moved = [⟨token, contractAddress, who, amount⟩] ∧
      remainder cfg.state c record ≤ amount) ↔
    10000 * record.effectiveAmountRaised ≤ cfg.state.contributions.contribution c who *
        cfg.state.revenue.revenuePool c * record.revenueSharePercentage ∧
      (FitsShare (cfg.state.contributions.contribution c who) (cfg.state.revenue.revenuePool c)
          record.revenueSharePercentage ∧
        FitsCreator (cfg.state.revenue.revenuePool c) record.revenueSharePercentage) ∧
      ∃ token, getCampaignToken cfg.state c = .ok token ∧
        remainder cfg.state c record ≤ cfg.state.tokens.balance token contractAddress := by
  have ha := View.account_of_campaign (v := view cfg.state) hrecord
  generalize heq : (⟨record, (view cfg.state).funds c⟩ : Account) = a at ha
  obtain rfl : record = a.record := by rw [← heq]
  have hfunds : (view cfg.state).funds c = a.funds := by rw [← heq]
  have hcontribution : cfg.state.contributions.contribution c = a.funds.contribution := by
    rw [← hfunds]
    rfl
  have hpool : cfg.state.revenue.revenuePool c = a.funds.pool := by rw [pool_view, hfunds]
  have hdistributed : cfg.state.revenue.contributorRevenueDistributed c = a.funds.distributed := by
    rw [distributed_view, hfunds]
  rw [hcontribution] at contributed others
  have phase := run_phase run ha
  have books := (run_books run ha).1
  have hnonneg := (run_revenueBooks run ha).poolNonneg
  have hwho : 0 < a.funds.contribution who := books.contribution_pos contributed
  obtain ⟨last, hclaimable⟩ := run_lastClaim run ha contributed unclaimed others
  have hremainder : remainder cfg.state c a.record = a.claimable who := by
    rw [remainder, hclaimable, Account.contributorSide, run_creatorSide run ha, hpool, hdistributed]
  have claims : ContributorClaims env cfg.state.clearMoved a who :=
    ⟨signed, ⟨hpaused, hauto⟩, ⟨phase.notCancelled withdrawn, sharing, withdrawn⟩, contributed⟩
  have hgoes := claimRevenue_last_iff (s := cfg.state.clearMoved) ha claims
    (run_claimable run ha contributed) last
  have hpays : (∃ s' token amount, invoke env cfg.state (.claimRevenue c who) = .ok s' ∧
      s'.tokens.moved = [⟨token, contractAddress, who, amount⟩] ∧
      remainder cfg.state c a.record ≤ amount) ↔
        ∃ s', claimRevenue env cfg.state.clearMoved c who = .ok s' := by
    have typed : (Call.claimRevenue c who).WellTyped := run_isU32 run hrecord
    rw [invoke_eq typed]
    constructor
    · rintro ⟨s', -, -, h, -⟩
      exact ⟨s', h⟩
    · rintro ⟨s', h⟩
      obtain ⟨b, token, hb, -, -, -, -, -, -, -, hview⟩ := claimRevenue_spec h
      obtain rfl := Option.some.inj (ha.symm.trans hb)
      have hmoved : s'.tokens.moved = [⟨token, contractAddress, who, a.claimable who⟩] :=
        congrArg (fun v : View => v.tokens.moved) hview
      exact ⟨s', token, _, h, hmoved, Int.le_of_eq hremainder⟩
  have hfirst : a.funds.revenueClaimed who = 0 := last.1
  rw [hpays, hgoes, hfirst, Account.due_pos_iff books hnonneg hwho, hremainder, hcontribution,
    hpool]
  simp only [getCampaignToken_eq_ok]
  exact Iff.rfl

theorem dust_sample :
    ∃ tr cfg record, Run (machine Sample.host) tr cfg ∧
      cfg.state.campaigns.campaign 1 = some record ∧ remainder cfg.state 1 record = 52 ∧
      ∃ s' token amount, invoke (Sample.env 6 Sample.alice) cfg.state
          (.claimRevenue 1 Sample.alice) = .ok s' ∧
        s'.tokens.moved = [⟨token, contractAddress, Sample.alice, amount⟩] ∧
        remainder cfg.state 1 record ≤ amount := by
  have h : Sample.Ends 0 Sample.divided.dropLast fun _ cfg => cfg.state.admin.paused = false ∧
      cfg.state.admin.autoPaused = false ∧ ∃ a ∈ (view cfg.state).account 1,
        a.record.fundsWithdrawn = true ∧ a.record.hasRevenueSharing = true ∧
        a.funds.contribution Sample.alice ≠ 0 ∧ a.LastClaim Sample.alice ∧
        remainder cfg.state 1 a.record = 52 ∧
        10000 * a.record.effectiveAmountRaised ≤
          cfg.state.contributions.contribution 1 Sample.alice *
            cfg.state.revenue.revenuePool 1 * a.record.revenueSharePercentage ∧
        FitsShare (cfg.state.contributions.contribution 1 Sample.alice)
          (cfg.state.revenue.revenuePool 1) a.record.revenueSharePercentage ∧
        FitsCreator (cfg.state.revenue.revenuePool 1) a.record.revenueSharePercentage ∧
        (view cfg.state).currency 1 = some Sample.token ∧
        52 ≤ cfg.state.tokens.balance Sample.token contractAddress := by
    decide +kernel
  obtain ⟨tr, cfg, run, hpaused, hauto, a, ha, withdrawn, sharing, contributed, last, hrest, hunit,
    hshare, hcreator, currency, hbalance⟩ := h.run
  obtain ⟨hrecord, hfunds⟩ := View.account_eq_some.mp ha
  obtain ⟨unclaimed, others⟩ := drawn_of_lastClaim run ha contributed last
  rw [← hfunds] at contributed others
  have signed : (Sample.env 6 Sample.alice).auth Sample.alice = true := by decide
  have hiff := dust_collectable_iff run hrecord withdrawn sharing hpaused hauto signed contributed
    unclaimed others (by rw [hrest]; decide)
  exact ⟨tr, cfg, a.record, run, hrecord, hrest, hiff.mpr ⟨hunit, ⟨hshare, hcreator⟩, Sample.token,
    (getCampaignToken_eq_ok _).mpr currency, by rw [hrest]; exact hbalance⟩⟩

/-- A large contribution and a small one share a tenth of a pool. -/
def Sample.crumbs : List Request :=
  opened 1000 ++
    [ask 1 alice (.contribute 1 alice 100000), ask 1 bob (.contribute 1 bob 1),
      ask 2 creator (.withdrawFunds 1), ask 3 creator (.depositRevenue 1 100),
      ask 4 alice (.claimRevenue 1 alice)]

/-- One unit is left, and the only contributor who has not claimed cannot have it. -/
theorem dust_stays :
    ∃ tr cfg record, Run (machine Sample.host) tr cfg ∧
      cfg.state.campaigns.campaign 1 = some record ∧ record.fundsWithdrawn = true ∧
      record.hasRevenueSharing = true ∧ cfg.state.admin.paused = false ∧
      cfg.state.admin.autoPaused = false ∧
      cfg.state.contributions.contribution 1 Sample.bob ≠ 0 ∧
      Sample.bob ∉ (draws 1 tr).map Prod.fst ∧
      (∀ other, other ≠ Sample.bob → cfg.state.contributions.contribution 1 other ≠ 0 →
        other ∈ (draws 1 tr).map Prod.fst) ∧
      remainder cfg.state 1 record = 1 ∧
      invoke (Sample.env 5 Sample.bob) cfg.state (.claimRevenue 1 Sample.bob) =
        .error (.err .noFundsToWithdraw) := by
  have h : Sample.Ends 0 Sample.crumbs fun _ cfg => cfg.state.admin.paused = false ∧
      cfg.state.admin.autoPaused = false ∧
      invoke (Sample.env 5 Sample.bob) cfg.state (.claimRevenue 1 Sample.bob) =
        .error (.err .noFundsToWithdraw) ∧
      ∃ a ∈ (view cfg.state).account 1, a.record.fundsWithdrawn = true ∧
        a.record.hasRevenueSharing = true ∧ a.funds.contribution Sample.bob ≠ 0 ∧
        a.LastClaim Sample.bob ∧ remainder cfg.state 1 a.record = 1 := by
    decide +kernel
  obtain ⟨tr, cfg, run, hpaused, hauto, hrefused, a, ha, withdrawn, sharing, contributed, last,
    hrest⟩ := h.run
  obtain ⟨hrecord, hfunds⟩ := View.account_eq_some.mp ha
  obtain ⟨unclaimed, others⟩ := drawn_of_lastClaim run ha contributed last
  rw [← hfunds] at contributed others
  exact ⟨tr, cfg, a.record, run, hrecord, withdrawn, sharing, hpaused, hauto, contributed,
    unclaimed, others, hrest, hrefused⟩

end ProofOfHeart
