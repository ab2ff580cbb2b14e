import ProofOfHeart.Laws.RefundPhase
import ProofOfHeart.Lib.Balances

/-! # The ledger of contributions

The entries per contributor, the two totals in the record and the number of
contributors agree in every state. Nobody contributes again after a refund, which
is why the count, raised on a first contribution and lowered on a refund, is right.
-/

namespace ProofOfHeart

open Checked Function Trace Balances

variable {host : Host} {tr : List Receipt} {cfg : Config} {c : Nat} {a a' : Account}
  {env : Env} {v : View} {act : Act} {moves : List Transfer} {delta : Int}

structure Account.Books (a : Account) : Prop where
  finite : Balances.Finite a.funds.lifetime
  nonneg : ∀ who, 0 ≤ a.funds.lifetime who
  either : ∀ who, a.funds.contribution who = 0 ∨
    a.funds.contribution who = a.funds.lifetime who
  live : total a.funds.contribution = a.record.effectiveAmountRaised
  life : total a.funds.lifetime = a.record.amountRaised
  count : a.funds.contributors = (holders a.funds.contribution).ncard

/-- No refund has been made. -/
def Account.Whole (a : Account) : Prop := a.funds.contribution = a.funds.lifetime

namespace Account.Books

variable {who : Address}

theorem contribution_nonneg (books : a.Books) (who : Address) : 0 ≤ a.funds.contribution who := by
  rcases books.either who with h | h
  · exact Int.le_of_eq h.symm
  · rw [h]
    exact books.nonneg who

theorem contribution_pos (books : a.Books) (h : a.funds.contribution who ≠ 0) :
    0 < a.funds.contribution who := lt_of_le_of_ne (books.contribution_nonneg who) (Ne.symm h)

theorem contribution_le (books : a.Books) (who : Address) :
    a.funds.contribution who ≤ a.funds.lifetime who := by
  rcases books.either who with h | h
  · rw [h]
    exact books.nonneg who
  · exact Int.le_of_eq h

theorem contribution_finite (books : a.Books) : Balances.Finite a.funds.contribution := by
  refine books.finite.subset fun who hwho hzero => hwho ?_
  exact (books.either who).elim id fun h => h.trans hzero

theorem effective_nonneg (books : a.Books) : 0 ≤ a.record.effectiveAmountRaised :=
  books.live ▸ total_nonneg books.contribution_nonneg

theorem effective_le (books : a.Books) :
    a.record.effectiveAmountRaised ≤ a.record.amountRaised := by
  rw [← books.live, ← books.life]
  exact total_le books.contribution_finite books.finite books.contribution_le

theorem raised_nonneg (books : a.Books) : 0 ≤ a.record.amountRaised :=
  Int.le_trans books.effective_nonneg books.effective_le

theorem effective_eq (books : a.Books) (whole : a.Whole) :
    a.record.effectiveAmountRaised = a.record.amountRaised := by
  rw [← books.live, ← books.life, whole]

theorem contribution_le_effective (books : a.Books) (who : Address) :
    a.funds.contribution who ≤ a.record.effectiveAmountRaised :=
  books.live ▸ le_total books.contribution_finite books.contribution_nonneg who

/-- One contribution keeps the books while nobody has been refunded. -/
theorem contribute {admin : Option Address} {amount : Int} (books : a.Books) (whole : a.Whole)
    (pos : 0 < amount) :
    (a.contribute admin who amount).Books ∧ (a.contribute admin who amount).Whole := by
  have hsame : a.funds.contribution who = a.funds.lifetime who := congrFun whole who
  have hnonneg := books.nonneg who
  have hwhole : (a.contribute admin who amount).Whole := by
    simp only [Account.Whole, Account.contribute]
    rw [hsame, whole]
  refine ⟨⟨books.finite.update, fun other => ?_, fun other => .inr (congrFun hwhole other), ?_, ?_,
    ?_⟩, hwhole⟩
  · by_cases h : other = who
    · subst h
      simp only [Account.contribute, update_self]
      omega
    · simp only [Account.contribute, update_of_ne h]
      exact books.nonneg other
  · simp only [Account.contribute]
    rw [total_update books.contribution_finite, books.live]
    omega
  · simp only [Account.contribute]
    rw [total_update books.finite, books.life]
    omega
  · simp only [Account.contribute]
    by_cases hfirst : a.funds.lifetime who = 0
    · rw [if_pos hfirst, books.count, ncard_holders_gain books.contribution_finite
        (hsame.trans hfirst) (by omega)]
    · rw [if_neg hfirst, Nat.add_zero, books.count, holders_keep (by omega) (by omega)]

theorem contributeAll {admin : Option Address} {amounts : List Int} (books : a.Books)
    (whole : a.Whole) (pos : ∀ amount ∈ amounts, 0 < amount) :
    (a.contributeAll admin who amounts).Books ∧ (a.contributeAll admin who amounts).Whole := by
  induction amounts generalizing a with
  | nil => exact ⟨books, whole⟩
  | cons amount rest ih =>
      obtain ⟨books', whole'⟩ : (a.contribute admin who amount).Books ∧
          (a.contribute admin who amount).Whole :=
        books.contribute whole (pos amount List.mem_cons_self)
      exact ih books' whole' fun x hx => pos x (List.mem_cons_of_mem _ hx)

theorem refund (books : a.Books) (pos : 0 < a.funds.contribution who) : (a.refund who).Books where
  finite := books.finite
  nonneg := books.nonneg
  either other := by
    by_cases h : other = who
    · exact .inl (by simp [Account.refund, h])
    · simpa [Account.refund, h] using books.either other
  live := by
    simp only [Account.refund]
    rw [total_update books.contribution_finite, books.live, Int.add_zero]
  life := books.life
  count := by
    simp only [Account.refund]
    rw [books.count, ncard_holders_lose pos]

end Account.Books

/-- The count that a refund lowers is not zero. -/
theorem Account.Books.count_pos {who : Address} (books : a.Books)
    (pos : 0 < a.funds.contribution who) : 0 < a.funds.contributors := by
  rw [books.count, Set.ncard_pos books.contribution_finite.holders]
  exact ⟨who, pos⟩

theorem Born.books {call : Call} (h : Born env v call c a) : a.Books ∧ a.Whole := by
  cases h with
  | born hcall inTime goal share =>
      refine ⟨⟨finite_zero, fun _ => Int.le_refl 0, fun _ => .inl rfl, total_zero, total_zero, ?_⟩,
        rfl⟩
      simp [Funds.blank, Funds.created, holders]

/-- A contribution that differs from its lifetime entry has been refunded. -/
theorem AccountStep.books (h : AccountStep env v c act moves delta a a') (phase : a.Phase)
    {now : Nat} (time : now ≤ env.timestamp)
    (hbooks : a.Books ∧ (a.Whole ∨ a.Refundable now)) :
    a'.Books ∧ (a'.Whole ∨ a'.Refundable env.timestamp) := by
  obtain ⟨books, hwhole⟩ := hbooks
  have hlater : a.Whole ∨ a'.Refundable env.timestamp :=
    hwhole.imp id fun hopen => h.refundable phase time hopen
  obtain ⟨finite, nonneg, either, live, life, count⟩ := books
  cases h with
  | contributed nonempty pos accepts =>
      have whole := hwhole.resolve_right (accepts.of_live.not_refundable time accepts.inTime)
      obtain ⟨books', whole'⟩ := Account.Books.contributeAll
        ⟨finite, nonneg, either, live, life, count⟩ whole pos
      exact ⟨books', .inl whole'⟩
  | refunded refundable pos currency =>
      exact ⟨Account.Books.refund ⟨finite, nonneg, either, live, life, count⟩ pos,
        .inr refundable⟩
  | claimed payable mem unclaimed pos currency hadmin =>
      unfold Account.claimMilestone at hlater ⊢
      refine ⟨⟨finite, nonneg, either, ?_, ?_, count⟩, hlater⟩
      · split <;> exact live
      · split <;> exact life
  | _ => exact ⟨⟨finite, nonneg, either, live, life, count⟩, hlater⟩

theorem run_books (run : Run (machine host) tr cfg)
    (ha : (view cfg.state).account c = some a) :
    a.Books ∧ (a.Whole ∨ a.Refundable cfg.ledger.timestamp) :=
  account_invariant (I := fun _ now a => a.Books ∧ (a.Whole ∨ a.Refundable now))
    (fun _ hborn => ⟨hborn.books.1, .inl hborn.books.2⟩)
    (fun passage ih => passage.step.books passage.phase passage.time ih) run ha

theorem Passage.books {r : Receipt} (passage : Passage host c tr cfg r act moves delta a a') :
    a.Books := (run_books passage.run (passage.pre ▸ passage.before)).1

theorem Passage.books_after {r : Receipt}
    (passage : Passage host c tr cfg r act moves delta a a') : a'.Books :=
  (passage.step.books passage.phase passage.time
    (run_books passage.run (passage.pre ▸ passage.before))).1

/-- A campaign that can be paid out has given nothing back. -/
theorem Passage.whole {r : Receipt} (passage : Passage host c tr cfg r act moves delta a a')
    (payable : a.Payable) : a.Whole :=
  (run_books passage.run (passage.pre ▸ passage.before)).2.resolve_right payable.not_refundable

/-- Nobody has been refunded from a campaign that accepts a contribution. -/
theorem Passage.whole_of_accepts {r : Receipt} {who : Address}
    (passage : Passage host c tr cfg r act moves delta a a')
    (accepts : a.Accepts r.env.timestamp who) : a.Whole :=
  (run_books passage.run (passage.pre ▸ passage.before)).2.resolve_right
    (accepts.of_live.not_refundable passage.time accepts.inTime)

/-- The entries of every campaign agree with its record and its count. -/
theorem contributionLedger_agrees (run : Run (machine host) tr cfg) {campaign : Campaign}
    (hcampaign : cfg.state.campaigns.campaign c = some campaign) :
    (support (cfg.state.contributions.contribution c)).Finite ∧
    (support (cfg.state.contributions.lifetimeContribution c)).Finite ∧
    ∑ᶠ who, cfg.state.contributions.contribution c who = campaign.effectiveAmountRaised ∧
    ∑ᶠ who, cfg.state.contributions.lifetimeContribution c who = campaign.amountRaised ∧
    0 ≤ campaign.effectiveAmountRaised ∧ campaign.effectiveAmountRaised ≤ campaign.amountRaised ∧
    cfg.state.contributions.contributorCount c =
      {who | 0 < cfg.state.contributions.contribution c who}.ncard ∧
    (∀ who, 0 < cfg.state.contributions.contribution c who →
      0 < cfg.state.contributions.contributorCount c) ∧
    ∀ who, cfg.state.contributions.contribution c who = 0 ∨
      cfg.state.contributions.contribution c who =
        cfg.state.contributions.lifetimeContribution c who := by
  have ha := View.account_of_campaign (v := view cfg.state) hcampaign
  obtain ⟨books, -⟩ := run_books run ha
  exact ⟨books.contribution_finite, books.finite, books.live, books.life, books.effective_nonneg,
    books.effective_le, books.count, fun _ => books.count_pos, books.either⟩

theorem contributionLedger_sample :
    ∃ tr cfg, Run (machine Sample.host) tr cfg ∧
      ∑ᶠ who, cfg.state.contributions.contribution 1 who = 20000 ∧
      ∑ᶠ who, cfg.state.contributions.lifetimeContribution 1 who = 50000 ∧
      {who | 0 < cfg.state.contributions.contribution 1 who}.ncard = 1 := by
  have h : Sample.Ends 0 Sample.refunded fun _ cfg =>
      (cfg.state.campaigns.campaign 1).map
          (fun campaign => (campaign.effectiveAmountRaised, campaign.amountRaised)) =
        some (20000, 50000) ∧ cfg.state.contributions.contributorCount 1 = 1 := by
    decide +kernel
  obtain ⟨tr, cfg, run, hcampaign, hcount⟩ := h.run
  obtain ⟨campaign, hcampaign, hpair⟩ := Option.map_eq_some_iff.mp hcampaign
  obtain ⟨heffective, hraised⟩ := Prod.mk.inj hpair
  obtain ⟨-, -, hlive, hlife, -, -, hcontributors, -⟩ := contributionLedger_agrees run hcampaign
  exact ⟨tr, cfg, run, hlive.trans heffective, hlife.trans hraised, hcontributors.symm.trans hcount⟩

end ProofOfHeart
