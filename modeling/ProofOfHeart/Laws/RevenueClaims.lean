import ProofOfHeart.Laws.CreatorRevenue
import ProofOfHeart.Laws.Sovereignty

/-! # How a fixed pool is distributed

Of a pool that no longer changes every contributor draws the share once, rounded down,
and the last of them draws what is left of the contributors' side. The last is told by
two counters, of those who have claimed and of those who have contributed.
-/

namespace ProofOfHeart

open Checked Function Trace Balances Entitlements

variable {host : Host} {tr : List Receipt} {cfg : Config} {r : Receipt} {c : Nat} {a a' : Account}
  {env : Env} {v : View} {act : Act} {moves : List Transfer} {delta : Int} {who : Address}
  {record : Campaign} {P : Int}

/-! ## The claimants -/

/-- The counter of claimants counts those who have drawn, and they are contributors. -/
structure Account.Claimers (a : Account) : Prop where
  nonneg : ∀ who, 0 ≤ a.funds.revenueClaimed who
  count : a.funds.claimants = (holders a.funds.revenueClaimed).ncard
  contributed : ∀ who, 0 < a.funds.revenueClaimed who → 0 < a.funds.contribution who

theorem Passage.claimers (passage : Passage host c tr cfg r act moves delta a a')
    (ih : a.Claimers) : a'.Claimers := by
  have phase := passage.phase
  have revenue := passage.revenue
  have books := passage.books
  obtain ⟨nonneg, count, contributed⟩ := ih
  cases passage.step with
  | contributed nonempty pos accepts =>
      obtain ⟨-, hzero, -⟩ := revenue.unpaid (phase.unpaid accepts.of_live)
      obtain ⟨_, _, _, _, heq⟩ := a.contributeAll_eq (view r.pre).admin.admin _ _
      rw [heq]
      exact ⟨nonneg, count, fun who hpos => absurd (hzero who) (ne_of_gt hpos)⟩
  | @refunded _ payer token refundable =>
      obtain ⟨-, hzero, -⟩ := revenue.unpaid (refundable.unpaid phase)
      have hsame : update a.funds.revenueClaimed payer 0 = a.funds.revenueClaimed := by
        rw [← hzero payer, update_eq_self]
      refine ⟨?_, ?_, fun who hpos => ?_⟩
      · simp only [Account.refund, hsame]
        exact nonneg
      · simp only [Account.refund, hsame]
        exact count
      · simp only [Account.refund, hsame] at hpos
        exact absurd (hzero who) (ne_of_gt hpos)
  | @claimedRevenue _ token payer shares hcontributed undrawn pos =>
      have hpayer := nonneg payer
      refine ⟨fun who => ?_, ?_, fun who hpos => ?_⟩
      · by_cases hwho : who = payer
        · simp only [Account.claim, hwho, update_self]
          omega
        · simp only [Account.claim, update_of_ne hwho]
          exact nonneg who
      · simp only [Account.claim]
        by_cases hfirst : a.funds.revenueClaimed payer = 0
        · rw [if_pos hfirst, count, ncard_holders_gain revenue.finite hfirst (by omega)]
        · rw [if_neg hfirst, count, holders_keep (by omega) (by omega)]
      · by_cases hwho : who = payer
        · have hnonneg := books.contribution_nonneg payer
          rw [hwho]
          exact lt_of_le_of_ne hnonneg (Ne.symm hcontributed)
        · simp only [Account.claim, update_of_ne hwho] at hpos
          exact contributed who hpos
  | _ => exact ⟨nonneg, count, contributed⟩

theorem run_claimers (run : Run (machine host) tr cfg)
    (ha : (view cfg.state).account c = some a) : a.Claimers := by
  refine account_invariant (I := fun _ _ a => a.Claimers) (fun {tr r a} hacts hborn => ?_)
    (fun passage ih => passage.claimers ih) run ha
  cases hborn
  refine ⟨fun _ => Int.le_refl 0, ?_, fun who hpos => absurd hpos (Int.lt_irrefl 0)⟩
  have hnone : holders (fun _ : Address => (0 : Int)) = ∅ := by
    ext who
    simp [holders]
  simp [Funds.blank, Funds.created, hnone]

/-- The counters tell a first claim with which everybody has claimed. -/
theorem Account.lastClaim_iff (books : a.Books) (claimers : a.Claimers)
    (hwho : 0 < a.funds.contribution who) : a.LastClaim who ↔
      a.funds.revenueClaimed who = 0 ∧ ∀ other, other ≠ who → 0 < a.funds.contribution other →
        0 < a.funds.revenueClaimed other := by
  have hsub : holders a.funds.revenueClaimed ⊆ holders a.funds.contribution :=
    fun other hpos => claimers.contributed other hpos
  have hsome : 0 < a.funds.contributors := by
    rw [books.count]
    exact (Set.ncard_pos books.contribution_finite.holders).mpr ⟨who, hwho⟩
  rw [Account.LastClaim, isLastClaimant]
  refine and_congr_right fun hfirst => ?_
  rw [← ncard_holders_last books.contribution_finite hsub hwho hfirst, ← books.count,
    ← claimers.count]
  omega

/-- The counters agree when everybody has claimed. -/
theorem Account.claimed_of_counters (books : a.Books) (claimers : a.Claimers)
    (h : a.funds.claimants = a.funds.contributors) (hwho : 0 < a.funds.contribution who) :
    0 < a.funds.revenueClaimed who := by
  have hsub : holders a.funds.revenueClaimed ⊆ holders a.funds.contribution :=
    fun other hpos => claimers.contributed other hpos
  have hle : (holders a.funds.contribution).ncard ≤ (holders a.funds.revenueClaimed).ncard := by
    rw [← books.count, ← claimers.count, h]
  have hmem : who ∈ holders a.funds.contribution := hwho
  rwa [← Set.eq_of_subset_of_ncard_le hsub hle books.contribution_finite.holders] at hmem

/-! ## The draws from a pool -/

/-- The contributors who have drawn on campaign `c` and what they got, newest first. -/
def draws (c : Nat) (tr : List Receipt) : List (Address × Int) :=
  tr.filterMap fun r => match r.call.act c with
    | .claimRevenue who => some (who, (r.post.tokens.moved.map Transfer.amount).sum)
    | _ => none

theorem draws_cons_claim (h : r.call.act c = .claimRevenue who) : draws c (r :: tr) =
    (who, (r.post.tokens.moved.map Transfer.amount).sum) :: draws c tr := by
  simp [draws, h]

theorem draws_cons_of_not (h : ∀ who, r.call.act c ≠ .claimRevenue who) :
    draws c (r :: tr) = draws c tr := by
  unfold draws
  rw [List.filterMap_cons_none]
  split
  next who heq => exact absurd heq (h who)
  next => rfl

/-- Everybody draws at most once, and always on the pool `P`. -/
structure DrawsOnce (P : Int) (c : Nat) (tr : List Receipt) : Prop where
  pool : ∀ r ∈ tr, ∀ who, r.call.act c = .claimRevenue who → r.pre.revenue.revenuePool c = P
  once : ((draws c tr).map Prod.fst).Nodup

theorem DrawsOnce.tail (h : DrawsOnce P c (r :: tr)) : DrawsOnce P c tr := by
  refine ⟨fun x hx => h.pool x (List.mem_cons_of_mem _ hx), ?_⟩
  have honce := h.once
  by_cases hclaim : ∃ who, r.call.act c = .claimRevenue who
  · obtain ⟨who, hwho⟩ := hclaim
    rw [draws_cons_claim hwho] at honce
    exact honce.of_cons
  · rwa [draws_cons_of_not fun who hwho => hclaim ⟨who, hwho⟩] at honce

/-- What an account shares of a pool: the contributors hold, each is due a share, and the
contributors' side is all there is. -/
abbrev Account.Draws (a : Account) (P : Int) (claims : List (Address × Int)) : Prop :=
  Shared (fun who => 0 < a.funds.contribution who) (a.due P) a.funds.revenueClaimed
    (a.contributorSide P) claims

/-- Acts that name no contributor leave the shares as they are. -/
theorem AccountStep.draws_kept (h : AccountStep env v c act moves delta a a')
    (hactor : act.actor = none) {claims : List (Address × Int)} (draws : a.Draws P claims) :
    a'.Draws P claims := by
  have hother : ∀ who, act.actor ≠ some who := fun who => by rw [hactor]; exact nofun
  have hentries := fun who => h.sameEntries (hother who)
  have hcontribution : a'.funds.contribution = a.funds.contribution :=
    funext fun who => (hentries who).contribution
  have hclaimed : a'.funds.revenueClaimed = a.funds.revenueClaimed :=
    funext fun who => (hentries who).claimed
  have heffective : a'.record.effectiveAmountRaised = a.record.effectiveAmountRaised := by
    cases h with
    | contributed | refunded => cases hactor
    | claimed => rw [Account.claimMilestone_record]
    | _ => rfl
  have hdue : a'.due P = a.due P := by
    funext who
    rw [Account.due, hcontribution, heffective, h.share_kept, Account.due]
  have hside : a'.contributorSide P = a.contributorSide P := by
    rw [Account.contributorSide, h.creatorSide_kept, Account.contributorSide]
  rw [Account.Draws, hcontribution, hclaimed, hdue, hside]
  exact draws

/-- While nothing has been paid out nobody has drawn. -/
theorem Account.Draws.nil_of_unpaid {claims : List (Address × Int)} (h : a.Draws P claims)
    (hzero : ∀ who, a.funds.revenueClaimed who = 0) : claims = [] := by
  cases claims with
  | nil => rfl
  | cons claim rest =>
      have hpos := h.positive claim List.mem_cons_self
      rw [hzero] at hpos
      exact absurd hpos (Int.lt_irrefl 0)

theorem Account.due_nonneg (books : a.Books) {pool : Int} (hpool : 0 ≤ pool)
    (who : Address) : 0 ≤ a.due pool who := by
  rw [Account.due_eq]
  exact part_nonneg books.contribution_nonneg
    (Int.mul_nonneg hpool (Int.natCast_nonneg _)) (by decide) books.effective_nonneg who

/-- One more contributor draws, who has not drawn before. -/
theorem Account.Draws.claim {claims : List (Address × Int)} (h : a.Draws a.funds.pool claims)
    (phase : a.Phase) (books : a.Books) (revenue : RevenueBooks c tr a) (claimers : a.Claimers)
    (hwho : 0 < a.funds.contribution who) (hfirst : a.funds.revenueClaimed who = 0)
    (hpos : 0 < a.claimable who) :
    (a.claim who).Draws a.funds.pool ((who, a.claimable who) :: claims) := by
  have hlast := Account.lastClaim_iff books claimers hwho
  have hdistributed := revenue.distributed
  have hshared := Shared.claim h revenue.finite (books.due_finite a.funds.pool)
    (Account.due_nonneg books revenue.poolNonneg)
    (Account.total_due_le phase books revenue.poolNonneg) hwho hfirst hpos
    (fun hothers => by
      unfold Account.claimable
      simp only [hlast.mpr ⟨hfirst, hothers⟩, true_and, hdistributed, hfirst]
      split <;> omega)
    (fun hothers => by
      have hnot : ¬ a.LastClaim who := fun hlastClaim => hothers (hlast.mp hlastClaim).2
      simp [Account.claimable, hnot, hfirst])
  have hclaimed : (a.claim who).funds.revenueClaimed =
      update a.funds.revenueClaimed who (a.claimable who) := by
    simp only [Account.claim, hfirst, Int.zero_add]
  rw [Account.Draws, hclaimed]
  exact hshared

theorem Passage.draws (passage : Passage host c tr cfg r act moves delta a a')
    (ih : DrawsOnce P c tr → a.Draws P (draws c tr)) (honce : DrawsOnce P c (r :: tr)) :
    a'.Draws P (ProofOfHeart.draws c (r :: tr)) := by
  have phase := passage.phase
  have revenue := passage.revenue
  have hact := passage.hact
  have hdraws := ih honce.tail
  have hquiet : act.actor = none → a'.Draws P (ProofOfHeart.draws c (r :: tr)) := by
    intro hactor
    have hnot : ∀ who, r.call.act c ≠ .claimRevenue who := fun who heq => by
      rw [← hact, heq] at hactor
      cases hactor
    rw [draws_cons_of_not hnot]
    exact passage.step.draws_kept hactor hdraws
  cases passage.step with
  | contributed nonempty pos accepts =>
      obtain ⟨-, hzero, -⟩ := revenue.unpaid (phase.unpaid accepts.of_live)
      rw [draws_cons_of_not (by rw [hact]; exact fun _ => nofun), hdraws.nil_of_unpaid hzero]
      obtain ⟨_, _, _, _, heq⟩ := a.contributeAll_eq (view r.pre).admin.admin _ _
      refine .nil fun who => ?_
      rw [heq]
      exact hzero who
  | @refunded _ payer token refundable =>
      obtain ⟨-, hzero, -⟩ := revenue.unpaid (refundable.unpaid phase)
      rw [draws_cons_of_not (by rw [hact]; exact fun _ => nofun), hdraws.nil_of_unpaid hzero]
      refine .nil fun who => ?_
      by_cases hwho : who = payer
      · simp [Account.refund, hwho]
      · simp [Account.refund, hwho, hzero]
  | @claimedRevenue _ token payer shares contributed undrawn pos =>
      have books := passage.books
      have claimers := run_claimers (c := c) passage.run (passage.pre ▸ passage.before)
      have hnonneg := books.contribution_nonneg payer
      have hpool : a.funds.pool = P := by
        rw [← honce.pool r List.mem_cons_self payer hact, pool_view,
          (View.account_eq_some.mp passage.before).2]
      subst hpool
      have hpaid : (r.post.tokens.moved.map Transfer.amount).sum = a.claimable payer := by
        rw [passage.hmoves]
        simp
      have hmine := honce.once
      rw [draws_cons_claim hact, List.map_cons, List.nodup_cons] at hmine
      rw [draws_cons_claim hact, hpaid]
      refine hdraws.claim phase books revenue claimers ?_ ?_ pos
      · omega
      · exact (hdraws.listed payer).resolve_right fun hmem =>
          hmine.1 (List.mem_map.mpr ⟨_, hmem, rfl⟩)
  | _ => exact hquiet rfl

theorem run_draws (run : Run (machine host) tr cfg)
    (ha : (view cfg.state).account c = some a) (honce : DrawsOnce P c tr) :
    a.Draws P (draws c tr) := by
  refine account_invariant (I := fun tr _ a => DrawsOnce P c tr → a.Draws P (draws c tr))
    (fun {tr r a} hacts hborn _ => ?_) (fun passage ih => passage.draws ih) run ha honce
  have hnone : draws c (r :: tr) = [] := by
    refine List.filterMap_eq_nil_iff.mpr fun x hx => ?_
    rw [hacts x hx]
  rw [hnone]
  cases hborn
  exact .nil fun _ => rfl

/-! ## The law -/

/-- A contributor's share of a pool. -/
def contributorShare (contribution pool : Int) (shareBps : Nat) (effective : Int) : Int :=
  contribution * pool * shareBps / effective / 10000

theorem Account.due_share (books : a.Books) {pool : Int} (hpool : 0 ≤ pool) (who : Address) :
    a.due pool who = contributorShare (a.funds.contribution who) pool
      a.record.revenueSharePercentage a.record.effectiveAmountRaised := by
  have hproduct : 0 ≤ a.funds.contribution who * pool * a.record.revenueSharePercentage :=
    Int.mul_nonneg (Int.mul_nonneg (books.contribution_nonneg who) hpool) (Int.natCast_nonneg _)
  have hpart := Int.ediv_nonneg hproduct books.effective_nonneg
  rw [Account.due, Int.tdiv_eq_ediv_of_nonneg hproduct, Int.tdiv_eq_ediv_of_nonneg hpart]
  rfl

theorem run_pool_nonneg (run : Run (machine host) tr cfg) (c : Nat) :
    0 ≤ cfg.state.revenue.revenuePool c := by
  rw [pool_view]
  cases hc : (view cfg.state).account c with
  | some a =>
      rw [(View.account_eq_some.mp hc).2]
      exact (run_revenueBooks run hc).poolNonneg
  | none =>
      rw [(run_sane run).blank c hc]
      exact Int.le_refl 0

theorem DrawsOnce.pool_nonneg (run : Run (machine host) tr cfg) (h : DrawsOnce P c tr)
    {claim : Address × Int} (hmem : claim ∈ draws c tr) : 0 ≤ P := by
  have hpools : ∀ r ∈ tr, 0 ≤ r.pre.revenue.revenuePool c := by
    refine run_receipts ?_ ?_ run
    · rintro r cfg ⟨-, ⟨tokens, hpre⟩, -, -⟩
      rw [hpre]
      exact Int.le_refl 0
    · intro tr cfg r run hvalid hpre
      rw [hpre]
      exact run_pool_nonneg run c
  obtain ⟨r, hr, hclaim⟩ := List.mem_filterMap.mp hmem
  split at hclaim
  next who hact =>
      rw [← h.pool r hr who hact]
      exact hpools r hr
  next => cases hclaim

/-- A campaign that has been paid out has a contributor. -/
theorem exists_contributor (run : Run (machine host) tr cfg)
    (ha : (view cfg.state).account c = some a) (withdrawn : a.record.fundsWithdrawn = true) :
    ∃ who, 0 < a.funds.contribution who := by
  by_contra hnone
  have phase := run_phase run ha
  obtain ⟨books, hwhole | hrefundable⟩ := run_books run ha
  · have hzero : a.funds.contribution = fun _ => 0 := by
      funext who
      exact Int.le_antisymm (Int.not_lt.mp fun hpos => hnone ⟨who, hpos⟩)
        (books.contribution_nonneg who)
    have hlive := books.live
    have hgoal := phase.funded withdrawn
    have hpos := phase.goalPos
    rw [hzero, total_zero, books.effective_eq hwhole] at hlive
    omega
  · exact Bool.noConfusion (withdrawn.symm.trans (hrefundable.unpaid phase))

/-- If every contributor draws once on a pool that stays as it is, in any order, each but the
last gets the share, the last gets what is left, and together they get all that the creator
is not entitled to. -/
theorem fixedPool_distributed (run : Run (machine host) tr cfg)
    (hrecord : cfg.state.campaigns.campaign c = some record)
    (withdrawn : record.fundsWithdrawn = true) (honce : DrawsOnce P c tr)
    (hall : ∀ who, cfg.state.contributions.contribution c who ≠ 0 →
      who ∈ (draws c tr).map Prod.fst) :
    ∃ who amount before, draws c tr = (who, amount) :: before ∧
      (∀ claim ∈ before, claim.2 =
        contributorShare (cfg.state.contributions.contribution c claim.1) P
          record.revenueSharePercentage record.effectiveAmountRaised) ∧
      amount = P - creatorEntitlement P record.revenueSharePercentage -
        (before.map Prod.snd).sum ∧
      contributorShare (cfg.state.contributions.contribution c who) P
        record.revenueSharePercentage record.effectiveAmountRaised ≤ amount ∧
      ((draws c tr).map Prod.snd).sum =
        P - creatorEntitlement P record.revenueSharePercentage := by
  have ha := View.account_of_campaign (v := view cfg.state) hrecord
  have books := (run_books run ha).1
  have hdraws := run_draws run ha honce
  obtain ⟨holder, hholder⟩ := exists_contributor run ha withdrawn
  have hsome := hall holder (ne_of_gt hholder)
  have hclaimed : ∀ who, 0 < cfg.state.contributions.contribution c who →
      0 < cfg.state.revenue.revenueClaimed c who := fun who hpos => by
    obtain ⟨claim, hmem, rfl⟩ := List.mem_map.mp (hall who (ne_of_gt hpos))
    exact hdraws.positive claim hmem
  obtain hnil | ⟨⟨who, amount⟩, before, hlist, hbefore, hmine, hsum⟩ := hdraws.done hclaimed
  · rw [hnil] at hsome
    cases hsome
  · have hpool : 0 ≤ P := honce.pool_nonneg run (hlist ▸ List.mem_cons_self)
    have hside : Account.contributorSide ⟨record, (view cfg.state).funds c⟩ P =
        P - creatorEntitlement P record.revenueSharePercentage :=
      congrArg (P - ·) (Account.creatorSide_eq (run_phase run ha) hpool)
    rw [hside] at hsum
    refine ⟨who, amount, before, hlist, fun claim hmem => ?_, ?_, ?_, hsum⟩
    · rw [hbefore claim hmem]
      exact Account.due_share books hpool claim.1
    · rw [hlist, List.map_cons, List.sum_cons] at hsum
      omega
    · exact le_of_eq_of_le (Account.due_share books hpool who).symm hmine

/-- Three contributors of unequal parts draw on an odd pool. -/
def Sample.divided : List Request :=
  opened 5000 ++
    [ask 1 alice (.contribute 1 alice 30000), ask 1 bob (.contribute 1 bob 30000),
      ask 1 heir (.contribute 1 heir 40000), ask 2 creator (.withdrawFunds 1),
      ask 3 creator (.depositRevenue 1 333), ask 4 bob (.claimRevenue 1 bob),
      ask 5 heir (.claimRevenue 1 heir), ask 6 alice (.claimRevenue 1 alice)]

theorem fixedPool_sample :
    ∃ tr cfg, Run (machine Sample.host) tr cfg ∧
      draws 1 tr = [(Sample.alice, 52), (Sample.heir, 66), (Sample.bob, 49)] ∧
      ((draws 1 tr).map Prod.snd).sum = 333 - creatorEntitlement 333 5000 := by
  have h : Sample.Ends 0 Sample.divided fun tr cfg =>
      (cfg.state.campaigns.campaign 1).map
        (fun record => (record.fundsWithdrawn, record.revenueSharePercentage)) =
          some (true, 5000) ∧
      (∀ r ∈ tr, (r.call.act 1).isRevenueClaim = true → r.pre.revenue.revenuePool 1 = 333) ∧
      ((draws 1 tr).map Prod.fst).Nodup ∧
      cfg.state.revenue.contributorRevenueClaimants 1 =
        cfg.state.contributions.contributorCount 1 ∧
      draws 1 tr = [(Sample.alice, 52), (Sample.heir, 66), (Sample.bob, 49)] := by
    decide +kernel
  obtain ⟨tr, cfg, run, hcampaign, hpool, hnodup, hcounters, hdraws⟩ := h.run
  obtain ⟨record, hrecord, hterms⟩ := Option.map_eq_some_iff.mp hcampaign
  obtain ⟨hwithdrawn, hshare⟩ := Prod.mk.inj hterms
  have ha := View.account_of_campaign (v := view cfg.state) hrecord
  have books := (run_books run ha).1
  have honce : DrawsOnce 333 1 tr :=
    ⟨fun r hr who hact => hpool r hr (by rw [hact]; rfl), hnodup⟩
  have hall : ∀ who, cfg.state.contributions.contribution 1 who ≠ 0 →
      who ∈ (draws 1 tr).map Prod.fst := by
    intro who hne
    have hpos : 0 < cfg.state.contributions.contribution 1 who := books.contribution_pos hne
    have hclaimed := Account.claimed_of_counters books (run_claimers run ha) hcounters hpos
    exact List.mem_map.mpr
      ⟨_, ((run_draws run ha honce).listed who).resolve_left (ne_of_gt hclaimed), rfl⟩
  obtain ⟨who, amount, before, -, -, -, -, hsum⟩ :=
    fixedPool_distributed run hrecord hwithdrawn honce hall
  rw [hshare] at hsum
  exact ⟨tr, cfg, run, hdraws, hsum⟩

end ProofOfHeart
