import ProofOfHeart.Laws.Dust

/-! # A contributor's part of the revenue

What a contributor is due is computed afresh from the whole pool at every claim, and a
claim pays what is missing. So a contributor has at any time been paid for the pool as it
stood at the latest claim, no matter how it was deposited and how often and by whom it
was drawn. The one exception is the sweep, which at most one claim of a run makes.
-/

namespace ProofOfHeart

open Checked Function Trace Balances

variable {host : Host} {tr : List Receipt} {cfg : Config} {r : Receipt} {env : Env} {c : Nat}
  {a a' : Account} {v : View} {act : Act} {moves : List Transfer} {delta P : Int} {who : Address}
  {record : Campaign}

def Act.isClaimBy (who : Address) : Act → Bool
  | .claimRevenue payee => payee = who
  | _ => false

theorem Act.isClaimBy_iff : act.isClaimBy who = true ↔ act = .claimRevenue who := by
  cases act with
  | claimRevenue payee => simp [Act.isClaimBy]
  | _ => exact iff_of_false Bool.false_ne_true nofun

/-- The latest claim of the contributor was no sweep and found the pool `P`. -/
def LatestClaim (c : Nat) (who : Address) (P : Int) (tr : List Receipt) : Prop :=
  Since (fun r => r.call.act c ≠ .claimRevenue who) (fun r => r.call.act c = .claimRevenue who ∧
    r.sweeps c = false ∧ r.pre.revenue.revenuePool c = P) tr

/-! ## One step -/

/-- After the payout the shares stand. -/
structure Account.SharesKept (a a' : Account) : Prop where
  withdrawn : a'.record.fundsWithdrawn = true
  contribution : a'.funds.contribution = a.funds.contribution
  due : a'.due = a.due

theorem AccountStep.shares_kept (h : AccountStep env v c act moves delta a a') (phase : a.Phase)
    (withdrawn : a.record.fundsWithdrawn = true) : a.SharesKept a' := by
  have hpaid : a.record.fundsWithdrawn ≠ false := ne_false_of_eq_true withdrawn
  cases h with
  | contributed nonempty pos accepts => exact absurd (phase.unpaid accepts.of_live) hpaid
  | refunded refundable => exact absurd (refundable.unpaid phase) hpaid
  | withdrew payable | claimed payable => exact absurd payable.notWithdrawn hpaid
  | cancelled live unpaid | adminCancelled live unpaid => exact absurd unpaid hpaid
  | _ => exact ⟨withdrawn, rfl, rfl⟩

theorem AccountStep.pool_le (h : AccountStep env v c act moves delta a a')
    (revenue : RevenueBooks c tr a) : a.funds.pool ≤ a'.funds.pool := by
  cases hdeposit : act.isDeposit with
  | false => exact Int.le_of_eq (h.pool_kept revenue hdeposit).symm
  | true =>
      cases h with
      | deposited shares raised pos => exact Int.le_add_of_nonneg_right (Int.le_of_lt pos)
      | _ => cases hdeposit

/-- Only the own claims change what a contributor has drawn. -/
theorem AccountStep.drawn_kept (h : AccountStep env v c act moves delta a a') (phase : a.Phase)
    (revenue : RevenueBooks c tr a) (hclaim : act ≠ .claimRevenue who) :
    a'.funds.revenueClaimed who = a.funds.revenueClaimed who := by
  cases h with
  | contributed =>
      obtain ⟨_, _, _, _, heq⟩ := a.contributeAll_eq v.admin.admin _ _
      rw [heq]
  | @refunded _ payer token refundable =>
      obtain ⟨-, hzero, -⟩ := revenue.unpaid (refundable.unpaid phase)
      simp only [Account.refund, ← hzero payer, update_eq_self]
  | @claimedRevenue _ token payee =>
      have hother : who ≠ payee := fun heq => hclaim (congrArg Act.claimRevenue heq.symm)
      exact update_of_ne hother _ _
  | _ => rfl

/-- A claim that does not sweep pays what is missing. -/
theorem Account.claim_of_not_sweeps (ha : (view r.pre).account c = some a)
    (hact : r.call.act c = .claimRevenue who) (hsweeps : r.sweeps c = false) :
    a.funds.revenueClaimed who + a.claimable who = a.due a.funds.pool who := by
  have hnot : ¬ (a.LastClaim who ∧ a.contributorSide a.funds.pool - a.funds.distributed >
      a.due a.funds.pool who - a.funds.revenueClaimed who) := by
    simpa only [Receipt.sweeps, hact, ha, decide_eq_false_iff_not] using hsweeps
  rw [Account.claimable, if_neg hnot]
  omega

/-! ## Along a run -/

/-- Revenue is claimed only after the payout. -/
theorem run_claimed_withdrawn (run : Run (machine host) tr cfg)
    (ha : (view cfg.state).account c = some a) :
    (∃ r ∈ tr, ∃ who, r.call.act c = .claimRevenue who) → a.record.fundsWithdrawn = true := by
  refine account_invariant (I := fun tr _ a => (∃ r ∈ tr, ∃ who,
    r.call.act c = .claimRevenue who) → a.record.fundsWithdrawn = true) ?_ ?_ run ha
  · rintro tr r a hacts - ⟨x, hx, who, hact⟩
    rw [hacts x hx] at hact
    cases hact
  · rintro tr cfg r act moves delta a a' passage ih ⟨x, hx, who, hact⟩
    rcases List.mem_cons.mp hx with rfl | hx
    · obtain rfl := passage.hact.symm.trans hact
      cases passage.step with
      | claimedRevenue shares => exact shares.withdrawn
    · exact (passage.step.shares_kept passage.phase (ih ⟨x, hx, who, hact⟩)).withdrawn

/-- What a contributor has drawn. -/
structure Drawing (c : Nat) (who : Address) (tr : List Receipt) (a : Account) : Prop where
  paid : paidFor (Act.isClaimBy who) c tr = a.funds.revenueClaimed who
  upToDate : ∀ P, LatestClaim c who P tr → a.funds.revenueClaimed who = a.due P who
  within : (∀ r ∈ tr, r.call.act c = .claimRevenue who → r.sweeps c = false) →
    a.funds.revenueClaimed who = 0 ∨ a.funds.revenueClaimed who ≤ a.due a.funds.pool who

theorem Passage.drawing (passage : Passage host c tr cfg r act moves delta a a')
    (ih : Drawing c who tr a) : Drawing c who (r :: tr) a' := by
  have phase := passage.phase
  have revenue := passage.revenue
  have hact := passage.hact
  have hpaid : paidFor (Act.isClaimBy who) c (r :: tr) = _ := passage.paidFor_cons
  rw [ih.paid] at hpaid
  by_cases hclaim : act = .claimRevenue who
  · subst hclaim
    have hshare := Account.claim_of_not_sweeps passage.before hact
    have hpool : r.pre.revenue.revenuePool c = a.funds.pool := by
      rw [pool_view, (View.account_eq_some.mp passage.before).2]
    cases passage.step with
    | claimedRevenue shares contributed undrawn pos =>
        have hclaimed : (a.claim who).funds.revenueClaimed who =
          a.funds.revenueClaimed who + a.claimable who := update_self ..
        rw [Act.pays, if_pos (Act.isClaimBy_iff.mpr rfl)] at hpaid
        refine ⟨hpaid.trans ?_, fun P hlatest => ?_, fun hnever => .inr ?_⟩
        · rw [hclaimed, Int.add_comm, List.map_singleton, List.sum_singleton]
        · cases hlatest with
          | now hevent =>
              obtain ⟨-, hsweeps, rfl⟩ := hevent
              rw [hclaimed, hshare hsweeps, hpool]
              rfl
          | later hother => exact absurd hact hother
        · rw [hclaimed, hshare (hnever r List.mem_cons_self hact)]
          exact Int.le_refl _
  · have hquiet : act.isClaimBy who = false :=
      Bool.eq_false_of_not_eq_true fun h => hclaim (Act.isClaimBy_iff.mp h)
    have hdrawn := passage.step.drawn_kept phase revenue hclaim
    rw [Act.pays_of_not hquiet, Int.zero_add] at hpaid
    have hnow : r.call.act c ≠ .claimRevenue who := fun heq => hclaim (hact.symm.trans heq)
    cases withdrawn : a.record.fundsWithdrawn with
    | true =>
        have kept := passage.step.shares_kept phase withdrawn
        refine ⟨hpaid.trans hdrawn.symm, fun P hlatest => ?_, fun hnever => ?_⟩
        · cases hlatest with
          | now hevent => exact absurd hevent.1 hnow
          | later _ hearlier => rw [hdrawn, kept.due, ih.upToDate P hearlier]
        · rw [hdrawn, kept.due]
          refine (ih.within fun x hx => hnever x (List.mem_cons_of_mem _ hx)).imp id fun hle => ?_
          exact Int.le_trans hle (Account.due_mono passage.books revenue.poolNonneg
            (passage.step.pool_le revenue) who)
    | false =>
        obtain ⟨-, hzero, -⟩ := revenue.unpaid withdrawn
        refine ⟨hpaid.trans hdrawn.symm, fun P hlatest => ?_,
          fun _ => .inl (hdrawn.trans (hzero who))⟩
        cases hlatest with
        | now hevent => exact absurd hevent.1 hnow
        | later _ hearlier =>
            -- somebody has claimed before the payout
            obtain ⟨later, x, earlier, rfl, hevent, -⟩ := since_iff.mp hearlier
            have hpaidOut := run_claimed_withdrawn passage.run (passage.pre ▸ passage.before)
              ⟨x, List.mem_append_right _ List.mem_cons_self, who, hevent.1⟩
            rw [withdrawn] at hpaidOut
            cases hpaidOut

theorem run_drawing (run : Run (machine host) tr cfg)
    (ha : (view cfg.state).account c = some a) : Drawing c who tr a := by
  refine account_invariant (I := fun tr _ a => Drawing c who tr a) (fun {tr r a} hacts hborn => ?_)
    (fun passage ih => passage.drawing ih) run ha
  have hpaid : paidFor (Act.isClaimBy who) c (r :: tr) = 0 := paidFor_eq_zero rfl hacts
  have hnever : ∀ P, ¬ LatestClaim c who P (r :: tr) := by
    intro P hlatest
    obtain ⟨later, x, earlier, heq, hevent, -⟩ := since_iff.mp hlatest
    have hother := hacts x (heq ▸ List.mem_append_right _ List.mem_cons_self)
    rw [hother] at hevent
    cases hevent.1
  cases hborn
  exact ⟨hpaid, fun P hlatest => absurd hlatest (hnever P), fun _ => .inl rfl⟩

/-! ## The sweep -/

theorem Receipt.sweeps_iff (ha : (view r.pre).account c = some a) : r.sweeps c = true ↔
    ∃ payee, r.call.act c = .claimRevenue payee ∧ a.LastClaim payee ∧
      a.due a.funds.pool payee - a.funds.revenueClaimed payee <
        a.contributorSide a.funds.pool - a.funds.distributed := by
  rw [Receipt.sweeps, ha]
  cases r.call.act c with
  | claimRevenue payee => simp
  | _ =>
      refine iff_of_false Bool.false_ne_true fun hclaims => ?_
      obtain ⟨payee, hact, -⟩ := hclaims
      cases hact

theorem mem_draws_cons (h : who ∈ (draws c tr).map Prod.fst) :
    who ∈ (draws c (r :: tr)).map Prod.fst :=
  (((List.sublist_cons_self r tr).filterMap _).map _).subset h

/-- What the contributors have drawn together. -/
theorem draws_paid : ((draws c tr).map Prod.snd).sum + paidFor Act.isCreatorClaim c tr =
    paidFor Act.isRevenueClaim c tr := by
  induction tr with
  | nil => rfl
  | cons r tr ih =>
      rw [paidFor_cons, paidFor_cons, ← ih]
      by_cases hclaim : ∃ payee, r.call.act c = .claimRevenue payee
      · obtain ⟨payee, hact⟩ := hclaim
        rw [draws_cons_claim hact, hact]
        simp only [List.map_cons, List.sum_cons, Act.pays, Act.isCreatorClaim, Act.isRevenueClaim,
          if_true, Bool.false_eq_true, if_false]
        omega
      · rw [draws_cons_of_not fun payee hact => hclaim ⟨payee, hact⟩]
        have hsame : (r.call.act c).pays Act.isCreatorClaim r.post.tokens.moved =
            (r.call.act c).pays Act.isRevenueClaim r.post.tokens.moved := by
          cases hact : r.call.act c with
          | claimRevenue payee => exact absurd ⟨payee, hact⟩ hclaim
          | _ => rfl
        omega

theorem run_drawn_sum (run : Run (machine host) tr cfg)
    (ha : (view cfg.state).account c = some a) :
    ((draws c tr).map Prod.snd).sum = a.funds.distributed := by
  have hpaid := (run_revenueBooks run ha).paid
  rw [← (run_creatorPaid run ha).paid, ← draws_paid] at hpaid
  omega

/-- The claim sweeps: everybody else has claimed before, it is the first claim of the last
one, no claim has swept before, and nothing is left of the contributors' side. -/
structure Sweeping (c : Nat) (r : Receipt) (earlier : List Receipt) (payee : Address) : Prop where
  claims : r.call.act c = .claimRevenue payee
  first : payee ∉ (draws c earlier).map Prod.fst
  others : ∀ other, other ≠ payee → r.pre.contributions.contribution c other ≠ 0 →
    other ∈ (draws c earlier).map Prod.fst
  only : ∀ x ∈ earlier, x.sweeps c = false
  rest : ∀ record, r.pre.campaigns.campaign c = some record →
    ((draws c (r :: earlier)).map Prod.snd).sum = r.pre.revenue.revenuePool c -
      creatorEntitlement (r.pre.revenue.revenuePool c) record.revenueSharePercentage

/-- After a sweep every contributor has drawn. -/
structure Swept (c : Nat) (tr : List Receipt) (a : Account) : Prop where
  drawn : (∃ r ∈ tr, r.sweeps c = true) → ∀ who, a.funds.contribution who ≠ 0 →
    who ∈ (draws c tr).map Prod.fst
  sweeping : ∀ later r earlier, tr = later ++ r :: earlier → r.sweeps c = true →
    ∃ payee, Sweeping c r earlier payee

theorem Passage.swept (passage : Passage host c tr cfg r act moves delta a a')
    (ih : Swept c tr a) : Swept c (r :: tr) a' := by
  have phase := passage.phase
  have hact := passage.hact
  have ha := passage.pre ▸ passage.before
  have hsweeps := Receipt.sweeps_iff passage.before
  refine ⟨fun hsome other hother => ?_, forall_split_cons.mpr ⟨fun hswept => ?_, ih.sweeping⟩⟩
  · obtain ⟨x, hx, hswept⟩ := hsome
    rcases List.mem_cons.mp hx with rfl | hx
    · obtain ⟨payee, hclaim, last, -⟩ := hsweeps.mp hswept
      obtain rfl := hact.symm.trans hclaim
      cases passage.step with
      | claimedRevenue shares contributed =>
          by_cases heq : other = payee
          · exact (mem_draws_cons_claim hclaim).mpr (.inl heq)
          · exact mem_draws_cons ((drawn_of_lastClaim passage.run ha contributed last).2 other heq
              hother)
    · obtain ⟨later, earlier, heq⟩ := List.append_of_mem hx
      obtain ⟨payee, sweeping⟩ := ih.sweeping later x earlier heq hswept
      have withdrawn := run_claimed_withdrawn passage.run ha ⟨x, hx, payee, sweeping.claims⟩
      have kept := passage.step.shares_kept phase withdrawn
      rw [kept.contribution] at hother
      exact mem_draws_cons (ih.drawn ⟨x, hx, hswept⟩ other hother)
  · obtain ⟨payee, hclaim, last, hmore⟩ := hsweeps.mp hswept
    obtain rfl := hact.symm.trans hclaim
    cases passage.step with
    | claimedRevenue shares contributed =>
        obtain ⟨hfirst, hothers⟩ := drawn_of_lastClaim passage.run ha contributed last
        obtain ⟨hcampaign, hfunds⟩ := View.account_eq_some.mp passage.before
        refine ⟨payee, hclaim, hfirst, fun other hother hne => ?_, fun x hx => ?_,
          fun record hrecord => ?_⟩
        · rw [contribution_view, hfunds] at hne
          exact hothers other hother hne
        · refine Bool.eq_false_of_not_eq_true fun hbefore => ?_
          exact hfirst (ih.drawn ⟨x, hx, hbefore⟩ payee contributed)
        · obtain rfl : record = a.record := Option.some.inj (hrecord.symm.trans hcampaign)
          have hside := run_creatorSide passage.run ha
          have hpays : a.claimable payee =
              a.contributorSide a.funds.pool - a.funds.distributed := if_pos ⟨last, hmore⟩
          rw [draws_cons_claim hclaim, List.map_cons, List.sum_cons, run_drawn_sum passage.run ha,
            passage.hmoves, List.map_singleton, List.sum_singleton, hpays, Account.contributorSide,
            hside, pool_view, hfunds]
          dsimp only
          omega

theorem run_swept (run : Run (machine host) tr cfg)
    (ha : (view cfg.state).account c = some a) : Swept c tr a := by
  refine account_invariant (I := fun tr _ a => Swept c tr a) (fun {tr r a} hacts _ => ?_)
    (fun passage ih => passage.swept ih) run ha
  have hnone : ∀ x ∈ r :: tr, x.sweeps c = false := by
    intro x hx
    rw [Receipt.sweeps, hacts x hx]
  refine ⟨fun hsome => ?_, fun later x earlier heq hswept => ?_⟩
  · obtain ⟨x, hx, hswept⟩ := hsome
    rw [hnone x hx] at hswept
    cases hswept
  · rw [hnone x (heq ▸ List.mem_append_right _ List.mem_cons_self)] at hswept
    cases hswept

/-! ## When a claim is refused -/

theorem run_claimed_le (run : Run (machine host) tr cfg)
    (ha : (view cfg.state).account c = some a) (who : Address) :
    a.funds.revenueClaimed who ≤ a.funds.pool := by
  have revenue := run_revenueBooks run ha
  have htotal := Account.claimed_le_pool (run_phase run ha) (run_books run ha).1
    (run_share_le run ha) revenue.poolNonneg revenue.finite (run_moderate run ha).overdrawn
  exact Int.le_trans (le_total revenue.finite (run_claimers run ha).nonneg who) htotal

/-- A claim of what has been drawn is turned away. -/
theorem claimRevenue_drawn {s : State} (ha : (view s).account c = some a)
    (claims : ContributorClaims env s a who) (effective : 0 < a.record.effectiveAmountRaised)
    (nonneg : 0 ≤ a.funds.contribution who) (hpool : 0 ≤ a.funds.pool)
    (fits : FitsShare (a.funds.contribution who) a.funds.pool a.record.revenueSharePercentage)
    (inRange : I128.InRange (a.due a.funds.pool who - a.funds.revenueClaimed who))
    (drawn : a.due a.funds.pool who ≤ a.funds.revenueClaimed who) :
    claimRevenue env s c who = .error (.err .noFundsToWithdraw) := by
  obtain ⟨hrecord, hfunds⟩ := View.account_eq_some.mp ha
  have hcontribution : s.contributions.contribution c who = a.funds.contribution who := by
    rw [contribution_view, hfunds]
  have hpoolView : s.revenue.revenuePool c = a.funds.pool := by rw [pool_view, hfunds]
  have hclaimed : s.revenue.revenueClaimed c who = a.funds.revenueClaimed who := by
    rw [revenueClaimed_view, hfunds]
  suffices gated : Gated False (.err .noFundsToWithdraw) (fun _ => False)
    (claimRevenue env s c who) from gated.fails not_false
  obtain ⟨due, hdue⟩ := (revenueDue_needs nonneg hpool effective).goes fits
  obtain rfl : due = a.due a.funds.pool who := revenueDue_ok hdue
  unfold claimRevenue
  rw [hcontribution, hpoolView, hclaimed]
  apply Gated.guard (requireAuth_eq_ok.mpr claims.signed)
  apply Gated.guard (requireNotPaused_eq_ok.mpr claims.unpaused)
  apply Gated.found hrecord
  apply Gated.check (by simp [claims.shares.notCancelled])
  apply Gated.check (by simp [claims.shares.sharing])
  apply Gated.check (by simp [claims.shares.withdrawn])
  apply Gated.check claims.contributed
  apply Gated.check (ne_of_gt effective)
  apply Gated.pass hdue
  apply Gated.found (I128.checkedSub_eq_some.mpr ⟨rfl, inRange⟩)
  exact .rejected (Int.sub_nonpos_of_le drawn)

/-! ## The law -/

theorem run_pools_nonneg (run : Run (machine host) tr cfg) (c : Nat) :
    ∀ r ∈ tr, 0 ≤ r.pre.revenue.revenuePool c := by
  refine run_receipts ?_ ?_ run
  · rintro r cfg ⟨-, ⟨tokens, hpre⟩, -, -⟩
    rw [hpre]
    exact Int.le_refl 0
  · intro tr cfg r run hvalid hpre
    rw [hpre]
    exact run_pool_nonneg run c

theorem run_claim_refused (run : Run (machine host) tr cfg)
    (ha : (view cfg.state).account c = some a) (claims : ContributorClaims env cfg.state a who)
    (fits : FitsShare (a.funds.contribution who) a.funds.pool a.record.revenueSharePercentage) :
    invoke env cfg.state (.claimRevenue c who) = .error (.err .noFundsToWithdraw) ↔
      a.due a.funds.pool who ≤ a.funds.revenueClaimed who := by
  have books := (run_books run ha).1
  have hpool := (run_revenueBooks run ha).poolNonneg
  have hwho := books.contribution_pos claims.contributed
  have typed : (Call.claimRevenue c who).WellTyped := run_isU32 run (View.account_eq_some.mp ha).1
  constructor
  · intro hrefused
    by_contra hopen
    have admissible : Admissible env cfg.state (.claimRevenue c who) :=
      .claimRevenue ha claims (Int.not_le.mp hopen)
    have gated := settlement_gated run typed admissible
    have hother : ¬ Abort.InPayment (.err .noFundsToWithdraw) := not_false
    exact gated.ne_error (by decide) hother hrefused
  · intro drawn
    have hdue := Account.due_nonneg books hpool who
    have hclaimed := run_claimed_le run ha who
    have hin : I128.InRange a.funds.pool :=
      (I128.InRange.of_nonneg hpool).mpr ((run_bounded run).account c a ha).pool
    have hrest : I128.InRange (a.funds.revenueClaimed who - a.due a.funds.pool who) :=
      hin.of_le (by omega) (by omega)
    rw [invoke_eq typed]
    refine claimRevenue_drawn (s := cfg.state.clearMoved) ha
      ⟨claims.signed, claims.unpaused, claims.shares, claims.contributed⟩
      (Int.lt_of_lt_of_le hwho (books.contribution_le_effective who))
      (books.contribution_nonneg who) hpool fits ?_ drawn
    have hmin : I128.minValue = -I128.maxValue - 1 := by decide
    obtain ⟨-, hmost⟩ := hrest
    exact ⟨by omega, by omega⟩

/-- A contributor has always been paid the share of the pool that the latest claim found,
unless that was the sweep, and without the sweep never more than the share of the present
pool; a claim is refused for want of funds exactly when that much has been paid. The sweep
comes at most once, after the claims of all others, and leaves nothing. -/
theorem contributorRevenue_upToDate (run : Run (machine host) tr cfg)
    (hrecord : cfg.state.campaigns.campaign c = some record) (who : Address) :
    (∀ later r earlier, tr = later ++ r :: earlier → r.call.act c = .claimRevenue who →
      (∀ x ∈ later, x.call.act c ≠ .claimRevenue who) → r.sweeps c = false →
      paidFor (Act.isClaimBy who) c tr = contributorShare
        (cfg.state.contributions.contribution c who) (r.pre.revenue.revenuePool c)
        record.revenueSharePercentage record.effectiveAmountRaised) ∧
    ((∀ r ∈ tr, r.call.act c = .claimRevenue who → r.sweeps c = false) →
      paidFor (Act.isClaimBy who) c tr ≤ contributorShare
        (cfg.state.contributions.contribution c who) (cfg.state.revenue.revenuePool c)
        record.revenueSharePercentage record.effectiveAmountRaised) ∧
    (∀ later r earlier, tr = later ++ r :: earlier → r.sweeps c = true →
      ∃ payee, Sweeping c r earlier payee) ∧
    ∀ env : Env, env.auth who = true →
      cfg.state.admin.paused = false → cfg.state.admin.autoPaused = false →
      record.fundsWithdrawn = true → record.hasRevenueSharing = true →
      cfg.state.contributions.contribution c who ≠ 0 →
      FitsShare (cfg.state.contributions.contribution c who) (cfg.state.revenue.revenuePool c)
        record.revenueSharePercentage →
      (invoke env cfg.state (.claimRevenue c who) = .error (.err .noFundsToWithdraw) ↔
        contributorShare (cfg.state.contributions.contribution c who)
            (cfg.state.revenue.revenuePool c) record.revenueSharePercentage
            record.effectiveAmountRaised ≤ paidFor (Act.isClaimBy who) c tr) := by
  have ha := View.account_of_campaign (v := view cfg.state) hrecord
  have books := (run_books run ha).1
  have hpool := (run_revenueBooks run ha).poolNonneg
  have drawing : Drawing c who tr ⟨record, (view cfg.state).funds c⟩ := run_drawing run ha
  obtain ⟨paid, upToDate, within⟩ := drawing
  have hshare := Account.due_share books hpool who
  refine ⟨fun later r earlier heq hact hlater hsweeps => ?_, fun hnever => ?_,
    (run_swept run ha).sweeping, ?_⟩
  · have hlatest : LatestClaim c who (r.pre.revenue.revenuePool c) tr :=
      since_iff.mpr ⟨later, r, earlier, heq, ⟨hact, hsweeps, rfl⟩, hlater⟩
    have hmem : r ∈ tr := heq ▸ List.mem_append_right _ List.mem_cons_self
    rw [paid, upToDate _ hlatest, Account.due_share books (run_pools_nonneg run c r hmem)]
    rfl
  · rw [paid]
    rcases within hnever with hzero | hle
    · rw [hzero]
      exact Int.le_trans (Account.due_nonneg books hpool who) (Int.le_of_eq hshare)
    · exact Int.le_trans hle (Int.le_of_eq hshare)
  · intro env signed hpaused hauto withdrawn sharing contributed fits
    have claims : ContributorClaims env cfg.state _ who := ⟨signed, ⟨hpaused, hauto⟩,
      ⟨(run_phase run ha).notCancelled withdrawn, sharing, withdrawn⟩, contributed⟩
    rw [paid]
    exact (run_claim_refused run ha claims fits).trans (iff_of_eq (congrArg (· ≤ _) hshare))

/-- Of `Sample.swept`, where Bob sweeps between the two claims of Alice. -/
theorem contributorRevenue_sample : ∃ tr cfg, Run (machine Sample.host) tr cfg ∧
    cfg.state.revenue.revenuePool 1 = 2000 ∧
    paidFor (Act.isClaimBy Sample.alice) 1 tr = contributorShare 50000 2000 5000 100000 := by
  have h : Sample.Ends 0 Sample.swept fun tr cfg =>
      (cfg.state.campaigns.campaign 1).map
        (fun record => (record.revenueSharePercentage, record.effectiveAmountRaised)) =
          some (5000, 100000) ∧
      cfg.state.contributions.contribution 1 Sample.alice = 50000 ∧
      cfg.state.revenue.revenuePool 1 = 2000 ∧
      ∃ r ∈ tr.head?, r.call.act 1 = .claimRevenue Sample.alice ∧ r.sweeps 1 = false ∧
        r.pre.revenue.revenuePool 1 = 2000 := by
    decide +kernel
  obtain ⟨tr, cfg, run, hcampaign, hcontribution, hpool, r, hhead, hact, hsweeps, hfound⟩ := h.run
  obtain ⟨record, hrecord, hterms⟩ := Option.map_eq_some_iff.mp hcampaign
  obtain ⟨hshare, heffective⟩ := Prod.mk.inj hterms
  obtain ⟨earlier, heq⟩ := List.head?_eq_some_iff.mp hhead
  have hpaid := (contributorRevenue_upToDate run hrecord Sample.alice).1 [] r earlier heq hact
    (fun x hx => nomatch hx) hsweeps
  rw [hcontribution, hfound, hshare, heffective] at hpaid
  exact ⟨tr, cfg, run, hpool, hpaid⟩

end ProofOfHeart
