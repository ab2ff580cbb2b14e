import ProofOfHeart.Account.Failure
import ProofOfHeart.Account.Terms
import ProofOfHeart.Laws.CreatorIndex
import ProofOfHeart.Laws.RevenueSharing

/-! # The creator's part of the revenue

What the creator is entitled to is computed afresh from the whole pool at every claim,
and a claim pays what is missing. After a claim the creator has therefore been paid for
the pool as it stands, however it was deposited and drawn before.
-/

namespace ProofOfHeart

open Checked Function Trace

variable {host : Host} {tr : List Receipt} {cfg : Config} {r : Receipt} {c : Nat} {a a' : Account}
  {env : Env} {v : View} {act : Act} {moves : List Transfer} {delta : Int} {s : State}
  {record : Campaign}

def Act.isCreatorClaim : Act → Bool
  | .claimCreatorRevenue => true
  | _ => false

/-- The creator has claimed, and nothing was deposited since. -/
def CreatorSettled (c : Nat) (tr : List Receipt) : Prop :=
  Since (fun r => (r.call.act c).isDeposit = false) (fun r => r.call = .claimCreatorRevenue c) tr

instance : Decidable (CreatorSettled c tr) := inferInstanceAs (Decidable (Since _ _ tr))

/-! ## One step -/

theorem AccountStep.share_kept (h : AccountStep env v c act moves delta a a') :
    a'.record.revenueSharePercentage = a.record.revenueSharePercentage :=
  congrArg Terms.revenueSharePercentage h.terms

theorem AccountStep.creatorSide_kept (h : AccountStep env v c act moves delta a a') :
    a'.creatorSide = a.creatorSide := by
  funext pool
  rw [Account.creatorSide, h.share_kept, Account.creatorSide]

/-- Only deposits change the pool. A creator cancels before the payout, when the pool is
still empty. -/
theorem AccountStep.pool_kept (h : AccountStep env v c act moves delta a a')
    (revenue : RevenueBooks c tr a) (hact : act.isDeposit = false) :
    a'.funds.pool = a.funds.pool := by
  cases h with
  | contributed =>
      obtain ⟨_, _, _, _, heq⟩ := a.contributeAll_eq v.admin.admin _ _
      rw [heq]
  | cancelled live unpaid =>
      obtain ⟨hzero, -⟩ := revenue.unpaid unpaid
      simp only [Account.cancelByCreator, Account.cancel, hzero]
      rfl
  | deposited => cases hact
  | _ => rfl

theorem AccountStep.creatorClaimed_kept (h : AccountStep env v c act moves delta a a')
    (hact : act.isCreatorClaim = false) : a'.funds.creatorClaimed = a.funds.creatorClaimed := by
  cases h with
  | contributed =>
      obtain ⟨_, _, _, _, heq⟩ := a.contributeAll_eq v.admin.admin _ _
      rw [heq]
  | claimedCreatorRevenue => cases hact
  | _ => rfl

/-! ## Along a run -/

/-- What the creator has been paid, and when that is all there is to pay. -/
structure CreatorPaid (c : Nat) (tr : List Receipt) (a : Account) : Prop where
  nonneg : 0 ≤ a.funds.creatorClaimed
  paid : paidFor Act.isCreatorClaim c tr = a.funds.creatorClaimed
  settled : CreatorSettled c tr → a.funds.creatorClaimed = a.creatorSide a.funds.pool

theorem Passage.creatorPaid (passage : Passage host c tr cfg r act moves delta a a')
    (ih : CreatorPaid c tr a) : CreatorPaid c (r :: tr) a' := by
  have hpaid : paidFor Act.isCreatorClaim c (r :: tr) = _ := passage.paidFor_cons
  have revenue := passage.revenue
  have hact := passage.hact
  rw [ih.paid] at hpaid
  cases hclaim : act.isCreatorClaim with
  | true =>
      cases passage.step with
      | claimedCreatorRevenue undrawn =>
          have hnonneg := Int.le_trans ih.nonneg (Int.le_of_lt undrawn)
          simp only [Act.pays, hclaim, if_true, List.map_cons, List.map_nil, List.sum_singleton]
            at hpaid
          refine ⟨hnonneg, hpaid.trans ?_, fun _ => rfl⟩
          simp only [Account.claimCreator]
          omega
      | _ => cases hclaim
  | false =>
      rw [Act.pays_of_not hclaim, Int.zero_add] at hpaid
      have hkept := passage.step.creatorClaimed_kept hclaim
      refine ⟨hkept ▸ ih.nonneg, hkept ▸ hpaid, fun hsettled => ?_⟩
      cases hsettled with
      | now hcall =>
          rw [hcall, Call.act, if_pos rfl] at hact
          rw [← hact] at hclaim
          cases hclaim
      | later hdeposit hearlier =>
          rw [hact] at hdeposit
          rw [hkept, passage.step.creatorSide_kept, passage.step.pool_kept revenue hdeposit]
          exact ih.settled hearlier

theorem run_creatorPaid (run : Run (machine host) tr cfg)
    (ha : (view cfg.state).account c = some a) : CreatorPaid c tr a := by
  refine account_invariant (I := fun tr _ a => CreatorPaid c tr a) (fun {tr r a} hacts hborn => ?_)
    (fun passage ih => passage.creatorPaid ih) run ha
  have hpaid : paidFor Act.isCreatorClaim c (r :: tr) = 0 := paidFor_eq_zero rfl hacts
  cases hborn
  exact ⟨Int.le_refl 0, hpaid, fun _ => Account.creatorSide_zero.symm⟩

/-! ## When a claim is refused -/

/-- The number of a campaign is a machine word. -/
theorem run_isU32 (run : Run (machine host) tr cfg)
    (hrecord : cfg.state.campaigns.campaign c = some record) : isU32 c := by
  have hc := ((run_sane run).exists_iff c).mp ⟨_, View.account_of_campaign hrecord⟩
  exact Nat.lt_of_le_of_lt hc.2 (run_count_lt run)

/-- What the claim checks before it computes. -/
structure CreatorClaims (env : Env) (s : State) (record : Campaign) : Prop where
  signed : env.auth record.creator = true
  unpaused : s.admin.paused = false ∧ s.admin.autoPaused = false
  sharing : record.hasRevenueSharing = true

theorem claimCreatorRevenue_refused_iff (ha : (view s).account c = some a)
    (claims : CreatorClaims env s a.record) (phase : a.Phase) (hpool : 0 ≤ a.funds.pool)
    (hclaimed : 0 ≤ a.funds.creatorClaimed)
    (hle : a.funds.creatorClaimed ≤ a.creatorSide a.funds.pool)
    (fits : I128.InRange (a.funds.pool * (10000 - a.record.revenueSharePercentage))) :
    claimCreatorRevenue env s c = .error (.err .noFundsToWithdraw) ↔
      a.creatorSide a.funds.pool = a.funds.creatorClaimed := by
  obtain ⟨hrecord, hfunds⟩ := View.account_eq_some.mp ha
  have hproduct : 0 ≤ a.funds.pool * (10000 - a.record.revenueSharePercentage) :=
    Int.mul_nonneg hpool phase.share_le
  have hshare : a.record.revenueSharePercentage ≤ bpsDenominator :=
    Nat.le_trans phase.shareBound (by decide)
  have hside : I128.InRange (a.creatorSide a.funds.pool) := fits.tdiv hproduct (by decide)
  have hrest : I128.InRange (a.creatorSide a.funds.pool - a.funds.creatorClaimed) :=
    hside.of_le (by omega) (by omega)
  have hrefused : claimCreatorRevenue env s c = .error (.err .noFundsToWithdraw) ↔
      a.record.revenueSharePercentage ≤ bpsDenominator ∧
      I128.InRange (a.funds.pool * (10000 - a.record.revenueSharePercentage)) ∧
      I128.InRange (a.creatorSide a.funds.pool) ∧
      I128.InRange (a.creatorSide a.funds.pool - a.funds.creatorClaimed) ∧
      a.creatorSide a.funds.pool ≤ a.funds.creatorClaimed := by
    rw [eq_error_iff]
    simp [claimCreatorRevenue, getCreatorCampaign, getCampaignOrError, campaign_view, hrecord,
      assertCreator, claims.signed, requireNotPaused, claims.unpaused, requireRevenueSharing,
      claims.sharing, creatorShareTotal, pool_view, creatorClaimed_view, hfunds,
      Account.creatorSide, bpsDenominator]
  rw [hrefused]
  constructor
  · rintro ⟨-, -, -, -, hdrawn⟩
    exact Int.le_antisymm hdrawn hle
  · intro hdrawn
    exact ⟨hshare, fits, hside, hrest, Int.le_of_eq hdrawn⟩

/-! ## The law -/

/-- What a creator with this share is entitled to from a pool. -/
def creatorEntitlement (pool : Int) (shareBps : Nat) : Int := pool * (10000 - shareBps) / 10000

theorem run_creatorSide (run : Run (machine host) tr cfg)
    (ha : (view cfg.state).account c = some a) : a.creatorSide a.funds.pool =
      creatorEntitlement a.funds.pool a.record.revenueSharePercentage :=
  Account.creatorSide_eq (run_phase run ha) (run_revenueBooks run ha).poolNonneg

theorem run_creatorSettled (run : Run (machine host) tr cfg)
    (hrecord : cfg.state.campaigns.campaign c = some record) (hsettled : CreatorSettled c tr) :
    paidFor Act.isCreatorClaim c tr =
      creatorEntitlement (cfg.state.revenue.revenuePool c) record.revenueSharePercentage := by
  have ha := View.account_of_campaign (v := view cfg.state) hrecord
  obtain ⟨-, paid, settled⟩ := run_creatorPaid run ha
  rw [paid, settled hsettled, run_creatorSide run ha]
  rfl

theorem run_creatorRefused (run : Run (machine host) tr cfg)
    (hrecord : cfg.state.campaigns.campaign c = some record)
    (claims : CreatorClaims env cfg.state record)
    (fits : I128.InRange
      (cfg.state.revenue.revenuePool c * (10000 - record.revenueSharePercentage))) :
    invoke env cfg.state (.claimCreatorRevenue c) = .error (.err .noFundsToWithdraw) ↔
      paidFor Act.isCreatorClaim c tr =
        creatorEntitlement (cfg.state.revenue.revenuePool c) record.revenueSharePercentage := by
  have ha := View.account_of_campaign (v := view cfg.state) hrecord
  obtain ⟨nonneg, paid, -⟩ := run_creatorPaid run ha
  have revenue := run_revenueBooks run ha
  have hside := run_creatorSide run ha
  have typed : (Call.claimCreatorRevenue c).WellTyped := run_isU32 run hrecord
  rw [invoke_eq typed]
  rw [paid, eq_comm (b := creatorEntitlement _ _)]
  refine (claimCreatorRevenue_refused_iff (s := cfg.state.clearMoved) ha
    ⟨claims.signed, claims.unpaused, claims.sharing⟩ (run_phase run ha) revenue.poolNonneg nonneg
    revenue.creator fits).trans ?_
  rw [hside]
  exact Iff.rfl

/-- Right after a claim the creator has been paid the whole entitlement to the pool; a claim
is refused for want of funds exactly when that is so; and two creators with equal shares of
equal pools end with the same total, however these came about. -/
theorem creatorRevenue_pathIndependent (run : Run (machine host) tr cfg)
    (hrecord : cfg.state.campaigns.campaign c = some record)
    (sharing : record.hasRevenueSharing = true) :
    (∀ r earlier, tr = r :: earlier → r.call = .claimCreatorRevenue c →
      paidFor Act.isCreatorClaim c tr =
        creatorEntitlement (cfg.state.revenue.revenuePool c) record.revenueSharePercentage) ∧
    (∀ env : Env, env.auth record.creator = true →
      cfg.state.admin.paused = false → cfg.state.admin.autoPaused = false →
      I128.InRange (cfg.state.revenue.revenuePool c * (10000 - record.revenueSharePercentage)) →
      (invoke env cfg.state (.claimCreatorRevenue c) = .error (.err .noFundsToWithdraw) ↔
        paidFor Act.isCreatorClaim c tr =
          creatorEntitlement (cfg.state.revenue.revenuePool c) record.revenueSharePercentage)) ∧
    ∀ host' tr' cfg' c' record', Run (machine host') tr' cfg' →
      cfg'.state.campaigns.campaign c' = some record' →
      record'.revenueSharePercentage = record.revenueSharePercentage →
      cfg'.state.revenue.revenuePool c' = cfg.state.revenue.revenuePool c →
      CreatorSettled c tr → CreatorSettled c' tr' →
      paidFor Act.isCreatorClaim c' tr' = paidFor Act.isCreatorClaim c tr := by
  refine ⟨fun r earlier htr hcall => ?_, fun env signed hpaused hauto fits => ?_, ?_⟩
  · have hsettled : CreatorSettled c tr := htr ▸ .now hcall
    exact run_creatorSettled run hrecord hsettled
  · exact run_creatorRefused run hrecord ⟨signed, ⟨hpaused, hauto⟩, sharing⟩ fits
  · intro host' tr' cfg' c' record' run' hrecord' hshare hpool hsettled hsettled'
    rw [run_creatorSettled run' hrecord' hsettled', run_creatorSettled run hrecord hsettled,
      hshare, hpool]

/-- The pool of `Sample.drawn` in two deposits, with a claim after each. -/
def Sample.drawnTwice : List Request :=
  opened 5000 ++
    [ask 1 alice (.contribute 1 alice 100000), ask 2 creator (.withdrawFunds 1),
      ask 3 creator (.depositRevenue 1 333), ask 4 creator (.claimCreatorRevenue 1),
      ask 5 creator (.depositRevenue 1 667), ask 6 creator (.claimCreatorRevenue 1)]

theorem creatorRevenue_sample :
    ∃ tr cfg tr' cfg', Run (machine Sample.host) tr cfg ∧ Run (machine Sample.host) tr' cfg' ∧
      paidFor Act.isCreatorClaim 1 tr = 500 ∧
      paidFor Act.isCreatorClaim 1 tr' = paidFor Act.isCreatorClaim 1 tr := by
  have h : Sample.Ends 0 Sample.drawn fun tr cfg =>
      (cfg.state.campaigns.campaign 1).map
        (fun record => (record.hasRevenueSharing, record.revenueSharePercentage)) =
          some (true, 5000) ∧
      cfg.state.revenue.revenuePool 1 = 1000 ∧ CreatorSettled 1 tr ∧
        paidFor Act.isCreatorClaim 1 tr = 500 := by
    decide +kernel
  have h' : Sample.Ends 0 Sample.drawnTwice fun tr cfg =>
      (cfg.state.campaigns.campaign 1).map Campaign.revenueSharePercentage = some 5000 ∧
      cfg.state.revenue.revenuePool 1 = 1000 ∧ CreatorSettled 1 tr := by
    decide +kernel
  obtain ⟨tr, cfg, run, hcampaign, hpool, hsettled, hpaid⟩ := h.run
  obtain ⟨tr', cfg', run', hcampaign', hpool', hsettled'⟩ := h'.run
  obtain ⟨record, hrecord, hterms⟩ := Option.map_eq_some_iff.mp hcampaign
  obtain ⟨record', hrecord', hshare'⟩ := Option.map_eq_some_iff.mp hcampaign'
  obtain ⟨hsharing, hshare⟩ := Prod.mk.inj hterms
  obtain ⟨-, -, hequal⟩ := creatorRevenue_pathIndependent run hrecord hsharing
  exact ⟨tr, cfg, tr', cfg', run, run', hpaid, hequal Sample.host tr' cfg' 1 record' run' hrecord'
    (hshare'.trans hshare.symm) (hpool'.trans hpool.symm) hsettled hsettled'⟩

end ProofOfHeart
