import Mathlib.Algebra.Order.BigOperators.Group.List
import ProofOfHeart.Account.History

/-! # The phases of a campaign

A campaign is open until it is cancelled or paid out. Refunds open when it is
cancelled or fails, and nothing that needs an open or a funded campaign happens
afterwards.
-/

namespace ProofOfHeart

open Checked Function Trace

variable {host : Host} {tr : List Receipt} {cfg : Config} {c : Nat} {a a' : Account}
  {env : Env} {v : View} {act : Act} {moves : List Transfer} {delta : Int}

/-! ## Flags -/

/-- How the flags of a record belong together. -/
structure Account.Phase (a : Account) : Prop where
  closed : a.record.isActive = false ↔
    a.record.isCancelled = true ∨ a.record.fundsWithdrawn = true
  exclusive : a.record.isCancelled = true → a.record.fundsWithdrawn = false
  funded : a.record.fundsWithdrawn = true → a.record.fundingGoal ≤ a.record.amountRaised
  goalPos : 0 < a.record.fundingGoal
  feeBound : ∀ feeBps, a.record.feeOverride = some feeBps → feeBps ≤ platformFeeMaxBps
  shareBound : a.record.revenueSharePercentage ≤ bpsDenominator

theorem Account.Accepts.of_live {now : Nat} {who : Address} (h : a.Accepts now who) : a.Live :=
  ⟨h.active, h.notCancelled⟩

theorem Account.Phase.notCancelled (phase : a.Phase) (withdrawn : a.record.fundsWithdrawn = true) :
    a.record.isCancelled = false := by
  by_contra hcancelled
  have hopen := phase.exclusive (Bool.eq_true_of_not_eq_false hcancelled)
  exact Bool.noConfusion (hopen.symm.trans withdrawn)

/-- An active campaign has not been paid out. -/
theorem Account.Phase.unpaid (phase : a.Phase) (live : a.Live) :
    a.record.fundsWithdrawn = false := by
  by_contra hpaid
  have hclosed := phase.closed.mpr (.inr (Bool.eq_true_of_not_eq_false hpaid))
  rw [live.active] at hclosed
  cases hclosed

theorem Born.phase {call : Call} (h : Born env v call c a) : a.Phase := by
  cases h with
  | born hcall inTime goal share =>
      refine ⟨?_, ?_, ?_, goal, ?_, Nat.le_trans share ?_⟩
      all_goals simp [CreateCampaignParams.campaign, bpsDenominator, revenueShareMaxBps]

theorem AccountStep.phase (h : AccountStep env v c act moves delta a a') (phase : a.Phase) :
    a'.Phase := by
  obtain ⟨closed, exclusive, funded, goalPos, feeBound, shareBound⟩ := phase
  cases h with
  | @contributed _ moves who amounts nonempty pos accepts =>
      have hsum : 0 ≤ amounts.sum := List.sum_nonneg fun x hx => Int.le_of_lt (pos x hx)
      have hunpaid := Account.Phase.unpaid
        ⟨closed, exclusive, funded, goalPos, feeBound, shareBound⟩ accepts.of_live
      refine ⟨?_, ?_, ?_, ?_, ?_, ?_⟩
      all_goals rw [Account.contributeAll_record]
      · exact closed
      · exact exclusive
      · intro hpaid
        rw [hunpaid] at hpaid
        cases hpaid
      · exact goalPos
      · exact feeBound
      · exact shareBound
  | withdrew payable noPlan currency hrecipient feePos creatorPos =>
      refine ⟨⟨fun _ => .inr rfl, fun _ => rfl⟩, fun hcancelled => ?_, fun _ => payable.goalMet,
        goalPos, feeBound, shareBound⟩
      exact absurd hcancelled (by simp [Account.withhold, Account.close, payable.notCancelled])
  | claimed payable mem unclaimed pos currency hadmin =>
      unfold Account.claimMilestone
      split
      next hall =>
          refine ⟨⟨fun _ => .inr rfl, fun _ => rfl⟩, fun hcancelled => ?_,
            fun _ => payable.goalMet, goalPos, feeBound, shareBound⟩
          exact absurd hcancelled (by simp [Account.close, payable.notCancelled])
      next hall => exact ⟨closed, exclusive, funded, goalPos, feeBound, shareBound⟩
  | cancelled live unpaid goalMissed =>
      refine ⟨⟨fun _ => .inl rfl, fun _ => rfl⟩, fun _ => unpaid, funded, goalPos, feeBound,
        shareBound⟩
  | adminCancelled live unpaid =>
      refine ⟨⟨fun _ => .inl rfl, fun _ => rfl⟩, fun _ => unpaid, funded, goalPos, feeBound,
        shareBound⟩
  | edited creator pendingCreator title description isVerified feeOverride bounded =>
      refine ⟨closed, exclusive, funded, goalPos, fun feeBps hfee => ?_, shareBound⟩
      rcases bounded with hsame | ⟨bps, hbps, hnew⟩
      · exact feeBound feeBps (hsame.symm.trans hfee)
      · rw [← Option.some.inj (hnew.symm.trans hfee)]
        exact hbps
  | _ => exact ⟨closed, exclusive, funded, goalPos, feeBound, shareBound⟩

theorem run_phase (run : Run (machine host) tr cfg) (ha : (view cfg.state).account c = some a) :
    a.Phase :=
  account_invariant (I := fun _ _ a => a.Phase) (fun _ hborn => hborn.phase)
    (fun passage phase => passage.step.phase phase) run ha

theorem Passage.phase {r : Receipt} (passage : Passage host c tr cfg r act moves delta a a') :
    a.Phase := run_phase passage.run (passage.pre ▸ passage.before)

/-! ## Refunds stay open -/

theorem Account.Payable.not_refundable {now : Nat} (payable : a.Payable) : ¬ a.Refundable now := by
  rintro (hcancelled | ⟨-, hmissed⟩)
  · rw [payable.notCancelled] at hcancelled
    cases hcancelled
  · have hmet := payable.goalMet
    omega

/-- Refunds are open only before the payout. -/
theorem Account.Refundable.unpaid {now : Nat} (refundable : a.Refundable now) (phase : a.Phase) :
    a.record.fundsWithdrawn = false := by
  by_contra hpaid
  have hpaid := Bool.eq_true_of_not_eq_false hpaid
  rcases refundable with hcancelled | ⟨-, hmissed⟩
  · rw [phase.exclusive hcancelled] at hpaid
    cases hpaid
  · have hmet := phase.funded hpaid
    omega

theorem Account.SharesRevenue.not_refundable {now : Nat} (shares : a.SharesRevenue)
    (phase : a.Phase) : ¬ a.Refundable now := by
  rintro (hcancelled | ⟨-, hmissed⟩)
  · rw [shares.notCancelled] at hcancelled
    cases hcancelled
  · have hmet := phase.funded shares.withdrawn
    omega

/-- Who is live and in time has no refunds open, now or earlier. -/
theorem Account.Live.not_refundable {now later : Nat} (live : a.Live) (hle : now ≤ later)
    (inTime : later ≤ a.record.deadline) : ¬ a.Refundable now := by
  rintro (hcancelled | ⟨hlate, -⟩)
  · rw [live.notCancelled] at hcancelled
    cases hcancelled
  · omega

/-- The acts that a campaign with open refunds refuses. -/
def Act.needsFunding : Act → Bool
  | .contribute .. | .withdraw | .claimMilestone _ | .extend | .deposit _ | .claimRevenue _ =>
      true
  | _ => false

theorem AccountStep.not_refundable (h : AccountStep env v c act moves delta a a')
    (phase : a.Phase) {now : Nat} (time : now ≤ env.timestamp) (needs : act.needsFunding = true) :
    ¬ a.Refundable now := by
  cases h with
  | contributed nonempty pos accepts => exact accepts.of_live.not_refundable time accepts.inTime
  | withdrew payable => exact payable.not_refundable
  | claimed payable => exact payable.not_refundable
  | extended live inTime later => exact live.not_refundable time (Nat.le_of_lt inTime)
  | deposited shares => exact shares.not_refundable phase
  | claimedRevenue shares => exact shares.not_refundable phase
  | _ => cases needs

theorem Account.Refundable.later {now later : Nat} (h : a.Refundable now) (hle : now ≤ later) :
    a.Refundable later := h.imp id fun ⟨hlate, hmissed⟩ => ⟨Nat.lt_of_lt_of_le hlate hle, hmissed⟩

/-- Once refunds are open they stay open. -/
theorem AccountStep.refundable (h : AccountStep env v c act moves delta a a') (phase : a.Phase)
    {now : Nat} (time : now ≤ env.timestamp) (open' : a.Refundable now) :
    a'.Refundable env.timestamp := by
  have hrefuses := mt (h.not_refundable phase time) (not_not_intro open')
  have hlater := open'.later time
  cases h with
  | contributed | withdrew | claimed | extended | deposited | claimedRevenue =>
      exact absurd rfl hrefuses
  | cancelled => exact .inl rfl
  | adminCancelled => exact .inl rfl
  | _ => exact hlater

/-- A refund is made only while refunds are open. -/
theorem AccountStep.refundable_of_refund (h : AccountStep env v c act moves delta a a')
    (hact : act.isRefund = true) : a'.Refundable env.timestamp := by
  cases h with
  | refunded refundable => exact refundable
  | _ => cases hact

/-- A campaign of which a refund has been made has refunds open. -/
theorem run_refunded (run : Run (machine host) tr cfg)
    (ha : (view cfg.state).account c = some a)
    (hrefund : ∃ r ∈ tr, (r.call.act c).isRefund = true) :
    a.Refundable cfg.ledger.timestamp := by
  revert hrefund
  refine account_invariant (c := c) (I := fun tr now a =>
    (∃ r ∈ tr, (r.call.act c).isRefund = true) → a.Refundable now) ?_ ?_ run ha
  · rintro tr r a hacts - ⟨x, hx, hrefund⟩
    rw [hacts x hx] at hrefund
    cases hrefund
  · rintro tr cfg r act moves delta a a' passage ih ⟨x, hx, hrefund⟩
    rcases List.mem_cons.mp hx with rfl | hx
    · rw [passage.hact] at hrefund
      exact passage.step.refundable_of_refund hrefund
    · exact passage.step.refundable passage.phase passage.time (ih ⟨x, hx, hrefund⟩)

/-- The refund phase is final: no receipt after a refund holds an act that needs
an open or a funded campaign. -/
theorem refundPhase_final (run : Run (machine host) tr cfg) (c : Nat) :
    tr.Pairwise fun later earlier =>
      (earlier.call.act c).isRefund = true → (later.call.act c).needsFunding = false := by
  have absent : ∀ {tr : List Receipt}, (∀ r ∈ tr, r.call.act c = .other) →
      tr.Pairwise fun later earlier =>
        (earlier.call.act c).isRefund = true → (later.call.act c).needsFunding = false := by
    intro tr hacts
    refine List.pairwise_of_forall_mem_list fun later hlater earlier _ _ => ?_
    rw [hacts later hlater]
    rfl
  cases hc : (view cfg.state).account c with
  | none => exact absent (run_absent run hc)
  | some a =>
      refine account_invariant (c := c) (I := fun tr _ _ => tr.Pairwise fun later earlier =>
        (earlier.call.act c).isRefund = true → (later.call.act c).needsFunding = false)
        (fun hacts _ => absent hacts) ?_ run hc
      intro tr cfg r act moves delta a a' passage ih
      refine List.pairwise_cons.mpr ⟨fun x hx hrefund => ?_, ih⟩
      have hopen := run_refunded passage.run (passage.pre ▸ passage.before) ⟨x, hx, hrefund⟩
      rw [passage.hact]
      by_contra hneeds
      exact passage.step.not_refundable passage.phase passage.time
        (Bool.eq_true_of_not_eq_false hneeds) hopen

theorem refundPhase_sample :
    ∃ tr cfg, Run (machine Sample.host) tr cfg ∧ (∃ r ∈ tr, (r.call.act 1).isRefund = true) ∧
      tr.Pairwise fun later earlier =>
        (earlier.call.act 1).isRefund = true → (later.call.act 1).needsFunding = false := by
  have h : Sample.Ends 0 (Sample.refunded ++
      [Sample.ask 900001 Sample.bob (.claimRefund 1 Sample.bob)]) fun tr _ =>
      ∃ r ∈ tr, (r.call.act 1).isRefund = true := by
    decide +kernel
  obtain ⟨tr, cfg, run, hrefund⟩ := h.run
  exact ⟨tr, cfg, run, hrefund, refundPhase_final run 1⟩

end ProofOfHeart
