import ProofOfHeart.Account.Turn
import ProofOfHeart.Laws.RefundPhase

/-! # The lifecycle of a campaign

The four flags of a record always spell one state, and a call moves it along an edge
that `transition` accepts, or back from verified to active when the text is edited.
-/

namespace ProofOfHeart

open Checked Trace

variable {host : Host} {tr : List Receipt} {cfg : Config} {c : Nat} {call : Call}
  {old new record : Campaign}

/-- The edges of the lifecycle, with the one that revokes a verification. -/
inductive Edge (c : Nat) (call : Call) : CampaignState → CampaignState → Prop
  | stay {state : CampaignState} : Edge c call state state
  | transition {source target : CampaignState} (h : transitionAllowed source target = true) :
      Edge c call source target
  | revoke {description : Text} (h : call = .updateCampaignDescription c description) :
      Edge c call .verified .active

/-- A closed campaign is left on no edge. -/
theorem Edge.of_closed {source target : CampaignState} (h : Edge c call source target)
    (closed : source = .cancelled ∨ source = .withdrawn) : target = source := by
  cases h with
  | stay => rfl
  | transition h => rcases closed with rfl | rfl <;> cases target <;> cases h
  | revoke h => rcases closed with h | h <;> cases h

theorem CampaignState.of_congr (h : new.flags = old.flags) :
    CampaignState.of new = CampaignState.of old := by
  simp only [Campaign.flags, Flags.mk.injEq] at h
  obtain ⟨-, hcancelled, hwithdrawn, hverified⟩ := h
  rw [CampaignState.of, CampaignState.of, hcancelled, hwithdrawn, hverified]

/-- Where active means neither cancelled nor paid out, every turn is an edge. -/
theorem Turn.edge (h : Turn c old new call)
    (live : old.isActive = true → old.isCancelled = false ∧ old.fundsWithdrawn = false) :
    Edge c call (.of old) (.of new) := by
  cases h with
  | kept flags | retitled active unverified flags | handedOver pending other flags =>
      rw [CampaignState.of_congr flags]
      exact .stay
  | described active flags =>
      obtain ⟨hcancelled, hwithdrawn⟩ := live active
      simp only [Campaign.flags, Flags.mk.injEq] at flags
      obtain ⟨-, hcancelled', hwithdrawn', hverified'⟩ := flags
      have hnew : CampaignState.of new = .active := by
        simp [CampaignState.of, hcancelled', hwithdrawn', hverified', hcancelled, hwithdrawn]
      rw [hnew]
      cases hverified : old.isVerified with
      | true =>
          have hold : CampaignState.of old = .verified := by
            simp [CampaignState.of, hcancelled, hwithdrawn, hverified]
          rw [hold]
          exact .revoke rfl
      | false =>
          have hold : CampaignState.of old = .active := by
            simp [CampaignState.of, hcancelled, hwithdrawn, hverified]
          rw [hold]
          exact .stay
  | verified hcall active unverified flags =>
      obtain ⟨hcancelled, hwithdrawn⟩ := live active
      simp only [Campaign.flags, Flags.mk.injEq] at flags
      refine .transition ?_
      simp [CampaignState.of, flags, hcancelled, hwithdrawn, unverified, transitionAllowed]
  | cancelled hcall active flags =>
      obtain ⟨hcancelled, hwithdrawn⟩ := live active
      simp only [Campaign.flags, Flags.mk.injEq] at flags
      refine .transition ?_
      cases hverified : old.isVerified <;>
        simp [CampaignState.of, flags, hcancelled, hwithdrawn, hverified, transitionAllowed]
  | withdrawn hcall verified notCancelled unpaid flags =>
      simp only [Campaign.flags, Flags.mk.injEq] at flags
      refine .transition ?_
      simp [CampaignState.of, flags, notCancelled, unpaid, verified, transitionAllowed]

/-- Only what is verified is paid out, and what is paid out keeps its verification. -/
theorem Turn.paid_verified (h : Turn c old new call)
    (live : old.isActive = true → old.isCancelled = false ∧ old.fundsWithdrawn = false)
    (hold : old.fundsWithdrawn = true → old.isVerified = true) :
    new.fundsWithdrawn = true → new.isVerified = true := by
  cases h with
  | kept flags | retitled active unverified flags | handedOver pending other flags
  | cancelled hcall active flags =>
      have hpaid : new.fundsWithdrawn = old.fundsWithdrawn := congrArg Flags.fundsWithdrawn flags
      have hverified : new.isVerified = old.isVerified := congrArg Flags.isVerified flags
      rw [hpaid, hverified]
      exact hold
  | described active flags =>
      have hpaid : new.fundsWithdrawn = old.fundsWithdrawn := congrArg Flags.fundsWithdrawn flags
      rw [hpaid, (live active).2]
      exact fun h => Bool.noConfusion h
  | verified hcall active unverified flags => exact fun _ => congrArg Flags.isVerified flags
  | withdrawn hcall verified notCancelled unpaid flags =>
      exact fun _ => (congrArg Flags.isVerified flags).trans verified

/-! ## Flags along a run -/

theorem run_live (run : Run (machine host) tr cfg)
    (hrecord : cfg.state.campaigns.campaign c = some record) :
    record.isActive = true ↔ record.isCancelled = false ∧ record.fundsWithdrawn = false := by
  have closed := (run_phase run (View.account_of_campaign hrecord)).closed
  cases hactive : record.isActive <;> cases hcancelled : record.isCancelled <;>
    cases hwithdrawn : record.fundsWithdrawn <;> simp_all

/-- Only a verified campaign has been paid out. -/
theorem run_paid_verified (run : Run (machine host) tr cfg)
    (hrecord : cfg.state.campaigns.campaign c = some record) :
    record.fundsWithdrawn = true → record.isVerified = true := by
  refine record_invariant (I := fun _ record =>
    record.fundsWithdrawn = true → record.isVerified = true) ?_ ?_ run hrecord
  · intro tr cfg r params deadline run hpre hnone hpaid
    cases hpaid
  · intro tr cfg r old new run hvalid hpre hold hturn ih
    exact hturn.paid_verified (run_live run (hpre ▸ hold)).mp ih

/-! ## The law -/

/-- Every record spells a state of the lifecycle, and every call moves every campaign
along an edge; a new campaign starts active. -/
theorem lifecycle_sound (run : Run (machine host) tr cfg) :
    (∀ c record, cfg.state.campaigns.campaign c = some record →
      (record.isActive = true ↔ record.isCancelled = false ∧ record.fundsWithdrawn = false) ∧
      ¬ (record.isCancelled = true ∧ record.fundsWithdrawn = true) ∧
      (record.fundsWithdrawn = true →
        record.isVerified = true ∧ record.fundingGoal ≤ record.amountRaised)) ∧
    ∀ r ∈ tr, ∀ c,
      (∀ old, r.pre.campaigns.campaign c = some old →
        ∃ new, r.post.campaigns.campaign c = some new ∧
          Edge c r.call (.of old) (.of new) ∧
          (CampaignState.of old = .cancelled ∨ CampaignState.of old = .withdrawn →
            CampaignState.of new = CampaignState.of old)) ∧
      (r.pre.campaigns.campaign c = none →
        ∀ new, r.post.campaigns.campaign c = some new → CampaignState.of new = .active) := by
  constructor
  · intro c record hrecord
    have phase := run_phase run (View.account_of_campaign hrecord)
    refine ⟨run_live run hrecord, fun ⟨hcancelled, hpaid⟩ => ?_, fun hpaid =>
      ⟨run_paid_verified run hrecord hpaid, phase.funded hpaid⟩⟩
    have hunpaid := phase.exclusive hcancelled
    rw [hpaid] at hunpaid
    cases hunpaid
  · refine run_receipts ?_ ?_ run
    · intro r cfg hstart c
      have hpost : r.post.campaigns.campaign c = none := by
        have hnone := (start_fresh hstart).campaign c
        rwa [hstart.2.2.2] at hnone
      obtain ⟨tokens, hpre⟩ := hstart.2.1
      refine ⟨fun old hold => ?_, fun _ new hnew => ?_⟩
      · rw [hpre] at hold
        cases hold
      · rw [hpost] at hnew
        cases hnew
    · intro tr cfg r run hvalid hpre c
      have sane := run_sane run
      rw [← hpre] at sane
      refine ⟨fun old hold => ?_, fun hnone new hnew => ?_⟩
      · obtain ⟨new, hnew, hturn⟩ := hvalid.turn sane hold
        have hedge := hturn.edge (run_live run (hpre ▸ hold)).mp
        exact ⟨new, hnew, hedge, hedge.of_closed⟩
      · obtain ⟨-, params, deadline, -, rfl⟩ := hvalid.created sane hnone hnew
        rfl

/-- A campaign is verified, loses and regains its verification, and is cancelled. -/
theorem lifecycle_sample : ∃ tr cfg, Run (machine Sample.host) tr cfg ∧
    (∃ record, cfg.state.campaigns.campaign 1 = some record ∧ record.isCancelled = true) ∧
    ∃ r ∈ tr, r.call = .updateCampaignDescription 1 [1] ∧
      ∀ old, r.pre.campaigns.campaign 1 = some old →
        ∃ new, r.post.campaigns.campaign 1 = some new ∧ Edge 1 r.call (.of old) (.of new) := by
  have h : Sample.Ends 300 (Sample.opened 0 ++
      [Sample.ask 1 Sample.creator (.updateCampaignDescription 1 [1]),
        Sample.ask 2 Sample.admin (.verifyCampaign 1),
        Sample.ask 3 Sample.creator (.cancelCampaign 1)]) fun tr cfg =>
      (cfg.state.campaigns.campaign 1).any Campaign.isCancelled = true ∧
        ∃ r ∈ tr, r.call = .updateCampaignDescription 1 [1] := by decide +kernel
  obtain ⟨tr, cfg, run, hcancelled, r, hr, hcall⟩ := h.run
  obtain ⟨record, hrecord, hflag⟩ := (Option.any_eq_true _ _).mp hcancelled
  exact ⟨tr, cfg, run, ⟨record, hrecord, hflag⟩, r, hr, hcall, fun old hold => by
    obtain ⟨new, hnew, hedge, -⟩ := ((lifecycle_sound run).2 r hr 1).1 old hold
    exact ⟨new, hnew, hedge⟩⟩

end ProofOfHeart
