import ProofOfHeart.Account.Turn
import ProofOfHeart.Board.Posting
import ProofOfHeart.Laws.ActiveCount
import ProofOfHeart.Laws.CreatorPaging

/-! # The platform counters

Each of the three counters that the platform statistics read is what a scan over all
campaigns would count, so a counter that is decremented is never zero.
-/

namespace ProofOfHeart

open Checked Function Trace

variable {host : Host} {tr : List Receipt} {cfg : Config} {c : Nat} {call : Call}
  {old new record : Campaign} {env : Env} {s s' : State} {r : Receipt} {v v' : View}
  {a a' : Account} {flag : Campaign → Bool}

/-! ## The calls that set a counted flag -/

/-- The calls that grant or revoke a verification. -/
def Call.setsVerified : Call → Bool
  | .verifyCampaign _ | .verifyCampaigns _ | .verifyCampaignWithVotes _
  | .updateCampaignDescription .. => true
  | _ => false

def Call.cancels : Call → Bool
  | .cancelCampaign _ | .adminCancelCampaign .. => true
  | _ => false

theorem Turn.isVerified_kept (h : Turn c old new call) (hcall : call.setsVerified = false) :
    new.isVerified = old.isVerified := by
  cases h with
  | kept flags | retitled active unverified flags | handedOver pending other flags
  | cancelled _ active flags | withdrawn _ verified notCancelled unpaid flags =>
      exact congrArg Flags.isVerified flags
  | described => cases hcall
  | verified hverify =>
      rcases hverify with rfl | rfl | ⟨ids, -, rfl⟩
      all_goals cases hcall

theorem Turn.isCancelled_kept (h : Turn c old new call) (hcall : call.cancels = false) :
    new.isCancelled = old.isCancelled := by
  cases h with
  | kept flags | retitled active unverified flags | handedOver pending other flags
  | described active flags | verified _ active unverified flags
  | withdrawn _ verified notCancelled unpaid flags => exact congrArg Flags.isCancelled flags
  | cancelled hcancel =>
      rcases hcancel with rfl | ⟨admin, reason, rfl⟩
      all_goals cases hcall

theorem Posting.verifiedCount_kept (h : Posting env s s' call)
    (hcall : call.setsVerified = false) :
    (board s').verifiedCount = (board s).verifiedCount := by
  cases h with
  | describe => cases hcall
  | verify => cases hcall
  | certify => cases hcall
  | verifyBatch => cases hcall
  | create _ _ h | handOver _ _ h | contribute _ h | batch h | refund h | cancel _ _ _ h
  | vote _ _ _ _ _ h | purge _ _ h | votingRules _ h | entries _ h | kept _ h => rw [h]

theorem Posting.cancelledCount_kept (h : Posting env s s' call) (hcall : call.cancels = false) :
    (board s').cancelledCount = (board s).cancelledCount := by
  cases h with
  | cancel hcancel =>
      rcases hcancel with rfl | ⟨admin, reason, rfl⟩
      all_goals cases hcall
  | describe _ h =>
      rw [h]
      split <;> rfl
  | create _ _ h | handOver _ _ h | contribute _ h | batch h | refund h | verify h
  | certify _ _ _ h | verifyBatch h | vote _ _ _ _ _ h | purge _ _ h | votingRules _ h
  | entries _ h | kept _ h => rw [h]

/-! ## One call -/

/-- A flag that no turn changes and no new campaign has is counted as before. -/
theorem Receipt.Valid.census_kept (h : r.Valid host) (sane : (view r.pre).Sane)
    (sane' : (view r.post).Sane)
    (hturn : ∀ c old new, Turn c old new r.call → flag new = flag old)
    (hborn : ∀ (params : CreateCampaignParams) c deadline,
      flag (params.campaign c deadline) = false) :
    (view r.post).census flag = (view r.pre).census flag := by
  refine View.census_congr sane.toRegistered sane'.toRegistered fun c => ?_
  change (r.post.campaigns.campaign c).any flag = (r.pre.campaigns.campaign c).any flag
  cases hold : r.pre.campaigns.campaign c with
  | some old =>
      obtain ⟨new, hnew, hmoves⟩ := h.turn sane hold
      rw [hnew]
      exact hturn c old new hmoves
  | none =>
      cases hnew : r.post.campaigns.campaign c with
      | none => rfl
      | some new =>
          obtain ⟨-, params, deadline, -, rfl⟩ := h.created sane hold hnew
          exact hborn params c deadline

/-- Writing one record counts by the difference of its flags. -/
theorem View.Registered.census_set (reg : v.Registered) (ha : v.account c = some a)
    (hview : v' = v.setAccount c a') :
    v'.census flag + (flag a.record).toNat = v.census flag + (flag a'.record).toNat :=
  View.census_write (reg.mem_ids ha) ha (by rw [hview]; rfl) (by rw [hview]; rfl)

theorem verifiedCount_step (h : r.Valid host) (sane : (view r.pre).Sane)
    (sane' : (view r.post).Sane)
    (ih : (board r.pre).verifiedCount = (view r.pre).census Campaign.isVerified) :
    (board r.post).verifiedCount = (view r.post).census Campaign.isVerified := by
  have hposting := h.posting sane.toConfigured
  have hdispatch := h.dispatched
  have reg : (view r.pre.clearMoved).Registered := ⟨sane.exists_iff, sane.blank⟩
  by_cases hsets : r.call.setsVerified = false
  · rw [hposting.verifiedCount_kept hsets, ih]
    exact (h.census_kept sane sane' (fun _ _ _ hturn => hturn.isVerified_kept hsets)
      fun _ _ _ => rfl).symm
  have verified : ∀ {c : Nat}, (∃ a, (view r.pre.clearMoved).account c = some a ∧ a.Verifiable ∧
      view r.post = (view r.pre.clearMoved).setAccount c a.verify) →
      (view r.post).census Campaign.isVerified =
        (view r.pre).census Campaign.isVerified + 1 := by
    rintro c ⟨a, ha, verifiable, hview⟩
    have hset : _ + a.record.isVerified.toNat = _ := reg.census_set ha hview
    rw [verifiable.unverified] at hset
    exact hset
  generalize hcall : r.call = call at hposting hsets
  rw [hcall] at hdispatch
  cases hposting with
  | verify hboard =>
      rw [hboard, verified (verifyCampaign_spec hdispatch)]
      exact congrArg (· + 1) ih
  | certify hrecord unverified quorum hboard =>
      rw [hboard, verified (verifyCampaignWithVotes_spec hdispatch)]
      exact congrArg (· + 1) ih
  | verifyBatch hboard counted =>
      have hcount := counted fun c a ha => sane.toRegistered.mem_ids ha
      rw [hboard]
      dsimp only
      omega
  | @describe c description record hrecord hboard =>
      obtain ⟨a, record', ha, hedit, hview⟩ := updateCampaignDescription_spec hdispatch
      obtain rfl : a.record = record :=
        Option.some.inj ((View.account_eq_some.mp ha).1.symm.trans hrecord)
      have hset : (view r.post).census Campaign.isVerified + a.record.isVerified.toNat =
          (view r.pre).census Campaign.isVerified + record'.isVerified.toNat :=
        reg.census_set ha hview
      have hrevoked : record'.isVerified = false := by
        cases hedit with
        | describe => rfl
        | verify _ hverify => rcases hverify with h | h | ⟨ids, -, h⟩ <;> cases h
      rw [hrevoked, Bool.toNat_false, Nat.add_zero] at hset
      rw [hboard]
      split
      next hverified =>
          rw [hverified, Bool.toNat_true] at hset
          dsimp only
          omega
      next hunverified =>
          rw [Bool.eq_false_of_not_eq_true hunverified, Bool.toNat_false, Nat.add_zero] at hset
          exact ih.trans hset.symm
  | create hcreate => rcases hcreate with rfl | ⟨token, rfl⟩ <;> exact absurd rfl hsets
  | cancel hcancel => rcases hcancel with rfl | ⟨admin, reason, rfl⟩ <;> exact absurd rfl hsets
  | votingRules hcall | entries hcall | kept hcall =>
      cases call <;> first | exact absurd rfl hsets | cases hcall
  | _ => exact absurd rfl hsets

theorem cancelledCount_step (h : r.Valid host) (sane : (view r.pre).Sane)
    (sane' : (view r.post).Sane)
    (ih : (board r.pre).cancelledCount = (view r.pre).census Campaign.isCancelled) :
    (board r.post).cancelledCount = (view r.post).census Campaign.isCancelled := by
  have hposting := h.posting sane.toConfigured
  have hdispatch := h.dispatched
  by_cases hcancels : r.call.cancels = false
  · rw [hposting.cancelledCount_kept hcancels, ih]
    exact (h.census_kept sane sane' (fun _ _ _ hturn => hturn.isCancelled_kept hcancels)
      fun _ _ _ => rfl).symm
  have cancelled : ∀ {c : Nat} {a : Account}, (view r.pre.clearMoved).account c = some a →
      a.record.isCancelled = false →
      (view r.post).campaignCount = (view r.pre).campaignCount →
      (view r.post).campaign = update (view r.pre).campaign c (some a.cancel.record) →
      (view r.post).census Campaign.isCancelled =
        (view r.pre).census Campaign.isCancelled + 1 := by
    intro c a ha notCancelled hcount hcampaign
    have hset : _ + a.record.isCancelled.toNat = _ + Bool.toNat true :=
      View.census_write (sane.toRegistered.mem_ids ha) ha hcount hcampaign
    rw [notCancelled] at hset
    exact hset
  generalize hcall : r.call = call at hposting hcancels
  rw [hcall] at hdispatch
  cases hposting with
  | cancel hcancel hrecord live hboard =>
      rw [hboard]
      rcases hcancel with rfl | ⟨admin, reason, rfl⟩
      · obtain ⟨a, token, ha, live, -, -, -, hview⟩ := cancelCampaign_spec hdispatch
        rw [cancelled ha live.notCancelled (by rw [hview]; rfl) (by rw [hview]; rfl)]
        exact congrArg (· + 1) ih
      · obtain ⟨a, ha, live, -, hview⟩ := adminCancelCampaign_spec hdispatch
        rw [cancelled ha live.notCancelled (by rw [hview]; rfl) (by rw [hview]; rfl)]
        exact congrArg (· + 1) ih
  | create hcreate => rcases hcreate with rfl | ⟨token, rfl⟩ <;> exact absurd rfl hcancels
  | votingRules hcall | entries hcall | kept hcall =>
      cases call <;> first | exact absurd rfl hcancels | cases hcall
  | _ => exact absurd rfl hcancels

/-! ## Along a run -/

theorem View.Fresh.census (h : (view s).Fresh) : (view s).census flag = 0 := by
  rw [View.census, View.ids, h.campaignCount]
  rfl

theorem run_counts (run : Run (machine host) tr cfg) :
    (board cfg.state).verifiedCount = (view cfg.state).census Campaign.isVerified ∧
      (board cfg.state).cancelledCount = (view cfg.state).census Campaign.isCancelled := by
  refine run.invariant (I := fun _ cfg =>
    (board cfg.state).verifiedCount = (view cfg.state).census Campaign.isVerified ∧
      (board cfg.state).cancelledCount = (view cfg.state).census Campaign.isCancelled) ?_ ?_ ?_
  · intro r cfg hstart
    have hfresh := start_fresh hstart
    rw [start_board hstart, hfresh.census, hfresh.census]
    exact ⟨rfl, rfl⟩
  · rintro tr cfg r cfg' run ⟨hverified, hcancelled⟩ step
    have sane := run_sane run
    have sane' := run_sane (run.step step)
    obtain ⟨hvalid, -, hpre, rfl⟩ := step
    rw [← hpre] at sane hverified hcancelled
    exact ⟨verifiedCount_step hvalid sane sane' hverified,
      cancelledCount_step hvalid sane sane' hcancelled⟩
  · rintro tr cfg cfg' ih ⟨tokens, -, rfl⟩
    exact ih

theorem run_activeCensus (run : Run (machine host) tr cfg) :
    (view cfg.state).activeCount = (view cfg.state).census Campaign.isActive := by
  rw [run_activeCount run, View.census, View.openIds]
  congr 1
  refine Finset.filter_congr fun c hc => ?_
  obtain ⟨a, ha⟩ := (run_sane run).account_of_mem hc
  rw [View.isOpen_of_account ha, (View.account_eq_some.mp ha).1]
  rfl

/-- A flag that some campaign has is counted at least once. -/
theorem View.Registered.census_pos (reg : v.Registered) (hrecord : v.campaign c = some record)
    (hflag : flag record = true) : 0 < v.census flag := by
  have hany : (v.campaign c).any flag = true := by
    rw [hrecord]
    exact hflag
  exact Finset.card_pos.mpr ⟨c, Finset.mem_filter.mpr ⟨reg.ids_of_any hany, hany⟩⟩

/-! ## The law -/

/-- Records stand under the numbers up to the count, the three counters are what a scan
over them counts, and a call that takes one off a counter finds it positive. -/
theorem platformCounters_agree (run : Run (machine host) tr cfg) :
    (∀ c, (∃ record, cfg.state.campaigns.campaign c = some record) ↔
      1 ≤ c ∧ c ≤ cfg.state.campaigns.campaignCount) ∧
    (∀ c record, cfg.state.campaigns.campaign c = some record → record.id = c) ∧
    cfg.state.campaigns.activeCampaignCount = (view cfg.state).census Campaign.isActive ∧
    cfg.state.campaigns.verifiedCampaignCount = (view cfg.state).census Campaign.isVerified ∧
    cfg.state.campaigns.cancelledCampaignCount = (view cfg.state).census Campaign.isCancelled ∧
    ∀ r ∈ tr,
      (∀ c a, (view r.pre).account c = some a → a.closedBy (r.call.act c) = true →
        0 < r.pre.campaigns.activeCampaignCount) ∧
      ∀ c description record, r.call = .updateCampaignDescription c description →
        r.pre.campaigns.campaign c = some record → record.isVerified = true →
        0 < r.pre.campaigns.verifiedCampaignCount := by
  refine ⟨fun c => ?_, fun c record hrecord => run_recordId run (View.account_of_campaign hrecord),
    run_activeCensus run, (run_counts run).1, (run_counts run).2, ?_⟩
  · rw [campaignCount_view, ← (run_sane run).exists_iff c]
    constructor
    · rintro ⟨record, hrecord⟩
      exact ⟨_, View.account_of_campaign hrecord⟩
    · rintro ⟨a, ha⟩
      exact ⟨_, (View.account_eq_some.mp ha).1⟩
  · refine run_receipts ?_ ?_ run
    · intro r cfg hstart
      obtain ⟨tokens, hpre⟩ := hstart.2.1
      rw [hpre]
      refine ⟨fun c a ha => ?_, fun c description record _ hrecord => ?_⟩
      · cases ha
      · cases hrecord
    · intro tr cfg r run hvalid hpre
      have sane := run_sane run
      have hactive := run_activeCensus run
      have hverified := (run_counts run).1
      have hphase : ∀ {c a}, (view cfg.state).account c = some a → a.Phase :=
        fun ha => run_phase run ha
      rw [← hpre] at sane hactive hverified hphase
      refine ⟨fun c a ha hcloses => ?_, fun c description record hcall hrecord hflag => ?_⟩
      · obtain ⟨delta, -, hexisting⟩ := (hvalid.stepped sane).existing
        obtain ⟨a', -, hstep⟩ := hexisting c a ha
        have hopen := hstep.active (hphase ha)
        rw [if_pos hcloses] at hopen
        rw [activeCount_view, hactive]
        exact sane.census_pos (View.account_eq_some.mp ha).1 hopen.1
      · have hpos := @View.Registered.census_pos c record (view r.pre) _ sane.toRegistered hrecord
          hflag
        exact Nat.lt_of_lt_of_eq hpos hverified.symm

theorem platformCounters_sample : ∃ tr cfg, Run (machine Sample.host) tr cfg ∧
    cfg.state.campaigns.campaignCount = 2 ∧
    cfg.state.campaigns.verifiedCampaignCount = 1 ∧
    (view cfg.state).census Campaign.isVerified = 1 := by
  have h : Sample.Ends 300 (Sample.opened 0 ++
      [Sample.ask 0 Sample.creator (.createCampaign (Sample.params [1] 0))]) fun _ cfg =>
      cfg.state.campaigns.campaignCount = 2 ∧
        cfg.state.campaigns.verifiedCampaignCount = 1 := by decide +kernel
  obtain ⟨tr, cfg, run, hcount, hverified⟩ := h.run
  exact ⟨tr, cfg, run, hcount, hverified,
    (platformCounters_agree run).2.2.2.1.symm.trans hverified⟩

end ProofOfHeart
