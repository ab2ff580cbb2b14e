import ProofOfHeart.Laws.Batch
import ProofOfHeart.Laws.ContributionCaps
import ProofOfHeart.Lib.Windows

/-! # Bursts of contributions

Once a campaign has raised more than half of its goal, ten more contributions go through
in a ledger. Single contributions and the items of batches share the count, and what
fails is not counted. No contribution is more than twice the goal.
-/

namespace ProofOfHeart

open Checked Function Trace Windows

variable {host : Host} {tr : List Receipt} {cfg : Config} {s s' : State} {r : Receipt}
  {env : Env} {c id : Nat} {who : Address} {amount goal raised : Int} {record : Campaign}
  {call : Call}

/-! ## What is counted -/

/-- More than half of the goal has been raised. -/
def Busy (goal raised : Int) : Prop := goal < 2 * raised

instance : Decidable (Busy goal raised) := inferInstanceAs (Decidable (goal < 2 * raised))

/-- How many of some contributions in a row begin when more than half is raised. -/
def burstCount (goal : Int) : Int → List Int → Nat
  | _, [] => 0
  | raised, amount :: rest =>
      (if Busy goal raised then 1 else 0) + burstCount goal (raised + amount) rest

/-- The campaigns a call contributes to, with the amounts, in order. -/
def Call.contributions : Call → List (Nat × Int)
  | .contribute c _ amount => [(c, amount)]
  | .batchContribute _ items => items
  | _ => []

/-- How many of the amounts count for a campaign in a state. -/
def State.bursts (s : State) (c : Nat) (amounts : List Int) : Nat :=
  (s.campaigns.campaign c).elim 0 fun record =>
    burstCount record.fundingGoal record.amountRaised amounts

def Receipt.bursts (c : Nat) (r : Receipt) : Nat :=
  r.pre.bursts c (amountsTo c r.call.contributions)

theorem State.bursts_nil : s.bursts c [] = 0 := by
  unfold State.bursts
  cases s.campaigns.campaign c <;> rfl

theorem State.bursts_congr {amounts : List Int}
    (h : s'.campaigns.campaign c = s.campaigns.campaign c) :
    s'.bursts c amounts = s.bursts c amounts := by
  rw [State.bursts, h, State.bursts]

/-! ## One contribution -/

theorem busy_iff : ¬ raised * bpsDenominator ≤ goal * autoPauseBurstCheckMinRaisedBps ↔
    Busy goal raised := by
  have hbps : (bpsDenominator : Int) = 10000 := rfl
  have hhalf : autoPauseBurstCheckMinRaisedBps = 5000 := rfl
  rw [hbps, hhalf, Busy]
  omega

theorem nextBlockCount_eq_ok {last : Nat × Nat} {count : Nat} :
    nextBlockCount env last = .ok count ↔ count = spent env.sequence last + 1 ∧
      (env.sequence = last.1 → last.2 + 1 < 2 ^ 32) := by
  unfold nextBlockCount spent
  split
  next hsame =>
      rw [okOr_eq_ok, Word.checkedAdd_eq_some, eq_comm]
      exact and_congr_right fun _ => ⟨fun h _ => h, fun h => h hsame⟩
  next hnew =>
      rw [pure_eq_ok, eq_comm]
      exact ⟨fun h => ⟨h, fun hsame => absurd hsame hnew⟩, fun h => h.1⟩

theorem checkBurstGuard_spends (h : checkBurstGuard env s c record amount = .ok s') :
    amount ≤ 2 * record.fundingGoal ∧ Spends 10 env.sequence
      (if Busy record.fundingGoal record.amountRaised then 1 else 0)
      ((board s).burst c) ((board s').burst c) := by
  simp only [checkBurstGuard, bind_eq_ok, okOr_eq_ok, I128.checkedMul_eq_some,
    rejectIf_eq_ok] at h
  obtain ⟨_, ⟨rfl, -⟩, _, ⟨rfl, -⟩, _, hhuge, _, ⟨rfl, -⟩, _, ⟨rfl, -⟩, h⟩ := h
  have hbps : (bpsDenominator : Int) = 10000 := rfl
  have htwice : autoPauseSingleContributionBpsThreshold = 20000 := rfl
  rw [hbps, htwice] at hhuge
  refine ⟨by omega, ?_⟩
  split at h
  next hquiet =>
      rw [if_neg fun hbusy => busy_iff.mpr hbusy hquiet, pure_eq_ok.mp h]
      exact .nothing
  next hbusy =>
      rw [if_pos (busy_iff.mp hbusy)]
      simp only [bind_eq_ok, rejectIf_eq_ok, pure_eq_ok, nextBlockCount_eq_ok, Nat.not_lt] at h
      obtain ⟨_, ⟨rfl, -⟩, _, hwithin, rfl⟩ := h
      have hentry : (board (setCampaignBlockContributionCount s c env.sequence
          (spent env.sequence (s.contributions.blockCampaignContributionCount c) + 1))).burst c =
          (env.sequence, spent env.sequence ((board s).burst c) + 1) := update_self ..
      rw [hentry]
      exact .count Nat.one_pos hwithin

/-- What an accepted contribution counts, and what it leaves alone. -/
structure Counts (env : Env) (s : State) (id : Nat) (amount : Int) (s' : State) : Prop where
  bounded : ∃ record, s.campaigns.campaign id = some record ∧ amount ≤ 2 * record.fundingGoal
  raises : ∀ record, s.campaigns.campaign id = some record → s'.campaigns.campaign id =
    some { record with
      amountRaised := record.amountRaised + amount
      effectiveAmountRaised := record.effectiveAmountRaised + amount }
  spends : ∀ record, s.campaigns.campaign id = some record → Spends 10 env.sequence
    (if Busy record.fundingGoal record.amountRaised then 1 else 0)
    ((board s).burst id) ((board s').burst id)
  others : ∀ other, other ≠ id → s'.campaigns.campaign other = s.campaigns.campaign other ∧
    (board s').burst other = (board s).burst other

theorem acceptContribution_counts (h : acceptContribution env s id who amount = .ok s') :
    Counts env s id amount s' := by
  obtain ⟨a, ha, -, -, hview⟩ := acceptContribution_spec h
  obtain ⟨record, hrecord, hboard⟩ := acceptContribution_board h
  have hsame : record = a.record :=
    Option.some.inj (hrecord.symm.trans (View.account_eq_some.mp ha).1)
  have hcampaign : s'.campaigns.campaign = update s.campaigns.campaign id
      (some (a.contribute (view s).admin.admin who amount).record) :=
    congrArg View.campaign hview
  have hguard : amount ≤ 2 * record.fundingGoal ∧ Spends 10 env.sequence
      (if Busy record.fundingGoal record.amountRaised then 1 else 0)
      ((board s).burst id) ((board s').burst id) := by
    simp only [acceptContribution, getCampaignOrError, bind_eq_ok, okOr_eq_ok] at h
    obtain ⟨_, -, campaign, hfound, _, -, _, -, _, -, _, -, _, -, _, -, _, -, s1, hs1, h⟩ := h
    obtain rfl := Option.some.inj (hrecord.symm.trans hfound)
    rw [updateContributionAccounting_board h]
    exact checkBurstGuard_spends hs1
  refine ⟨⟨record, hrecord, hguard.1⟩, fun found hfound => ?_, fun found hfound => ?_,
    fun other hother => ⟨?_, ?_⟩⟩
  · obtain rfl := Option.some.inj (hrecord.symm.trans hfound)
    rw [hcampaign, update_self, hsame]
    rfl
  · obtain rfl := Option.some.inj (hrecord.symm.trans hfound)
    exact hguard.2
  · rw [hcampaign, update_of_ne hother]
  · rw [hboard]
    exact update_of_ne hother _ _

/-- One contribution counts in its campaign like a row of one. -/
theorem Counts.row (h : Counts env s id amount s') (c : Nat) (rest : List (Nat × Int)) :
    ∃ k, s.bursts c (amountsTo c ((id, amount) :: rest)) = k + s'.bursts c (amountsTo c rest) ∧
      Spends 10 env.sequence k ((board s).burst c) ((board s').burst c) := by
  by_cases hc : c = id
  · subst hc
    obtain ⟨record, hrecord, -⟩ := h.bounded
    refine ⟨_, ?_, h.spends record hrecord⟩
    have hamounts : amountsTo c ((c, amount) :: rest) = amount :: amountsTo c rest := by
      simp [amountsTo]
    rw [hamounts, State.bursts, State.bursts, hrecord, h.raises record hrecord]
    rfl
  · obtain ⟨hcampaign, hburst⟩ := h.others c hc
    have hamounts : amountsTo c ((id, amount) :: rest) = amountsTo c rest := by
      simp [amountsTo, Ne.symm hc]
    refine ⟨0, ?_, ?_⟩
    · rw [hamounts, State.bursts_congr hcampaign, Nat.zero_add]
    · rw [hburst]
      exact .nothing

/-! ## A batch -/

theorem batchItems_spend {items : List (Nat × Int)} (c : Nat) :
    ∀ {progress progress' : BatchProgress},
      each (batchContributeItem env who) progress items = .ok progress' →
      Spends 10 env.sequence (progress.state.bursts c (amountsTo c items))
        ((board progress.state).burst c) ((board progress'.state).burst c) := by
  induction items with
  | nil =>
      intro progress progress' h
      rw [each_nil, Except.ok.injEq] at h
      subst h
      exact State.bursts_nil ▸ .nothing
  | cons item rest ih =>
      intro progress progress' h
      obtain ⟨mid, hmid, hrest⟩ := each_cons_eq_ok.mp h
      have hcounts := acceptContribution_counts (batchContributeItem_view hmid)
      obtain ⟨k, hk, hspends⟩ := hcounts.row c rest
      rw [hk]
      exact hspends.trans (ih hrest)

/-- The goals stay while a batch is served. -/
theorem batchItems_bounded {items : List (Nat × Int)} {progress progress' : BatchProgress}
    (h : each (batchContributeItem env who) progress items = .ok progress') :
    ∀ item ∈ items, ∃ record, progress.state.campaigns.campaign item.1 = some record ∧
      item.2 ≤ 2 * record.fundingGoal := by
  have hvisits := each_visits (fun mid : BatchProgress => ∀ c record,
      mid.state.campaigns.campaign c = some record → ∃ first,
        progress.state.campaigns.campaign c = some first ∧
          first.fundingGoal = record.fundingGoal)
    (fun mid item next hmid hstep c record hrecord => by
      have hcounts := acceptContribution_counts (batchContributeItem_view hstep)
      by_cases hc : c = item.1
      · subst hc
        obtain ⟨before, hbefore, -⟩ := hcounts.bounded
        obtain ⟨first, hfirst, hgoal⟩ := hmid _ before hbefore
        have hraised := (hcounts.raises before hbefore).symm.trans hrecord
        exact ⟨first, hfirst, hgoal.trans (Option.some.inj hraised ▸ rfl)⟩
      · exact hmid c record ((hcounts.others c hc).1 ▸ hrecord)) items _ _
    (fun c record hrecord => ⟨record, hrecord, rfl⟩) h
  intro item hitem
  obtain ⟨mid, next, hgoals, hstep⟩ := hvisits item hitem
  obtain ⟨record, hrecord, hbounded⟩ :=
    (acceptContribution_counts (batchContributeItem_view hstep)).bounded
  obtain ⟨first, hfirst, hgoal⟩ := hgoals _ record hrecord
  exact ⟨first, hfirst, hgoal ▸ hbounded⟩

/-! ## Every call -/

theorem Posting.burst_kept (h : Posting env s s' call) (hcall : call.contributes = false) :
    (board s').burst = (board s).burst := by
  cases h with
  | contribute | batch => cases hcall
  | describe _ hboard =>
      rw [hboard]
      split <;> rfl
  | create _ _ hboard | handOver _ _ hboard | refund hboard | cancel _ _ _ hboard | verify hboard
  | certify _ _ _ hboard | verifyBatch hboard | vote _ _ _ _ _ hboard | purge _ _ hboard
  | votingRules _ hboard | entries _ hboard | kept _ hboard =>
      rw [hboard]

theorem contribute_spends (h : contribute env s id who amount = .ok s') (c : Nat) :
    Spends 10 env.sequence (s.bursts c (amountsTo c [(id, amount)]))
      ((board s).burst c) ((board s').burst c) ∧
    ∃ record, s.campaigns.campaign id = some record ∧ amount ≤ 2 * record.fundingGoal := by
  simp only [contribute, bind_eq_ok] at h
  obtain ⟨_, -, _, -, s1, hs1, _, -, token, -, h⟩ := h
  have hcounts := acceptContribution_counts hs1
  obtain ⟨k, hk, hspends⟩ := hcounts.row c []
  have hburst : (board s').burst = (board s1).burst := by
    rw [transfer_board h, board_setLastContributionTime, updateTopContributor_board]
  rw [hk, hburst]
  exact ⟨State.bursts_nil.symm ▸ hspends, hcounts.bounded⟩

theorem batchContribute_spends {items : List (Nat × Int)}
    (h : batchContribute env s who items = .ok s') (c : Nat) :
    Spends 10 env.sequence (s.bursts c (amountsTo c items))
      ((board s).burst c) ((board s').burst c) ∧
    ∀ item ∈ items, ∃ record, s.campaigns.campaign item.1 = some record ∧
      item.2 ≤ 2 * record.fundingGoal := by
  simp only [batchContribute, bind_eq_ok] at h
  obtain ⟨_, -, _, -, _, -, progress, hprogress, h⟩ := h
  rw [payOwed_board h]
  exact ⟨batchItems_spend c hprogress, batchItems_bounded hprogress⟩

theorem Receipt.Valid.spends (h : r.Valid host) (conf : (view r.pre).Configured) (c : Nat) :
    Spends 10 r.env.sequence (r.bursts c) ((board r.pre).burst c) ((board r.post).burst c) ∧
    ∀ item ∈ r.call.contributions, ∃ record, r.pre.campaigns.campaign item.1 = some record ∧
      item.2 ≤ 2 * record.fundingGoal := by
  have hposting := h.posting conf
  have hdispatch := h.dispatched
  rw [Receipt.bursts]
  generalize r.call = call at hposting hdispatch
  cases call with
  | contribute id who amount =>
      obtain ⟨hspends, hbounded⟩ := contribute_spends hdispatch c
      exact ⟨hspends, List.forall_mem_singleton.mpr hbounded⟩
  | batchContribute who items => exact batchContribute_spends hdispatch c
  | _ =>
      rw [hposting.burst_kept rfl]
      exact ⟨State.bursts_nil.symm ▸ .nothing, fun item hitem => absurd hitem List.not_mem_nil⟩

/-! ## Along a run -/

/-- The contributions to a campaign that count, with their ledgers. -/
def burstEvents (c : Nat) (tr : List Receipt) : List (Nat × Nat) :=
  tr.map fun r => (r.env.sequence, r.bursts c)

/-- How many contributions to a campaign that began above half of its goal were committed in
a ledger. -/
def burstsIn (c ledger : Nat) (tr : List Receipt) : Nat := total ledger (burstEvents c tr)

theorem run_tracks (run : Run (machine host) tr cfg) (c : Nat) :
    Tracks 10 cfg.ledger.sequence ((board cfg.state).burst c) (burstEvents c tr) := by
  refine run.invariant (I := fun tr cfg =>
    Tracks 10 cfg.ledger.sequence ((board cfg.state).burst c) (burstEvents c tr)) ?_ ?_ ?_
  · intro r cfg hstart
    have hquiet : r.bursts c = 0 := by
      obtain ⟨-, -, ⟨admin, token, platformFee, hcall⟩, -⟩ := hstart
      rw [Receipt.bursts, hcall]
      exact State.bursts_nil
    rw [start_board hstart]
    refine Tracks.start rfl fun w => ?_
    rw [burstEvents, List.map_singleton, hquiet, total_cons, ite_self]
    rfl
  · rintro tr cfg r cfg' run tracks ⟨hvalid, hledger, hpre, rfl⟩
    have conf := (run_sane run).toConfigured
    rw [← hpre] at conf tracks
    exact tracks.step hledger.2 (hvalid.spends conf c).1
  · rintro tr cfg cfg' tracks ⟨tokens, -, rfl⟩
    exact tracks

/-! ## The law -/

/-- The products that the guard compares fit. -/
structure GuardFits (record : Campaign) (amount : Int) : Prop where
  amount : I128.InRange (amount * bpsDenominator)
  twice : I128.InRange (record.fundingGoal * autoPauseSingleContributionBpsThreshold)
  raised : I128.InRange (record.amountRaised * bpsDenominator)
  half : I128.InRange (record.fundingGoal * autoPauseBurstCheckMinRaisedBps)

theorem checkBurstGuard_exists_iff (hbusy : Busy record.fundingGoal record.amountRaised) :
    (∃ s', checkBurstGuard env s c record amount = .ok s') ↔ GuardFits record amount ∧
      amount ≤ 2 * record.fundingGoal ∧ spent env.sequence ((board s).burst c) < 10 := by
  have hbps : (bpsDenominator : Int) = 10000 := rfl
  have htwice : autoPauseSingleContributionBpsThreshold = 20000 := rfl
  simp only [checkBurstGuard, bind_eq_ok, okOr_eq_ok, I128.checkedMul_eq_some, rejectIf_eq_ok]
  constructor
  · rintro ⟨s', _, ⟨rfl, hamount⟩, _, ⟨rfl, hgoal⟩, _, hhuge, _, ⟨rfl, hraised⟩, _, ⟨rfl, hhalf⟩,
      hcount⟩
    rw [if_neg (busy_iff.mpr hbusy)] at hcount
    simp only [bind_eq_ok, nextBlockCount_eq_ok, rejectIf_eq_ok, Nat.not_lt] at hcount
    obtain ⟨_, ⟨rfl, -⟩, _, hwithin, -⟩ := hcount
    rw [hbps, htwice] at hhuge
    exact ⟨⟨hamount, hgoal, hraised, hhalf⟩, by omega, hwithin⟩
  · rintro ⟨⟨hamount, hgoal, hraised, hhalf⟩, hbounded, hspent⟩
    refine ⟨setCampaignBlockContributionCount s c env.sequence
        (spent env.sequence ((board s).burst c) + 1), _, ⟨rfl, hamount⟩, _, ⟨rfl, hgoal⟩, (), ?_, _,
      ⟨rfl, hraised⟩, _, ⟨rfl, hhalf⟩, ?_⟩
    · rw [hbps, htwice]
      omega
    · rw [if_neg (busy_iff.mpr hbusy)]
      simp only [bind_eq_ok, nextBlockCount_eq_ok, rejectIf_eq_ok, pure_eq_ok, Nat.not_lt]
      refine ⟨_, ⟨rfl, fun hsame => ?_⟩, (), hspent, rfl⟩
      have hentry : spent env.sequence ((board s).burst c) = ((board s).burst c).2 := if_pos hsame
      rw [hentry] at hspent
      exact Nat.lt_of_le_of_lt hspent (by decide)

/-- In every ledger at most ten contributions that begin above half of the goal are
committed to a campaign, and none is above twice the goal. What fails takes nothing of
the allowance: the guard lets a contribution pass as long as fewer than ten are committed. -/
theorem bursts_limited (run : Run (machine host) tr cfg) (c : Nat) :
    (∀ ledger, burstsIn c ledger tr ≤ 10) ∧
    (∀ r ∈ tr, ∀ item ∈ r.call.contributions, ∃ record,
      r.pre.campaigns.campaign item.1 = some record ∧ item.2 ≤ 2 * record.fundingGoal) ∧
    (∀ env call, (∀ s', invoke env cfg.state call ≠ .ok s') →
      stateAfter env cfg.state call = cfg.state) ∧
    ∀ (env : Env) record amount, cfg.ledger.sequence ≤ env.sequence →
      Busy record.fundingGoal record.amountRaised →
      ((∃ s', checkBurstGuard env cfg.state c record amount = .ok s') ↔
        GuardFits record amount ∧ amount ≤ 2 * record.fundingGoal ∧
          burstsIn c env.sequence tr < 10) := by
  have tracks := run_tracks run c
  refine ⟨tracks.within, run_receipts ?_ ?_ run, fun env call hfails => ?_,
    fun env record amount hledger hbusy => ?_⟩
  · rintro r cfg ⟨-, -, ⟨admin, token, platformFee, hcall⟩, -⟩ item hitem
    rw [hcall] at hitem
    cases hitem
  · intro tr cfg r run hvalid hpre
    have conf := (run_sane run).toConfigured
    rw [← hpre] at conf
    exact (hvalid.spends conf c).2
  · unfold stateAfter
    split
    next s' h => exact absurd h (hfails s')
    next => rfl
  · rw [checkBurstGuard_exists_iff hbusy, tracks.spent_eq hledger]
    rfl

/-- Three contributions in a ledger begin above half of the goal, two of them in a batch. -/
def Sample.burst : List Request :=
  opened 0 ++ [ask 1 alice (.contribute 1 alice 60000), ask 1 bob (.contribute 1 bob 1000),
    ask 1 bob (.batchContribute bob [(1, 1000), (1, 2000)])]

theorem bursts_sample : ∃ tr cfg, Run (machine Sample.host) tr cfg ∧ burstsIn 1 1 tr = 3 ∧
    ∀ record amount, Busy record.fundingGoal record.amountRaised → GuardFits record amount →
      amount ≤ 2 * record.fundingGoal →
      ∃ s', checkBurstGuard (Sample.env 1 Sample.bob) cfg.state 1 record amount = .ok s' := by
  have h : Sample.Ends 300 Sample.burst fun tr cfg =>
      burstsIn 1 1 tr = 3 ∧ cfg.ledger.sequence = 1 := by decide +kernel
  obtain ⟨tr, cfg, run, hcount, hledger⟩ := h.run
  refine ⟨tr, cfg, run, hcount, fun record amount hbusy hfits hbounded => ?_⟩
  have hguard := (bursts_limited run 1).2.2.2 (Sample.env 1 Sample.bob) record amount
    (hledger ▸ Nat.le_refl 1) hbusy
  have hsequence : (Sample.env 1 Sample.bob).sequence = 1 := rfl
  rw [hsequence, hcount] at hguard
  exact hguard.mpr ⟨hfits, hbounded, by decide⟩

end ProofOfHeart
