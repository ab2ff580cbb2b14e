import ProofOfHeart.Laws.Exits
import ProofOfHeart.Laws.Listings
import ProofOfHeart.Laws.PlatformCounters

/-! # The report on the platform

The report adds up the contributors of all campaigns in a counter of 32 bits. In every
state of a run it counts, for each campaign, who has a contribution there, and it traps
exactly when these are too many. Every campaign is active, cancelled or paid out.
-/

namespace ProofOfHeart

open Checked Function Trace Balances

variable {host : Host} {tr : List Receipt} {cfg : Config} {s : State}

/-! ## The loop -/

theorem each_addContributors {ids : List Nat}
    (hstored : ∀ c ∈ ids, (s.campaigns.campaign c).isSome) :
    ∀ {total : Nat}, total < 2 ^ 32 → each (addContributors s) total ids =
      okOr (Word.checkedAdd 32 total (ids.map s.contributions.contributorCount).sum)
        (.trap .arithmetic) := by
  induction ids with
  | nil =>
      intro total htotal
      rw [each_nil, List.map_nil, List.sum_nil, Word.checkedAdd_of_lt htotal]
      rfl
  | cons c rest ih =>
      intro total htotal
      obtain ⟨hfirst, hrest⟩ := List.forall_mem_cons.mp hstored
      rw [each, addContributors, if_pos hfirst, List.map_cons, List.sum_cons]
      by_cases hfits : total + s.contributions.contributorCount c < 2 ^ 32
      · have hsum : Word.checkedAdd 32 total (s.contributions.contributorCount c +
            (rest.map s.contributions.contributorCount).sum) =
            Word.checkedAdd 32 (total + s.contributions.contributorCount c)
              (rest.map s.contributions.contributorCount).sum := by
          unfold Word.checkedAdd
          rw [Nat.add_assoc]
        rw [Word.checkedAdd_of_lt hfits, hsum]
        exact ih hrest hfits
      · rw [Word.checkedAdd_of_le (Nat.le_of_not_lt hfits), Word.checkedAdd_of_le (by omega)]
        rfl

theorem getPlatformReport_eq_ok {report : PlatformReport} :
    getPlatformReport s = .ok report ↔ ∃ total token,
      each (addContributors s) 0 (List.range' 1 s.campaigns.campaignCount) = .ok total ∧
      getToken s = .ok token ∧
      PlatformReport.mk s.campaigns.campaignCount s.campaigns.activeCampaignCount
        s.contributions.totalRaised total (getPlatformFee s)
        (s.admin.paused || s.admin.autoPaused) token = report := by
  simp only [getPlatformReport, bind_eq_ok, pure_eq_ok]
  constructor
  · rintro ⟨total, hloop, token, htoken, rfl⟩
    exact ⟨total, token, hloop, htoken, rfl⟩
  · rintro ⟨total, token, hloop, htoken, rfl⟩
    exact ⟨total, hloop, token, htoken, rfl⟩

/-! ## The law -/

/-- The number of pairs of a campaign and one who has a contribution there. -/
noncomputable def backers (s : State) : Nat :=
  ∑ c ∈ Finset.Icc 1 s.campaigns.campaignCount, {who | 0 < s.contributions.contribution c who}.ncard

theorem run_backers (run : Run (machine host) tr cfg) :
    ((List.range' 1 cfg.state.campaigns.campaignCount).map
      cfg.state.contributions.contributorCount).sum = backers cfg.state := by
  have hlist : ((List.range' 1 cfg.state.campaigns.campaignCount).map
      cfg.state.contributions.contributorCount).sum =
      ∑ c ∈ Finset.Icc 1 cfg.state.campaigns.campaignCount,
        cfg.state.contributions.contributorCount c := by
    rw [Nat.Icc_eq_range']
    rfl
  rw [hlist, backers]
  refine Finset.sum_congr rfl fun c hc => ?_
  obtain ⟨a, ha⟩ := (run_sane run).account_of_mem hc
  have hcount := (run_books run ha).1.count
  rw [← (View.account_eq_some.mp ha).2] at hcount
  exact hcount

/-- Exactly one of three things is true of a campaign. -/
theorem run_partition (run : Run (machine host) tr cfg) :
    (view cfg.state).census Campaign.isActive + (view cfg.state).census Campaign.isCancelled +
      (view cfg.state).census Campaign.fundsWithdrawn = cfg.state.campaigns.campaignCount := by
  have hcard : (view cfg.state).ids.card = cfg.state.campaigns.campaignCount :=
    Nat.card_Icc 1 cfg.state.campaigns.campaignCount
  rw [← hcard, Finset.card_eq_sum_ones, View.census, View.census, View.census,
    Finset.card_filter, Finset.card_filter, Finset.card_filter, ← Finset.sum_add_distrib,
    ← Finset.sum_add_distrib]
  refine Finset.sum_congr rfl fun c hc => ?_
  obtain ⟨a, ha⟩ := (run_sane run).account_of_mem hc
  have phase := run_phase run ha
  rw [(View.account_eq_some.mp ha).1]
  simp only [Option.any_some]
  by_cases hcancelled : a.record.isCancelled = true
  · have hunpaid := phase.exclusive hcancelled
    have hinactive := phase.closed.mpr (.inl hcancelled)
    simp [hcancelled, hunpaid, hinactive]
  · by_cases hwithdrawn : a.record.fundsWithdrawn = true
    · have hinactive := phase.closed.mpr (.inr hwithdrawn)
      simp [hcancelled, hwithdrawn, hinactive]
    · have hactive : a.record.isActive = true := by
        by_contra hinactive
        exact (phase.closed.mp (Bool.eq_false_of_not_eq_true hinactive)).elim hcancelled hwithdrawn
      simp [hcancelled, hwithdrawn, hactive]

/-- The report counts everybody who has a contribution somewhere, or there are too many
for its counter; and it never traps for another reason. -/
theorem platformReport_counts (run : Run (machine host) tr cfg) :
    ((∃ report, getPlatformReport cfg.state = .ok report) ↔ backers cfg.state < 2 ^ 32) ∧
      (∀ report, getPlatformReport cfg.state = .ok report →
        report.totalContributors = backers cfg.state ∧
        report.activeCampaigns + (getPlatformStats cfg.state).cancelledCampaigns +
          (view cfg.state).census Campaign.fundsWithdrawn = report.totalCampaigns) ∧
      ∀ abort, getPlatformReport cfg.state = .error abort → abort = .trap .arithmetic := by
  have hstored : ∀ c ∈ List.range' 1 cfg.state.campaigns.campaignCount,
      (cfg.state.campaigns.campaign c).isSome := by
    intro c hc
    obtain ⟨record, hrecord, -⟩ := run_allStored run c hc
    rw [hrecord]
    rfl
  obtain ⟨token, htoken⟩ := Option.ne_none_iff_exists'.mp (run_tokenKnown run)
  have hgot : getToken cfg.state = .ok token := okOr_eq_ok.mpr htoken
  have hloop := each_addContributors hstored (Nat.two_pow_pos 32)
  rw [run_backers run] at hloop
  have hpartition := run_partition run
  rw [← run_activeCensus run, ← (run_counts run).2] at hpartition
  by_cases hfits : backers cfg.state < 2 ^ 32
  · rw [Word.checkedAdd_of_lt (by rwa [Nat.zero_add]), Nat.zero_add] at hloop
    refine ⟨⟨fun _ => hfits, fun _ => ?_⟩, fun report h => ?_, fun abort h => ?_⟩
    · exact ⟨_, getPlatformReport_eq_ok.mpr ⟨_, token, hloop, hgot, rfl⟩⟩
    · obtain ⟨total, _, htotal, -, rfl⟩ := getPlatformReport_eq_ok.mp h
      obtain rfl : backers cfg.state = total := Except.ok.inj (hloop.symm.trans htotal)
      exact ⟨rfl, hpartition⟩
    · cases (getPlatformReport_eq_ok.mpr ⟨_, token, hloop, hgot, rfl⟩).symm.trans h
  · rw [Word.checkedAdd_of_le (by omega)] at hloop
    have hreport : getPlatformReport cfg.state = .error (.trap .arithmetic) := by
      rw [getPlatformReport, hloop]
      rfl
    rw [hreport]
    refine ⟨⟨?_, fun h => absurd h hfits⟩, ?_, fun abort h => (Except.error.inj h).symm⟩
    · rintro ⟨report, h⟩
      cases h
    · intro report h
      cases h

theorem platformReport_sample : ∃ tr cfg, Run (machine Sample.host) tr cfg ∧
    ∃ report, getPlatformReport cfg.state = .ok report ∧ report.totalContributors = 1 ∧
      backers cfg.state = 1 := by
  have h : Sample.Ends 300 Sample.refunded fun _ cfg =>
      ∃ report ∈ (getPlatformReport cfg.state).toOption, report.totalContributors = 1 := by
    decide +kernel
  obtain ⟨tr, cfg, run, report, hreport, htotal⟩ := h.run
  have hgot : getPlatformReport cfg.state = .ok report := by
    cases hresult : getPlatformReport cfg.state with
    | ok other => rw [hresult] at hreport; exact congrArg _ (Option.some.inj hreport)
    | error abort => rw [hresult] at hreport; cases hreport
  have hcounts := ((platformReport_counts run).2.1 report hgot).1
  exact ⟨tr, cfg, run, report, hgot, htotal, hcounts.symm.trans htotal⟩

end ProofOfHeart
