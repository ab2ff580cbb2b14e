import ProofOfHeart.Laws.CampaignStates
import ProofOfHeart.Laws.Configuration
import ProofOfHeart.Laws.CreatorPaging
import ProofOfHeart.Laws.PlatformCounters
import ProofOfHeart.Laws.VoteTally

/-! # Verification by the voters and by the admin

The voters verify a campaign exactly when the quorum and the threshold are met as exact
numbers. A batch of the admin does what its entries do one after another, although a
failed entry is not undone: nothing is written before the last check.
-/

namespace ProofOfHeart

open Checked Function Trace

variable {host : Host} {tr : List Receipt} {cfg : Config} {s s' : State} {env : Env} {c : Nat}
  {record : Campaign} {admin : Address} {v : View} {a b : Account}

/-! ## Room on the counter -/

theorem View.Registered.setAccount (reg : v.Registered) (ha : v.account c = some a) :
    (v.setAccount c b).Registered where
  exists_iff other := by
    have hsame : (∃ a', (v.setAccount c b).account other = some a') ↔
        ∃ a', v.account other = some a' := by
      by_cases hc : other = c
      · subst hc
        rw [View.setAccount_account_self]
        exact iff_of_true ⟨b, rfl⟩ ⟨a, ha⟩
      · rw [View.setAccount_account_of_ne hc]
    rw [hsame, reg.exists_iff]
    rfl
  blank other hnone := by
    have hc : other ≠ c := by
      rintro rfl
      rw [View.setAccount_account_self] at hnone
      cases hnone
    rw [View.setAccount_account_of_ne hc] at hnone
    exact (update_of_ne hc _ _).trans (reg.blank other hnone)

/-- The counter counts the verified campaigns, of which there are few. -/
structure VerifiedCounted (s : State) : Prop where
  registered : (view s).Registered
  few : (view s).campaignCount < 2 ^ 32
  counted : (board s).verifiedCount = (view s).census Campaign.isVerified

theorem run_verifiedCounted (run : Run (machine host) tr cfg) : VerifiedCounted cfg.state :=
  ⟨(run_sane run).toRegistered, run_count_lt run, (run_counts run).1⟩

/-- A campaign that is not verified leaves room on the counter. -/
theorem VerifiedCounted.room (h : VerifiedCounted s)
    (hrecord : s.campaigns.campaign c = some record) (hunverified : record.isVerified = false) :
    s.campaigns.verifiedCampaignCount + 1 < 2 ^ 32 := by
  have hrecord' : (view s).campaign c = some record := hrecord
  have hmem : c ∈ (view s).ids := h.registered.mem_ids (View.account_of_campaign hrecord')
  have hfewer : (view s).census Campaign.isVerified < (view s).ids.card := by
    refine Finset.card_lt_card (Finset.filter_ssubset.mpr ⟨c, hmem, ?_⟩)
    rw [hrecord', Option.any_some, hunverified]
    decide
  have hids : (view s).ids.card = (view s).campaignCount := by simp [View.ids]
  have hfew := h.few
  have hcounted : s.campaigns.verifiedCampaignCount = (view s).census Campaign.isVerified :=
    h.counted
  omega

theorem VerifiedCounted.verify (h : VerifiedCounted s)
    (hverify : adminVerify s c = .ok (s', .ok ())) : VerifiedCounted s' := by
  obtain ⟨a, ha, hverifiable, hview⟩ := adminVerify_ok hverify
  have hboard := adminVerify_board hverify
  have hcampaign : (view s').campaign = update (view s).campaign c (some a.verify.record) := by
    rw [hview]
    rfl
  have hids : (view s').campaignCount = (view s).campaignCount := by
    rw [hview]
    rfl
  have hverified : Campaign.isVerified a.verify.record = true := rfl
  have hcensus : _ + (Campaign.isVerified a.record).toNat =
      _ + (Campaign.isVerified a.verify.record).toNat :=
    View.census_write (h.registered.mem_ids ha) ha hids hcampaign
  rw [hverifiable.unverified, hverified, Bool.toNat_false, Bool.toNat_true, Nat.add_zero] at hcensus
  refine ⟨hview ▸ h.registered.setAccount ha, hids ▸ h.few, ?_⟩
  rw [hboard, hcensus]
  exact congrArg (· + 1) h.counted

/-! ## Quorum and threshold -/

section Votes

variable {approvals rejections total quorum threshold : Nat}

/-- The state with other tallies of one campaign. -/
def State.withVotes (s : State) (c approvals rejections : Nat) : State :=
  { s with
    voting.approveVotes := update s.voting.approveVotes c approvals
    voting.rejectVotes := update s.voting.rejectVotes c rejections }

theorem State.withVotes_same :
    s.withVotes c (s.voting.approveVotes c) (s.voting.rejectVotes c) = s := by
  rw [State.withVotes, update_eq_self, update_eq_self]

/-- The quotient is at most all basis points, so that nothing is cut off. -/
theorem approvalBps_eq (hle : approvals ≤ total) :
    approvalBps approvals total = approvals * bpsDenominator / total := by
  have hsmall : approvals * bpsDenominator / total ≤ bpsDenominator :=
    Nat.div_le_of_le_mul (Nat.mul_le_mul_right _ hle)
  have hbps : bpsDenominator < 2 ^ 32 := by decide
  unfold approvalBps
  split
  next hzero => rw [hzero, Nat.div_zero, Nat.zero_mod]
  next => exact Nat.mod_eq_of_lt (Nat.lt_of_le_of_lt hsmall hbps)

/-- Rounding down before the comparison changes nothing. -/
theorem threshold_le_approvalBps (hpos : 0 < total) (hle : approvals ≤ total) :
    threshold ≤ approvalBps approvals total ↔
      threshold * total ≤ bpsDenominator * approvals := by
  rw [approvalBps_eq hle, Nat.le_div_iff_mul_le hpos, Nat.mul_comm approvals]

/-- Enough votes, and enough of them approve, as exact numbers. -/
structure Approved (quorum threshold approvals rejections : Nat) : Prop where
  quorum : quorum ≤ approvals + rejections
  threshold : threshold * (approvals + rejections) ≤ bpsDenominator * approvals

theorem Ranged.effectiveThreshold_le (h : Ranged s) (category : Category) :
    effectiveApprovalThresholdBps s category ≤ bpsDenominator := by
  unfold effectiveApprovalThresholdBps
  cases hcategory : s.voting.categoryThresholdBps category with
  | none => exact h.threshold.2
  | some bps => exact (h.categoryThreshold category bps hcategory).2

/-- Further approvals never withhold a verification. -/
theorem Approved.more (h : Approved quorum threshold approvals rejections)
    (hthreshold : threshold ≤ bpsDenominator) (more : Nat) :
    Approved quorum threshold (approvals + more) rejections := by
  have hquorum := h.quorum
  have hadded := Nat.mul_le_mul_right more hthreshold
  refine ⟨by omega, ?_⟩
  rw [Nat.add_right_comm, Nat.mul_add threshold, Nat.mul_add bpsDenominator]
  exact Nat.add_le_add h.threshold hadded

theorem requireActiveCampaign_eq_ok {u : Unit} : requireActiveCampaign record = .ok u ↔
    record.isActive = true ∧ record.isCancelled = false := by
  simp [requireActiveCampaign, and_comm]

theorem transition_verified_of (hcancelled : record.isCancelled = false)
    (hunpaid : record.fundsWithdrawn = false) (hunverified : record.isVerified = false) :
    transition (.of record) .verified = .ok () := by
  rw [CampaignState.of, hcancelled, hunpaid, hunverified]
  rfl

theorem incrementVerifiedCampaignCount_of (hroom : s.campaigns.verifiedCampaignCount + 1 < 2 ^ 32) :
    ∃ s', incrementVerifiedCampaignCount s = .ok s' := by
  simp only [incrementVerifiedCampaignCount, bind_eq_ok, okOr_eq_ok, pure_eq_ok,
    Word.checkedAdd_eq_some]
  exact ⟨_, _, ⟨rfl, hroom⟩, rfl⟩

/-- The votes on a campaign suffice under the rules in force. -/
def State.Approves (s : State) (category : Category) (approvals rejections : Nat) : Prop :=
  Approved (getMinVotesQuorum s) (effectiveApprovalThresholdBps s category) approvals rejections

/-- With tallies that can be added up the voters verify exactly what they have approved. -/
theorem verifyWithVotes_exists_iff (counted : VerifiedCounted s) (hquorum : 1 ≤ getMinVotesQuorum s)
    (live : ∀ record, s.campaigns.campaign c = some record → record.isActive = true →
      record.isCancelled = false ∧ record.fundsWithdrawn = false)
    (hsum : s.voting.approveVotes c + s.voting.rejectVotes c < 2 ^ 32) :
    (∃ s', verifyWithVotes s c = .ok s') ↔ ∃ record, s.campaigns.campaign c = some record ∧
      record.isActive = true ∧ record.isVerified = false ∧
      s.Approves record.category (s.voting.approveVotes c) (s.voting.rejectVotes c) := by
  have hpos : getMinVotesQuorum s ≤ s.voting.approveVotes c + s.voting.rejectVotes c →
      0 < s.voting.approveVotes c + s.voting.rejectVotes c :=
    Nat.lt_of_lt_of_le hquorum
  simp only [verifyWithVotes, getCampaignOrError, bind_eq_ok, okOr_eq_ok, rejectIf_eq_ok,
    Word.checkedAdd_eq_some, Nat.not_lt, requireActiveCampaign_eq_ok]
  constructor
  · rintro ⟨s', record, hrecord, _, -, _, hunverified, _, ⟨hactive, -⟩, _, ⟨rfl, -⟩, _, hquorum, _,
      hthreshold, -⟩
    have hexact := (threshold_le_approvalBps (hpos hquorum) (Nat.le_add_right ..)).mp hthreshold
    exact ⟨record, hrecord, hactive, Bool.eq_false_of_not_eq_true hunverified, hquorum, hexact⟩
  · rintro ⟨record, hrecord, hactive, hunverified, hquorum, hthreshold⟩
    obtain ⟨hcancelled, hunpaid⟩ := live record hrecord hactive
    obtain ⟨s', hmarked⟩ : ∃ s', markCampaignVerified s c record = .ok s' :=
      incrementVerifiedCampaignCount_of (counted.room hrecord hunverified)
    have hfloored := (threshold_le_approvalBps (hpos hquorum) (Nat.le_add_right ..)).mpr hthreshold
    exact ⟨s', record, hrecord, (), by simp [hcancelled], (), by simp [hunverified], (),
      ⟨hactive, hcancelled⟩, _, ⟨rfl, hsum⟩, (), hquorum, (), hfloored, (),
      transition_verified_of hcancelled hunpaid hunverified, hmarked⟩

/-- In every state of a run, with any tallies that can be added up, the voters verify a
campaign exactly when it is active, not verified and approved, and further approvals
keep it so. -/
theorem communityVerification_exact (run : Run (machine host) tr cfg) (c : Nat) :
    cfg.state.withVotes c (cfg.state.voting.approveVotes c) (cfg.state.voting.rejectVotes c) =
      cfg.state ∧
    ∀ approvals rejections, approvals + rejections < 2 ^ 32 →
      approvals * bpsDenominator < 2 ^ 64 ∧
      approvalBps approvals (approvals + rejections) =
        approvals * bpsDenominator / (approvals + rejections) ∧
      ((∃ s', verifyWithVotes (cfg.state.withVotes c approvals rejections) c = .ok s') ↔
        ∃ record, cfg.state.campaigns.campaign c = some record ∧ record.isActive = true ∧
          record.isVerified = false ∧
          cfg.state.Approves record.category approvals rejections) ∧
      ∀ more, approvals + more + rejections < 2 ^ 32 →
        (∃ s', verifyWithVotes (cfg.state.withVotes c approvals rejections) c = .ok s') →
        ∃ s', verifyWithVotes (cfg.state.withVotes c (approvals + more) rejections) c =
          .ok s' := by
  have ranged := run_ranged run
  have hexact : ∀ approvals rejections, approvals + rejections < 2 ^ 32 →
      ((∃ s', verifyWithVotes (cfg.state.withVotes c approvals rejections) c = .ok s') ↔
        ∃ record, cfg.state.campaigns.campaign c = some record ∧ record.isActive = true ∧
          record.isVerified = false ∧
          cfg.state.Approves record.category approvals rejections) := by
    intro approvals rejections hsum
    have counted := run_verifiedCounted run
    generalize hs : cfg.state.withVotes c approvals rejections = s
    have happrove : s.voting.approveVotes c = approvals := hs ▸ update_self ..
    have hreject : s.voting.rejectVotes c = rejections := hs ▸ update_self ..
    have hiff : (∃ s', verifyWithVotes s c = .ok s') ↔ _ := verifyWithVotes_exists_iff
      (hs ▸ ⟨counted.registered, counted.few, counted.counted⟩) (hs ▸ ranged.quorum.1)
      (hs ▸ fun record hrecord => (run_live run hrecord).mp) (by rwa [happrove, hreject])
    rw [happrove, hreject] at hiff
    rw [hiff, ← hs]
    rfl
  refine ⟨State.withVotes_same, fun approvals rejections hsum => ⟨?_, approvalBps_eq
    (Nat.le_add_right ..), hexact _ _ hsum, fun more hmore h => ?_⟩⟩
  · have hbps : bpsDenominator = 10000 := rfl
    rw [hbps]
    omega
  · obtain ⟨record, hrecord, hactive, hunverified, happroved⟩ := (hexact _ _ hsum).mp h
    exact (hexact _ _ hmore).mpr ⟨record, hrecord, hactive, hunverified,
      happroved.more (ranged.effectiveThreshold_le _) more⟩

/-- Two of three votes approve, and five more votes do no harm. -/
theorem communityVerification_sample : ∃ tr cfg, Run (machine Sample.host) tr cfg ∧
    cfg.state.voting.approveVotes 1 = 2 ∧ cfg.state.voting.rejectVotes 1 = 1 ∧
    (∃ s', verifyWithVotes cfg.state 1 = .ok s') ∧
    ∃ s', verifyWithVotes (cfg.state.withVotes 1 7 1) 1 = .ok s' := by
  have h : Sample.Ends 300 (Sample.reverified.take 4) fun _ cfg =>
      cfg.state.voting.approveVotes 1 = 2 ∧ cfg.state.voting.rejectVotes 1 = 1 ∧
        (verifyWithVotes cfg.state 1).toOption.isSome := by decide +kernel
  obtain ⟨tr, cfg, run, happrove, hreject, hsome⟩ := h.run
  have hverifies : ∃ s', verifyWithVotes cfg.state 1 = .ok s' := by
    cases hresult : verifyWithVotes cfg.state 1 with
    | ok s' => exact ⟨s', rfl⟩
    | error abort =>
        rw [hresult] at hsome
        cases hsome
  obtain ⟨hsame, hexact⟩ := communityVerification_exact run 1
  rw [happrove, hreject] at hsame
  obtain ⟨-, -, -, hmore⟩ := hexact 2 1 (by decide)
  exact ⟨tr, cfg, run, happrove, hreject, hverifies, hmore 5 (by decide) (hsame.symm ▸ hverifies)⟩

end Votes

/-! ## The batch of the admin -/

section Batch

variable {ids verified failed : List Nat} {t : State}

/-- Single verifications one after another, with those that succeed and those that fail;
a call that fails leaves the state as it was. -/
inductive VerifiesSingly (env : Env) : State → List Nat → State → List Nat → List Nat → Prop
  | nil {s : State} : VerifiesSingly env s [] s [] []
  | succeeds {s t u : State} {c : Nat} {ids verified failed : List Nat}
      (h : verifyCampaign env s c = .ok t) (next : VerifiesSingly env t ids u verified failed) :
      VerifiesSingly env s (c :: ids) u (c :: verified) failed
  | fails {s u : State} {c : Nat} {ids verified failed : List Nat} {abort : Abort}
      (h : verifyCampaign env s c = .error abort)
      (next : VerifiesSingly env s ids u verified failed) :
      VerifiesSingly env s (c :: ids) u verified (c :: failed)

theorem VerifiesSingly.verified_sublist (h : VerifiesSingly env s ids t verified failed) :
    verified.Sublist ids := by
  induction h with
  | nil => exact .slnil
  | succeeds _ _ ih => exact ih.cons_cons _
  | fails _ _ ih => exact ih.cons _

theorem VerifiesSingly.failed_sublist (h : VerifiesSingly env s ids t verified failed) :
    failed.Sublist ids := by
  induction h with
  | nil => exact .slnil
  | succeeds _ _ ih => exact ih.cons _
  | fails _ _ ih => exact ih.cons_cons _

theorem VerifiesSingly.perm (h : VerifiesSingly env s ids t verified failed) :
    (verified ++ failed).Perm ids := by
  induction h with
  | nil => exact .nil
  | succeeds _ _ ih => exact ih.cons _
  | fails _ _ ih => exact List.perm_middle.trans (ih.cons _)

theorem attempt_trap {α : Type} {step : Outcome α} {next : α → Caught} {trap : Trap} :
    attempt s step next = .error trap ↔
      step = .error (.trap trap) ∨ ∃ a, step = .ok a ∧ next a = .error trap := by
  unfold attempt
  cases step with
  | ok a => simp
  | error abort => cases abort <;> simp

/-- A verification by the admin succeeds or writes nothing; it never traps. -/
theorem VerifiedCounted.adminVerify_caught (h : VerifiedCounted s) (c : Nat) :
    (∃ s', adminVerify s c = .ok (s', .ok ())) ∨ ∃ e, adminVerify s c = .ok (s, .error e) := by
  cases hverify : adminVerify s c with
  | ok result =>
      obtain ⟨s', outcome⟩ := result
      cases outcome with
      | ok u => exact .inl ⟨s', rfl⟩
      | error e => exact .inr ⟨e, by rw [adminVerify_err hverify]⟩
  | error trap =>
      simp only [adminVerify, attempt_trap, getCampaignOrError, requireActiveCampaign, transition,
        okOr_eq_ok, okOr_eq_error, rejectIf_eq_ok, rejectIf_eq_error, reduceCtorEq, and_false,
        exists_false, false_or, or_false] at hverify
      obtain ⟨record, hrecord, _, -, _, hunverified, _, -, _, -, hincrement⟩ := hverify
      obtain ⟨s', hs'⟩ := incrementVerifiedCampaignCount_of
        (s := setCampaign s c { record with isVerified := true })
        (h.room hrecord (Bool.eq_false_of_not_eq_true hunverified))
      cases hincrement.symm.trans hs'

theorem verifyCampaign_of_admin (hadmin : (view s).ByAdmin env admin)
    (hopen : s.admin.paused = false ∧ s.admin.autoPaused = false) :
    verifyCampaign env s c = (adminVerify s c).commit := by
  have hadmin' : s.admin.admin = some admin := hadmin.1
  simp [verifyCampaign, getAdmin, assertAdmin, requireAuth, requireNotPaused, hadmin', hadmin.2,
    hopen.1, hopen.2, okOr, rejectIf, bind, Except.bind]

/-- The loop of the batch goes through and does what the single calls do. -/
theorem verifyAll_singly (ids : List Nat) : ∀ {s : State} (done refused : List Nat),
    VerifiedCounted s → (view s).ByAdmin env admin →
    (s.admin.paused = false ∧ s.admin.autoPaused = false) →
    ∃ t verified failed, VerifiesSingly env s ids t verified failed ∧
      each verifyOne ⟨s, done, refused⟩ ids = .ok ⟨t, done ++ verified, refused ++ failed⟩ := by
  induction ids with
  | nil =>
      intro s done refused counted hadmin hopen
      exact ⟨s, [], [], .nil, by simp⟩
  | cons c rest ih =>
      intro s done refused counted hadmin hopen
      have hsingle := verifyCampaign_of_admin (c := c) hadmin hopen
      rcases counted.adminVerify_caught c with ⟨s', hverify⟩ | ⟨e, hfails⟩
      · obtain ⟨a, -, -, hview⟩ := adminVerify_ok hverify
        have hstore : s'.admin = s.admin := congrArg View.admin hview
        obtain ⟨t, verified, failed, hrest, hloop⟩ := ih (done ++ [c]) refused
          (counted.verify hverify) (hview ▸ hadmin) (hstore ▸ hopen)
        have hcommits : verifyCampaign env s c = .ok s' := by
          rw [hsingle, hverify]
          rfl
        refine ⟨t, c :: verified, failed, .succeeds hcommits hrest, ?_⟩
        refine each_cons_eq_ok.mpr ⟨_, by rw [verifyOne, hverify], ?_⟩
        rw [hloop, List.append_assoc]
        rfl
      · obtain ⟨t, verified, failed, hrest, hloop⟩ := ih done (refused ++ [c]) counted hadmin hopen
        have hreverts : verifyCampaign env s c = .error (.err e) := by
          rw [hsingle, hfails]
          rfl
        refine ⟨t, verified, c :: failed, .fails hreverts hrest, ?_⟩
        refine each_cons_eq_ok.mpr ⟨_, by rw [verifyOne, hfails], ?_⟩
        rw [hloop, List.append_assoc]
        rfl

/-- In every state of a run that is not paused, a batch signed by the admin returns, and it
leaves what the single verifications of its first fifty entries leave, one after another;
the entries that succeed and those that fail keep their order. -/
theorem batchVerification_eq_singles (run : Run (machine host) tr cfg)
    (hadmin : (view cfg.state).ByAdmin env admin)
    (hopen : cfg.state.admin.paused = false ∧ cfg.state.admin.autoPaused = false)
    (ids : List Nat) :
    (∃ t verified failed,
      verifyCampaigns env cfg.state ids = .ok ⟨t, verified, failed⟩ ∧
      VerifiesSingly env cfg.state (ids.take 50) t verified failed ∧
      verified.Sublist (ids.take 50) ∧ failed.Sublist (ids.take 50) ∧
      (verified ++ failed).Perm (ids.take 50)) ∧
    ∀ s c s' e, adminVerify s c = .ok (s', .error e) → s' = s := by
  refine ⟨?_, fun s c s' e => adminVerify_err⟩
  obtain ⟨t, verified, failed, hsingly, hloop⟩ :=
    verifyAll_singly (ids.take maxVerifyBatchSize) [] [] (run_verifiedCounted run) hadmin hopen
  refine ⟨t, verified, failed, ?_, hsingly, hsingly.verified_sublist, hsingly.failed_sublist,
    hsingly.perm⟩
  have hadmin' : cfg.state.admin.admin = some admin := hadmin.1
  simp only [verifyCampaigns, getAdmin, assertAdmin, requireAuth, requireNotPaused, bind_eq_ok,
    okOr_eq_ok, rejectIf_eq_ok]
  exact ⟨admin, hadmin', (), ⟨admin, hadmin', (), by simp, by simp [hadmin.2]⟩, (),
    by simp [hopen.1, hopen.2], hloop⟩

/-- A batch with an unknown and a repeated number. -/
theorem batchVerification_sample : ∃ tr cfg t, Run (machine Sample.host) tr cfg ∧
    verifyCampaigns (Sample.env 1 Sample.admin) cfg.state [1, 99, 1, 2] =
      .ok ⟨t, [1, 2], [99, 1]⟩ ∧
    VerifiesSingly (Sample.env 1 Sample.admin) cfg.state [1, 99, 1, 2] t [1, 2] [99, 1] := by
  have h : Sample.Ends 300 Sample.handedOn fun _ cfg =>
      cfg.state.admin.admin = some Sample.admin ∧
        (cfg.state.admin.paused = false ∧ cfg.state.admin.autoPaused = false) ∧
        (verifyCampaigns (Sample.env 1 Sample.admin) cfg.state [1, 99, 1, 2]).toOption.map
          (fun progress => (progress.verifiedIds, progress.failedIds)) =
            some ([1, 2], [99, 1]) := by decide +kernel
  obtain ⟨tr, cfg, run, hadmin, hopen, hlists⟩ := h.run
  have byAdmin : (view cfg.state).ByAdmin (Sample.env 1 Sample.admin) Sample.admin :=
    ⟨hadmin, by decide⟩
  obtain ⟨⟨t, verified, failed, hbatch, hsingly, -⟩, -⟩ :=
    batchVerification_eq_singles run byAdmin hopen [1, 99, 1, 2]
  rw [hbatch] at hlists
  obtain ⟨rfl, rfl⟩ := Prod.mk.inj (Option.some.inj hlists)
  exact ⟨tr, cfg, t, run, hbatch, hsingly⟩

end Batch

end ProofOfHeart
