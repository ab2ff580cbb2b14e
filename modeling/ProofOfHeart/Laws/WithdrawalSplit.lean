import ProofOfHeart.Laws.Arithmetic

/-! # How a payout in one go is split

The payout takes all that was raised: no refund can have come before it. Fee and
reserve are the exact shares rounded up, on the fee of the day and on the vesting
terms of the day of creation, and the reserve can be collected from its date on.
-/

namespace ProofOfHeart

open Checked Function Trace

variable {host : Host} {tr : List Receipt} {cfg : Config} {c : Nat} {a a' : Account}
  {env : Env} {s t : State} {v : View} {act : Act} {moves : List Transfer} {delta : Int}
  {w k : Receipt} {campaign : Campaign} {part : Split}

/-! ## The parts -/

/-- An amount in exact shares, each rounded up, and what they leave. -/
structure Split.Divides (part : Split) (amount : Int) (feeBps reserveBps : Nat) : Prop where
  fee : part.fee = ⌈((amount * feeBps : Int) : ℚ) / 10000⌉
  reserve : part.reserve = ⌈(((amount - part.fee) * reserveBps : Int) : ℚ) / 10000⌉
  creator : part.creator = amount - part.fee - part.reserve
  nonneg : 0 ≤ part.fee ∧ 0 ≤ part.reserve ∧ 0 ≤ part.creator
  sum : part.fee + part.reserve + part.creator = amount

theorem ceilBps_eq_ceil {amount : Int} {bps : Nat} (hamount : 0 ≤ amount) :
    ceilBps amount bps = ⌈((amount * bps : Int) : ℚ) / 10000⌉ := by
  rw [ceilBps_eq]
  exact_mod_cast Shares.ceil_eq_ceil (d := 10000) (by decide) hamount (Int.natCast_nonneg bps)

theorem splitFunds_divides {amount : Int} {feeBps reserveBps : Nat} (hamount : 0 ≤ amount)
    (hfee : feeBps ≤ platformFeeMaxBps) (hreserve : reserveBps ≤ bpsDenominator) :
    (splitFunds amount feeBps reserveBps).Divides amount feeBps reserveBps := by
  obtain ⟨hfeeNonneg, hnet⟩ := ceilBps_bounds hamount hfee
  obtain ⟨hreserveNonneg, hrest⟩ := ceilBps_within hnet hreserve
  exact ⟨ceilBps_eq_ceil hamount, ceilBps_eq_ceil hnet, rfl,
    ⟨hfeeNonneg, hreserveNonneg, hrest⟩, splitFunds_sum ..⟩

/-! ## One payout -/

/-- The reserve that the payout `w` withholds on the terms of the creation `k`. -/
def withheld (w k : Receipt) (amount : Int) : Option CampaignReserve :=
  if 0 < amount then
    some { amount := amount, releaseTimestamp := releaseDate w k, released := false }
  else none

/-- The payout `w` of campaign `c`, which the call `k` created. -/
structure Receipt.PaysOut (c : Nat) (w k : Receipt) (campaign : Campaign) (part : Split) :
    Prop where
  created : k.creates c
  record : w.pre.campaigns.campaign c = some campaign
  whole : campaign.effectiveAmountRaised = campaign.amountRaised
  divides : part.Divides campaign.amountRaised
    (campaign.feeOverride.getD (getPlatformFee w.pre)) k.pre.admin.withdrawReservePercentage
  paid : ∃ token recipient, getCampaignToken w.pre c = .ok token ∧
    feeRecipientOf w.pre c = .ok recipient ∧ w.post.tokens.moved =
      [⟨token, contractAddress, recipient, part.fee⟩,
        ⟨token, contractAddress, campaign.creator, part.creator⟩]
  reserve : w.post.campaigns.campaignReserve c = withheld w k part.reserve

theorem Receipt.Valid.paysOut (h : w.Valid host) (run : Run (machine host) tr cfg)
    (hpre : w.pre = cfg.state) (hcall : w.call = .withdrawFunds c) :
    ∃ k ∈ tr, ∃ campaign part, w.PaysOut c k campaign part := by
  have sane := run_sane run
  rw [← hpre] at sane
  have hstepped := h.stepped sane
  have hact : w.call.act c = .withdraw := by rw [hcall, Call.act, if_pos rfl]
  cases ha : (view w.pre).account c with
  | none =>
      have hother := (hstepped.free c ha).1
      rw [hact] at hother
      cases hother
  | some a =>
      obtain ⟨delta, -, hexisting⟩ := hstepped.existing
      obtain ⟨a', ha', hstep⟩ := hexisting c a ha
      have hrun : (view cfg.state).account c = some a := hpre ▸ ha
      obtain ⟨books, hwhole⟩ := run_books run hrun
      obtain ⟨⟨k, hk, hcreates, hterms⟩, -⟩ := run_dated run hrun
      have payout := run_payout run hrun
      rw [← hpre] at payout
      have hvesting : (view w.pre).vesting a =
          (k.pre.admin.withdrawReleaseDelayDays, k.pre.admin.withdrawReservePercentage) := by
        rw [View.vesting, hterms, Option.getD_some]
      obtain ⟨hrecord, hfunds⟩ := View.account_eq_some.mp ha
      have hafter := (View.account_eq_some.mp ha').2
      generalize hmoved : (view w.post).tokens.moved = moved at hstep
      generalize delta c = change at hstep
      rw [hact] at hstep
      cases hstep with
      | withdrew payable noPlan currency hrecipient feePos creatorPos =>
          have hraised := books.effective_eq (hwhole.resolve_right payable.not_refundable)
          have hdivides := splitFunds_divides payout.raised.1 payout.feeBps payout.reserveBps
          rw [hvesting, hraised] at hdivides
          refine ⟨k, hk, a.record, (view w.pre).split a, hcreates, hrecord, hraised, ?_,
            ⟨_, _, (getCampaignToken_eq_ok _).mpr currency, ?_, hmoved⟩, ?_⟩
          · rw [View.split, hvesting, hraised]
            exact hdivides
          · rw [feeRecipientOf_eq_ok, hfunds]
            exact hrecipient
          · rw [reserve_view, hafter, hvesting]
            have hnone := (run_reserves run hrun).afterPayout payable.notWithdrawn
            simp only [Account.withhold, Account.close, withheld, releaseDate, hnone, gt_iff_lt]

/-! ## What becomes of the reserve -/

/-- The reserve of `c` in `t` is that in `s`, though it may have been released. -/
structure Retained (c : Nat) (s t : State) : Prop where
  withdrawn : ∃ campaign, t.campaigns.campaign c = some campaign ∧
    campaign.fundsWithdrawn = true
  reserve : ∃ released, t.campaigns.campaignReserve c =
    (s.campaigns.campaignReserve c).map fun reserve => { reserve with released := released }

theorem Retained.start (hcampaign : s.campaigns.campaign c = some campaign)
    (hwithdrawn : campaign.fundsWithdrawn = true) : Retained c s s := by
  refine ⟨⟨campaign, hcampaign, hwithdrawn⟩, ?_⟩
  cases s.campaigns.campaignReserve c with
  | none => exact ⟨false, rfl⟩
  | some reserve => exact ⟨reserve.released, rfl⟩

/-- After the payout the reserve can only be released. -/
theorem AccountStep.retained (h : AccountStep env v c act moves delta a a')
    (withdrawn : a.record.fundsWithdrawn = true) : a'.record.fundsWithdrawn = true ∧
      (a'.funds.reserve = a.funds.reserve ∨ ∃ reserve, a.funds.reserve = some reserve ∧
        a'.funds.reserve = some { reserve with released := true }) := by
  cases h with
  | contributed =>
      obtain ⟨_, _, _, _, heq⟩ := a.contributeAll_eq v.admin.admin _ _
      rw [heq]
      exact ⟨withdrawn, .inl rfl⟩
  | withdrew payable => exact Bool.noConfusion (withdrawn.symm.trans payable.notWithdrawn)
  | claimed payable => exact Bool.noConfusion (withdrawn.symm.trans payable.notWithdrawn)
  | released hreserve => exact ⟨withdrawn, .inr ⟨_, hreserve, rfl⟩⟩
  | _ => exact ⟨withdrawn, .inl rfl⟩

theorem Retained.step {r : Receipt} (h : Retained c s r.pre) (hvalid : r.Valid host)
    (sane : (view r.pre).Sane) : Retained c s r.post := by
  obtain ⟨⟨campaign, hcampaign, hwithdrawn⟩, released, hreserve⟩ := h
  have ha := View.account_of_campaign (v := view r.pre) hcampaign
  obtain ⟨delta, -, hexisting⟩ := (hvalid.stepped sane).existing
  obtain ⟨a', ha', hstep⟩ := hexisting c _ ha
  obtain ⟨hrecord, hfunds⟩ := View.account_eq_some.mp ha'
  obtain ⟨hstill, hsame | ⟨reserve, hold, hnew⟩⟩ := hstep.retained hwithdrawn
  · refine ⟨⟨_, hrecord, hstill⟩, released, ?_⟩
    rw [reserve_view, hfunds, hsame]
    exact hreserve
  · refine ⟨⟨_, hrecord, hstill⟩, true, ?_⟩
    rw [reserve_view, hfunds, hnew]
    have hmap := hreserve.symm.trans hold
    obtain ⟨first, hfirst, rfl⟩ := Option.map_eq_some_iff.mp hmap
    rw [hfirst]
    rfl

/-- The funds of a campaign that was paid out stay withdrawn, its reserve stays dated. -/
theorem run_retained (run : Run (machine host) tr cfg) :
    ∀ w ∈ tr, w.call = .withdrawFunds c → Retained c w.post cfg.state := by
  refine run.invariant (I := fun tr cfg =>
    ∀ w ∈ tr, w.call = .withdrawFunds c → Retained c w.post cfg.state) ?_ ?_ ?_
  · rintro r cfg ⟨-, -, ⟨admin, token, platformFee, hinit⟩, -⟩ w hw hcall
    rw [List.mem_singleton.mp hw, hinit] at hcall
    cases hcall
  · rintro tr cfg r cfg' run ih ⟨hvalid, -, hpre, rfl⟩ w hw hcall
    have sane := run_sane run
    rw [← hpre] at sane ih
    rcases List.mem_cons.mp hw with rfl | hw
    · have hpaid := hvalid.dispatched
      rw [hcall] at hpaid
      obtain ⟨a, _, _, -, -, -, -, -, -, -, hview⟩ := withdrawFunds_spec hpaid
      have hcampaign := congrArg (fun v : View => v.campaign c) hview
      exact .start (hcampaign.trans (update_self ..)) rfl
    · exact (ih w hw hcall).step hvalid sane
  · rintro tr cfg cfg' ih ⟨tokens, -, rfl⟩ w hw hcall
    exact ⟨(ih w hw hcall).withdrawn, (ih w hw hcall).reserve⟩

/-- What a release depends on beside its date. -/
structure ReleaseReady (env : Env) (s : State) (c : Nat) (amount : Int) : Prop where
  unpaused : s.admin.paused = false ∧ s.admin.autoPaused = false
  signed : ∃ campaign, s.campaigns.campaign c = some campaign ∧
    env.auth campaign.creator = true
  counted : I128.InRange (s.contributions.totalRaised - amount)
  covered : ∃ token, getCampaignToken s c = .ok token ∧
    amount ≤ s.tokens.balance token contractAddress

theorem withdrawReserve_iff {reserve : CampaignReserve}
    (hcampaign : s.campaigns.campaign c = some campaign)
    (hwithdrawn : campaign.fundsWithdrawn = true)
    (hreserve : s.campaigns.campaignReserve c = some reserve) (hamount : 0 ≤ reserve.amount) :
    (∃ s', withdrawReserve env s c = .ok s') ↔ reserve.released = false ∧
      reserve.releaseTimestamp ≤ env.timestamp ∧ ReleaseReady env s c reserve.amount := by
  simp only [withdrawReserve, getCampaignOrError, assertCreator, hcampaign, hreserve,
    bind_eq_ok, rejectIf_eq_ok, okOr_eq_ok, requireNotPaused_eq_ok, requireAuth_eq_ok,
    I128.checkedSub_eq_some, transfer_eq_ok, Option.some.injEq, exists_eq_left', hwithdrawn]
  constructor
  · rintro ⟨s', _, unpaused, _, unreleased, _, due, _, -, _, signed, _, ⟨rfl, counted⟩, token,
      htoken, -, covered, -⟩
    exact ⟨by simpa using unreleased, Nat.not_lt.mp due, unpaused, ⟨campaign, hcampaign, signed⟩,
      counted, token, htoken, covered⟩
  · rintro ⟨unreleased, due, unpaused, ⟨_, hsame, signed⟩, counted, token, htoken, covered⟩
    obtain rfl := Option.some.inj (hcampaign.symm.trans hsame)
    exact ⟨_, (), unpaused, (), by simp [unreleased], (), Nat.not_lt.mpr due, (), by simp, (),
      signed, _, ⟨rfl, counted⟩, token, htoken, hamount, covered, rfl⟩

/-- A reserve is stored iff it holds something; it can be collected once, from the date on. -/
structure Collectable (c date : Nat) (amount : Int) (s : State) : Prop where
  stored : (s.campaigns.campaignReserve c).isSome ↔ 0 < amount
  collected : ∀ reserve, s.campaigns.campaignReserve c = some reserve →
    reserve.amount = amount ∧ reserve.releaseTimestamp = date ∧
    ∀ env, (∃ s', invoke env s (.withdrawReserve c) = .ok s') ↔
      reserve.released = false ∧ date ≤ env.timestamp ∧ ReleaseReady env s c amount

theorem withheld_eq_some {amount : Int} {reserve : CampaignReserve} :
    withheld w k amount = some reserve ↔
      0 < amount ∧ reserve = ⟨amount, releaseDate w k, false⟩ := by
  unfold withheld
  split
  next hpos => simp [hpos, eq_comm]
  next hzero => simp [hzero]

theorem Retained.collectable (h : Retained c w.post s) (paysOut : w.PaysOut c k campaign part)
    (hc : isU32 c) : Collectable c (releaseDate w k) part.reserve s := by
  have typed : (Call.withdrawReserve c).WellTyped := hc
  obtain ⟨⟨record, hrecord, hwithdrawn⟩, released, hreserve⟩ := h
  rw [paysOut.reserve] at hreserve
  refine ⟨?_, fun reserve hsome => ?_⟩
  · rw [hreserve, Option.isSome_map, Option.isSome_iff_exists]
    simp only [withheld_eq_some]
    exact ⟨fun ⟨_, hpos, _⟩ => hpos, fun hpos => ⟨_, hpos, rfl⟩⟩
  · obtain ⟨first, hfirst, rfl⟩ := Option.map_eq_some_iff.mp (hreserve.symm.trans hsome)
    obtain ⟨hpos, rfl⟩ := withheld_eq_some.mp hfirst
    refine ⟨rfl, rfl, fun env => ?_⟩
    rw [invoke_eq typed]
    refine (withdrawReserve_iff (s := s.clearMoved) hrecord hwithdrawn hsome
      (Int.le_of_lt hpos)).trans (and_congr_right fun _ => and_congr_right fun _ => ?_)
    exact ⟨fun h => ⟨h.unpaused, h.signed, h.counted, h.covered⟩,
      fun h => ⟨h.unpaused, h.signed, h.counted, h.covered⟩⟩

/-- Every payout in one go takes all that was raised, splits it on the fee of the day and
the vesting terms of the creation, and leaves a reserve that can be collected exactly from
its date on. -/
theorem withdrawal_split (run : Run (machine host) tr cfg) (hw : w ∈ tr)
    (hcall : w.call = .withdrawFunds c) :
    ∃ k ∈ tr, ∃ campaign part, w.PaysOut c k campaign part ∧
      Collectable c (releaseDate w k) part.reserve cfg.state := by
  have retained := run_retained run w hw hcall
  obtain ⟨later, earlier, rfl⟩ := List.append_of_mem hw
  obtain ⟨_, hearlier⟩ := run.earlier later w earlier rfl
  obtain ⟨-, t, -, -, ⟨admin, token, platformFee, hinit⟩, -⟩ | ⟨t, t', before, step⟩ :=
    hearlier.last
  · rw [hinit] at hcall
    cases hcall
  · obtain ⟨hvalid, -, hpre, -⟩ := step
    obtain ⟨k, hk, campaign, part, paysOut⟩ := hvalid.paysOut before hpre hcall
    have hc : isU32 c := run_isU32 before (hpre ▸ paysOut.record)
    refine ⟨k, ?_, campaign, part, paysOut, retained.collectable paysOut hc⟩
    exact List.mem_append_right _ (List.mem_cons_of_mem _ hk)

/-- A tenth is withheld although the reserve was abolished before the payout. -/
def Sample.abolished : List Request :=
  ask 0 admin (.setVestingParams admin 30 1000) :: opened 0 ++
    [ask 1 alice (.contribute 1 alice 100000), ask 1 admin (.setVestingParams admin 0 0),
      ask 2 creator (.withdrawFunds 1)]

theorem withdrawal_sample :
    ∃ tr cfg, Run (machine Sample.host) tr cfg ∧ ∃ w ∈ tr, ∃ k ∈ tr, ∃ campaign part,
      w.PaysOut 1 k campaign part ∧ 0 < part.reserve ∧
        Collectable 1 (releaseDate w k) part.reserve cfg.state := by
  have h : Sample.Ends 300 Sample.abolished fun tr cfg =>
      (∃ w ∈ tr, w.call = .withdrawFunds 1) ∧
        (cfg.state.campaigns.campaignReserve 1).isSome = true := by
    decide +kernel
  obtain ⟨tr, cfg, run, ⟨w, hw, hcall⟩, hstored⟩ := h.run
  obtain ⟨k, hk, campaign, part, paysOut, collectable⟩ := withdrawal_split run hw hcall
  exact ⟨tr, cfg, run, w, hw, k, hk, campaign, part, paysOut, collectable.stored.mp hstored,
    collectable⟩

end ProofOfHeart
