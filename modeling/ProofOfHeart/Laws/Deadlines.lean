import ProofOfHeart.Account.Terms
import ProofOfHeart.Account.Turn
import ProofOfHeart.Laws.Configuration

/-! # The deadline of a campaign

A campaign lasts whole days from its start, a year at most. Its creator may put the
deadline off once, and no other call touches it.
-/

namespace ProofOfHeart

open Checked Function Trace

variable {host : Host} {tr : List Receipt} {cfg : Config} {r : Receipt} {env : Env}
  {s s' : State} {v : View} {c : Nat} {call : Call} {a a' : Account} {old new : Campaign}
  {days : Nat}

/-! ## Who touches a deadline -/

/-- The deadline, and whether it has been put off. -/
def Campaign.horizon (record : Campaign) : Nat × Bool :=
  (record.deadline, record.deadlineExtended)

theorem AccountStep.horizon {act : Act} {moves : List Transfer} {delta : Int}
    (h : AccountStep env v c act moves delta a a') (hact : act ≠ .extend) :
    a'.record.horizon = a.record.horizon := by
  cases h with
  | extended => exact absurd rfl hact
  | contributed =>
      rw [Account.contributeAll_record]
      rfl
  | claimed =>
      rw [Account.claimMilestone_record]
      rfl
  | _ => rfl

theorem Call.extends_of_act (h : call.act c = .extend) :
    ∃ days, call = .extendCampaignDeadline c days := by
  cases call with
  | extendCampaignDeadline id days =>
      dsimp only [Call.act] at h
      split at h
      next hc => exact ⟨days, hc ▸ rfl⟩
      next => cases h
  | contribute | batchContribute | claimRefund | withdrawFunds | withdrawReserve | setMilestones
  | claimMilestone | cancelCampaign | adminCancelCampaign | depositRevenue | claimRevenue
  | claimCreatorRevenue =>
      dsimp only [Call.act] at h
      split at h <;> cases h
  | _ => cases h

/-- Only a call to put off this very deadline touches it. -/
theorem Receipt.Valid.horizon (h : r.Valid host) (sane : (view r.pre).Sane)
    (hcall : ∀ days, r.call ≠ .extendCampaignDeadline c days)
    (hold : r.pre.campaigns.campaign c = some old) :
    ∃ new, r.post.campaigns.campaign c = some new ∧ new.horizon = old.horizon := by
  obtain ⟨delta, -, hexisting⟩ := (h.stepped sane).existing
  obtain ⟨a', ha', hstep⟩ := hexisting c _ (View.account_of_campaign hold)
  refine ⟨a'.record, (View.account_eq_some.mp ha').1, hstep.horizon fun hact => ?_⟩
  obtain ⟨days, hextends⟩ := Call.extends_of_act hact
  exact hcall days hextends

/-! ## Whole days -/

/-- The campaign lasts `k` days from its recorded start. -/
def Lasts (startTime : Option Nat) (record : Campaign) (k : Nat) : Prop :=
  ∃ start, startTime = some start ∧ record.deadline = start + k * secondsPerDay

/-- The longest duration for which the rules in force let a campaign of the category run. -/
def durationMax (s : State) (category : Category) : Nat :=
  (s.campaigns.categoryDurationCap category).getD campaignDurationMaxDays

theorem Ranged.durationMax_le (h : Ranged s) (category : Category) :
    durationMax s category ≤ 365 := by
  unfold durationMax
  cases hcap : s.campaigns.categoryDurationCap category with
  | none => exact Nat.le_refl _
  | some days => exact (h.durationCap category days hcap).2

/-- What a creator has to meet to put off a deadline, and what comes of it. -/
structure Extension (now : Nat) (startTime : Option Nat) (longest days : Nat)
    (old new : Campaign) : Prop where
  atLeast : 1 ≤ days
  atMost : days ≤ 30
  later : new.deadline = old.deadline + days * secondsPerDay
  active : old.isActive = true
  inTime : now < old.deadline
  first : old.deadlineExtended = false
  marked : new.deadlineExtended = true
  span : ∃ k, Lasts startTime new k ∧ k ≤ longest ∧ k ≤ 365

theorem extendCampaignDeadline_extension {k : Nat} (hold : s.campaigns.campaign c = some old)
    (lasts : Lasts (s.campaigns.campaignStartTime c) old k)
    (h : extendCampaignDeadline env s c days = .ok s') :
    ∃ new, s'.campaigns.campaign c = some new ∧ Extension env.timestamp
      (s.campaigns.campaignStartTime c) (durationMax s old.category) days old new := by
  simp only [extendCampaignDeadline, getCreatorCampaign, getCampaignOrError,
    campaignStartTimeOrError, bind_eq_ok, okOr_eq_ok, rejectIf_eq_ok, pure_eq_ok,
    Word.checkedAdd_eq_some, Word.checkedSub_eq_some, not_or, Nat.not_lt, Nat.not_le] at h
  obtain ⟨_, ⟨campaign, hcampaign, _, -, rfl⟩, _, -, _, hlive, _, honce, _, htime, _,
    ⟨hsome, hdays⟩, _, ⟨rfl, -⟩, start, hstart, _, ⟨rfl, -⟩, _, hcap, _, hmax, rfl⟩ := h
  obtain rfl := Option.some.inj (hcampaign.symm.trans hold)
  obtain ⟨start', hstart', hdeadline⟩ := lasts
  obtain rfl := Option.some.inj (hstart.symm.trans hstart')
  have hsum : campaign.deadline + days * secondsPerDay = start + (k + days) * secondsPerDay := by
    rw [hdeadline, Nat.add_mul, Nat.add_assoc]
  have hspan : (campaign.deadline + days * secondsPerDay - start) / secondsPerDay = k + days := by
    rw [hsum, Nat.add_sub_cancel_left, Nat.mul_div_cancel _ (by decide)]
  rw [hspan] at hcap hmax
  have hactive := (requireActiveCampaign_spec (a := ⟨campaign, (view s).funds c⟩) hlive).active
  refine ⟨_, update_self .., Nat.pos_of_ne_zero hsome, hdays, rfl, hactive, htime,
    Bool.eq_false_of_not_eq_true honce, rfl, k + days, ⟨start, hstart, hsum⟩, hcap, hmax⟩

/-- A new campaign lasts as many days as its creator asks for. -/
theorem Receipt.Valid.lasts (h : r.Valid host) (sane : (view r.pre).Sane)
    (hnone : r.pre.campaigns.campaign c = none)
    (hrecord : r.post.campaigns.campaign c = some new) :
    new.deadlineExtended = false ∧
      ∃ k, 1 ≤ k ∧ k ≤ durationMax r.pre new.category ∧
        Lasts (r.post.campaigns.campaignStartTime c) new k := by
  obtain ⟨hc, params, deadline, hcall, rfl⟩ := h.created sane hnone hrecord
  obtain ⟨token, id, hcreate⟩ := h.creates hcall
  obtain ⟨hmin, hmax⟩ := createCampaignEntry_days hcreate
  obtain ⟨_, pinned, hid, -, rfl, -, -, -, hview⟩ := createCampaignEntry_spec hcreate
  have hcid : c = id := hc.trans hid.symm
  subst hcid
  have hcampaign : r.post.campaigns.campaign c = _ :=
    (congrArg (fun v : View => v.campaign c) hview).trans (update_self ..)
  have hstart : r.post.campaigns.campaignStartTime c = some r.env.timestamp := by
    have hfunds : (view r.post).funds c = _ :=
      (congrArg (fun v : View => v.funds c) hview).trans (update_self ..)
    exact congrArg Funds.startTime hfunds
  have hsame := congrArg Campaign.deadline (Option.some.inj (hrecord.symm.trans hcampaign))
  exact ⟨rfl, params.durationDays, hmin, hmax, r.env.timestamp, hstart, hsame⟩

/-- The recorded start of a campaign stays. -/
theorem Receipt.Valid.startTime (h : r.Valid host) (sane : (view r.pre).Sane)
    (hold : r.pre.campaigns.campaign c = some old) :
    r.post.campaigns.campaignStartTime c = r.pre.campaigns.campaignStartTime c := by
  obtain ⟨a', ha', hterms⟩ := h.terms sane (View.account_of_campaign hold)
  have hstart : a'.funds.startTime = r.pre.campaigns.campaignStartTime c :=
    congrArg Terms.startTime hterms
  have hfunds : (view r.post).funds c = a'.funds := (View.account_eq_some.mp ha').2
  exact (congrArg Funds.startTime hfunds).trans hstart

/-! ## Along a run -/

/-- The call gives a campaign another deadline. -/
def Receipt.movesDeadline (c : Nat) (r : Receipt) : Bool :=
  (r.pre.campaigns.campaign c).any fun old =>
    (r.post.campaigns.campaign c).any fun new => new.deadline ≠ old.deadline

theorem Receipt.movesDeadline_eq (hold : r.pre.campaigns.campaign c = some old)
    (hnew : r.post.campaigns.campaign c = some new) :
    r.movesDeadline c = decide (new.deadline ≠ old.deadline) := by
  rw [Receipt.movesDeadline, hold, hnew, Option.any_some, Option.any_some]

theorem Receipt.movesDeadline_none (hold : r.pre.campaigns.campaign c = none) :
    r.movesDeadline c = false := by
  rw [Receipt.movesDeadline, hold, Option.any_none]

/-- The deadline is whole days after the start, and it has moved once at most, which the
record remembers. -/
structure Timed (c : Nat) (tr : List Receipt) (startTime : Option Nat) (record : Campaign) :
    Prop where
  lasts : ∃ k, Lasts startTime record k ∧ 1 ≤ k ∧ k ≤ 365
  moved : tr.countP (Receipt.movesDeadline c) ≤ record.deadlineExtended.toNat

/-- The deadline stays, or its creator puts it off within the rules. -/
theorem Receipt.Valid.deadline (h : r.Valid host) (sane : (view r.pre).Sane)
    (timed : Timed c tr (r.pre.campaigns.campaignStartTime c) old)
    (hold : r.pre.campaigns.campaign c = some old) :
    ∃ new, r.post.campaigns.campaign c = some new ∧ (new.horizon = old.horizon ∨
      ∃ days, r.call = .extendCampaignDeadline c days ∧
        Extension r.env.timestamp (r.pre.campaigns.campaignStartTime c)
          (durationMax r.pre old.category) days old new) := by
  by_cases hcall : ∃ days, r.call = .extendCampaignDeadline c days
  · obtain ⟨days, hcall⟩ := hcall
    obtain ⟨k, hlasts, -⟩ := timed.lasts
    have hdispatch := h.dispatched
    rw [hcall] at hdispatch
    have hold' : r.pre.clearMoved.campaigns.campaign c = some old := hold
    obtain ⟨new, hnew, hextends⟩ := extendCampaignDeadline_extension hold' hlasts hdispatch
    exact ⟨new, hnew, .inr ⟨days, hcall, hextends⟩⟩
  · obtain ⟨new, hnew, hkept⟩ := h.horizon sane (fun days heq => hcall ⟨days, heq⟩) hold
    exact ⟨new, hnew, .inl hkept⟩

theorem Timed.step (timed : Timed c tr (r.pre.campaigns.campaignStartTime c) old)
    (h : r.Valid host) (sane : (view r.pre).Sane)
    (hold : r.pre.campaigns.campaign c = some old)
    (hnew : r.post.campaigns.campaign c = some new) :
    Timed c (r :: tr) (r.post.campaigns.campaignStartTime c) new := by
  obtain ⟨⟨k, ⟨start, hstart, hdeadline⟩, hpos, hmax⟩, hmoved⟩ := timed
  have hsame := h.startTime sane hold
  obtain ⟨new', hnew', hchange⟩ :=
    h.deadline sane ⟨⟨k, ⟨start, hstart, hdeadline⟩, hpos, hmax⟩, hmoved⟩ hold
  obtain rfl := Option.some.inj (hnew.symm.trans hnew')
  have hmoves := Receipt.movesDeadline_eq hold hnew
  rcases hchange with hkept | ⟨days, -, hextends⟩
  · obtain ⟨hkept, hflag⟩ := Prod.mk.inj hkept
    refine ⟨⟨k, ⟨start, hsame.trans hstart, hkept.trans hdeadline⟩, hpos, hmax⟩, ?_⟩
    rw [List.countP_cons, hmoves, hkept, hflag]
    simpa using hmoved
  · obtain ⟨j, ⟨start', hstart', hlater⟩, -, hyear⟩ := hextends.span
    obtain rfl := Option.some.inj (hstart.symm.trans hstart')
    have hday : secondsPerDay = 86400 := rfl
    have hforward := hextends.later
    rw [hday] at hdeadline hlater hforward
    refine ⟨⟨j, ⟨start, hsame.trans hstart, hlater⟩, by omega, hyear⟩, ?_⟩
    rw [hextends.first] at hmoved
    have hnever : tr.countP (Receipt.movesDeadline c) = 0 := Nat.le_zero.mp hmoved
    rw [List.countP_cons, hnever, hextends.marked]
    split
    next => exact Nat.le_refl 1
    next => exact Nat.zero_le _

/-- Deadlines are whole days after the start in every state, and each has moved at most
once. -/
theorem run_timed (run : Run (machine host) tr cfg) (c : Nat) :
    (cfg.state.campaigns.campaign c = none → tr.countP (Receipt.movesDeadline c) = 0) ∧
      ∀ record, cfg.state.campaigns.campaign c = some record →
        Timed c tr (cfg.state.campaigns.campaignStartTime c) record := by
  refine run.invariant (I := fun tr cfg =>
    (cfg.state.campaigns.campaign c = none → tr.countP (Receipt.movesDeadline c) = 0) ∧
      ∀ record, cfg.state.campaigns.campaign c = some record →
        Timed c tr (cfg.state.campaigns.campaignStartTime c) record) ?_ ?_ ?_
  · intro r cfg hstart
    have hfresh : cfg.state.campaigns.campaign c = none := (start_fresh hstart).campaign c
    obtain ⟨-, ⟨tokens, hpre⟩, -, -⟩ := hstart
    have hnone : r.pre.campaigns.campaign c = none := by
      rw [hpre]
      rfl
    refine ⟨fun _ => ?_, fun record hrecord => ?_⟩
    · rw [List.countP_singleton, Receipt.movesDeadline_none hnone]
      rfl
    · cases hfresh.symm.trans hrecord
  · rintro tr cfg r cfg' run ⟨hnever, htimed⟩ ⟨hvalid, -, hpre, rfl⟩
    have sane := run_sane run
    have ranged := run_ranged run
    rw [← hpre] at sane ranged hnever htimed
    cases hold : r.pre.campaigns.campaign c with
    | none =>
        have hquiet : (r :: tr).countP (Receipt.movesDeadline c) = 0 := by
          rw [List.countP_cons, Receipt.movesDeadline_none hold, hnever hold]
          rfl
        refine ⟨fun _ => hquiet, fun record hrecord => ?_⟩
        obtain ⟨-, k, hpos, hmax, hlasts⟩ := hvalid.lasts sane hold hrecord
        have hyear := Nat.le_trans hmax (ranged.durationMax_le _)
        exact ⟨⟨k, hlasts, hpos, hyear⟩, hquiet ▸ Nat.zero_le _⟩
    | some old =>
        refine ⟨fun hnone => ?_, fun record hrecord =>
          (htimed old hold).step hvalid sane hold hrecord⟩
        obtain ⟨new, hnew, -⟩ := hvalid.deadline sane (htimed old hold) hold
        cases hnone.symm.trans hnew
  · rintro tr cfg cfg' ih ⟨tokens, -, rfl⟩
    exact ih

/-! ## The law -/

/-- Every deadline is at most a year of whole days after the start of its campaign. It
moves once at most, when the creator of an active campaign puts it off in time, by thirty
days at most and within the cap of the category at that moment; nothing else touches it. -/
theorem deadlines_bounded (run : Run (machine host) tr cfg) (c : Nat) :
    (∀ record, cfg.state.campaigns.campaign c = some record →
      ∃ start k, cfg.state.campaigns.campaignStartTime c = some start ∧ 1 ≤ k ∧ k ≤ 365 ∧
        record.deadline = start + k * 86400) ∧
    tr.countP (Receipt.movesDeadline c) ≤ 1 ∧
    ∀ r ∈ tr, ∀ old, r.pre.campaigns.campaign c = some old →
      r.post.campaigns.campaignStartTime c = r.pre.campaigns.campaignStartTime c ∧
      ∃ new, r.post.campaigns.campaign c = some new ∧ (new.deadline = old.deadline ∨
        ∃ days, r.call = .extendCampaignDeadline c days ∧
          Extension r.env.timestamp (r.pre.campaigns.campaignStartTime c)
            (durationMax r.pre old.category) days old new) := by
  obtain ⟨hnever, htimed⟩ := run_timed run c
  refine ⟨fun record hrecord => ?_, ?_, ?_⟩
  · obtain ⟨k, ⟨start, hstart, hdeadline⟩, hpos, hmax⟩ := (htimed record hrecord).lasts
    exact ⟨start, k, hstart, hpos, hmax, hdeadline⟩
  · cases hrecord : cfg.state.campaigns.campaign c with
    | none => exact hnever hrecord ▸ Nat.zero_le 1
    | some record =>
        exact Nat.le_trans (htimed record hrecord).moved (Bool.toNat_le _)
  · refine run_receipts ?_ ?_ run
    · intro r cfg hstart old hold
      obtain ⟨tokens, hpre⟩ := hstart.2.1
      rw [hpre] at hold
      cases hold
    · intro tr cfg r run hvalid hpre old hold
      have sane := run_sane run
      have timed := (run_timed run c).2 old (hpre ▸ hold)
      rw [← hpre] at sane timed
      obtain ⟨new, hnew, hchange⟩ := hvalid.deadline sane timed hold
      exact ⟨hvalid.startTime sane hold, new, hnew, hchange.imp_left fun h => (Prod.mk.inj h).1⟩

/-- The creator puts a deadline off by five days, and the cap is lowered afterwards. -/
def Sample.extended : List Request :=
  opened 0 ++ [ask 5 creator (.extendCampaignDeadline 1 5),
    ask 6 admin (.setCategoryDurationCap admin .educationalStartup 3)]

theorem deadlines_sample : ∃ tr cfg, Run (machine Sample.host) tr cfg ∧
    tr.countP (Receipt.movesDeadline 1) = 1 ∧ ∃ record,
      cfg.state.campaigns.campaign 1 = some record ∧ record.deadline = 15 * 86400 := by
  have h : Sample.Ends 300 Sample.extended fun tr cfg =>
      1 ≤ tr.countP (Receipt.movesDeadline 1) ∧
        (cfg.state.campaigns.campaign 1).map Campaign.deadline = some (15 * 86400) := by
    decide +kernel
  obtain ⟨tr, cfg, run, hmoved, hdeadline⟩ := h.run
  obtain ⟨record, hrecord, hdays⟩ := Option.map_eq_some_iff.mp hdeadline
  have honce := (deadlines_bounded run 1).2.1
  exact ⟨tr, cfg, run, Nat.le_antisymm honce hmoved, record, hrecord, hdays⟩

end ProofOfHeart
