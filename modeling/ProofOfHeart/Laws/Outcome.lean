import ProofOfHeart.Laws.Electorate
import ProofOfHeart.Laws.RefundPhase

/-! # The outcome is decided at the deadline

Once the ledger has passed the deadline of a campaign, the deadline, what was raised and
the votes stand. No contribution and no vote comes in any more, and the deadline is not
put off. A goal that was missed stays missed, and nothing is ever paid to the creator; a
goal that was met stays met, and only a cancellation opens the refunds.
-/

namespace ProofOfHeart

open Checked Function Trace Collected

variable {host : Host} {tr later : List Receipt} {cfg cfg' : Config} {c : Nat}
  {s s' : State} {r : Receipt} {env : Env} {v : View} {a a' b : Account} {act : Act}
  {moves : List Transfer} {delta : Int} {who : Address}

/-! ## One call -/

/-- What no longer changes after the deadline. Contributions only go back. -/
structure Account.Decided (a a' : Account) : Prop where
  deadline : a'.record.deadline = a.record.deadline
  goal : a'.record.fundingGoal = a.record.fundingGoal
  raised : a'.record.amountRaised = a.record.amountRaised
  lifetime : a'.funds.lifetime = a.funds.lifetime
  contribution : ∀ who, a'.funds.contribution who = a.funds.contribution who ∨
    a'.funds.contribution who = 0

theorem Account.Decided.refl : a.Decided a := ⟨rfl, rfl, rfl, rfl, fun _ => .inl rfl⟩

theorem Account.Decided.trans (h : a.Decided a') (h' : a'.Decided b) : a.Decided b where
  deadline := h'.deadline.trans h.deadline
  goal := h'.goal.trans h.goal
  raised := h'.raised.trans h.raised
  lifetime := h'.lifetime.trans h.lifetime
  contribution who := by
    rcases h'.contribution who with hsame | hback
    · rw [hsame]
      exact h.contribution who
    · exact .inr hback

theorem AccountStep.decided (h : AccountStep env v c act moves delta a a')
    (late : a.record.deadline < env.timestamp) : a.Decided a' := by
  cases h with
  | contributed nonempty pos accepts => exact absurd accepts.inTime (Nat.not_le.mpr late)
  | extended live inTime => exact absurd inTime (Nat.lt_asymm late)
  | @refunded _ who =>
      refine ⟨rfl, rfl, rfl, rfl, fun other => ?_⟩
      by_cases hother : other = who
      · subst hother
        exact .inr (update_self ..)
      · exact .inl (update_of_ne hother ..)
  | claimed =>
      refine ⟨?_, ?_, ?_, rfl, fun _ => .inl rfl⟩
      all_goals rw [Account.claimMilestone_record]
  | _ => exact ⟨rfl, rfl, rfl, rfl, fun _ => .inl rfl⟩

/-- The acts that would change the outcome. -/
def Act.reopens : Act → Bool
  | .contribute .. | .extend => true
  | _ => false

theorem AccountStep.not_reopens (h : AccountStep env v c act moves delta a a')
    (late : a.record.deadline < env.timestamp) : act.reopens = false := by
  cases h with
  | contributed nonempty pos accepts => exact absurd accepts.inTime (Nat.not_le.mpr late)
  | extended live inTime => exact absurd inTime (Nat.lt_asymm late)
  | _ => rfl

/-- A payout needs the goal, and without it a refund needs the cancellation. -/
theorem AccountStep.outcome (h : AccountStep env v c act moves delta a a') :
    (act.isPayout = true → a.record.fundingGoal ≤ a.record.amountRaised) ∧
    (act.isRefund = true → a.record.fundingGoal ≤ a.record.amountRaised →
      a.record.isCancelled = true) := by
  cases h with
  | withdrew payable | claimed payable => exact ⟨fun _ => payable.goalMet, nofun⟩
  | refunded refundable =>
      refine ⟨nofun, fun _ hmet => ?_⟩
      rcases refundable with hcancelled | ⟨-, hmissed⟩
      · exact hcancelled
      · exact absurd hmet (Int.not_le.mpr hmissed)
  | _ => exact ⟨nofun, nofun⟩

/-! ## What follows -/

/-- What a call does to campaign `c` when its outcome is that of the account `a`. -/
structure Receipt.Respects (c : Nat) (a : Account) (r : Receipt) : Prop where
  closed : (r.call.act c).reopens = false
  silent : r.call.ballot c = none
  payout : (r.call.act c).isPayout = true → a.record.fundingGoal ≤ a.record.amountRaised
  refund : (r.call.act c).isRefund = true → a.record.fundingGoal ≤ a.record.amountRaised →
    ∃ record, r.pre.campaigns.campaign c = some record ∧ record.isCancelled = true

/-- The outcome of campaign `c` stands since the account was `a`. -/
structure Stands (c : Nat) (a : Account) (tr later : List Receipt) (cfg : Config) : Prop where
  time : a.record.deadline < cfg.ledger.timestamp
  account : ∃ a', (view cfg.state).account c = some a' ∧ a.Decided a'
  votes : castSince c (later ++ tr) = castSince c tr ∨ castSince c (later ++ tr) = []
  respects : ∀ r ∈ later, r.Respects c a

theorem Receipt.Valid.respects (h : r.Valid host) (sane : (view r.pre).Sane)
    (late : a.record.deadline < r.env.timestamp) (ha' : (view r.pre).account c = some a')
    (decided : a.Decided a') : r.Respects c a ∧
      ∃ b, (view r.post).account c = some b ∧ a.Decided b := by
  have hlate : a'.record.deadline < r.env.timestamp := decided.deadline ▸ late
  have hrecord : r.pre.campaigns.campaign c = some a'.record := (View.account_eq_some.mp ha').1
  obtain ⟨delta, -, hexisting⟩ := (h.stepped sane).existing
  obtain ⟨b, hb, hstep⟩ := hexisting c a' ha'
  obtain ⟨hpayout, hrefund⟩ := hstep.outcome
  rw [decided.goal, decided.raised] at hpayout hrefund
  refine ⟨⟨hstep.not_reopens hlate, ?_, hpayout, fun hact hmet => ?_⟩,
    b, hb, decided.trans (hstep.decided hlate)⟩
  · by_contra hballot
    obtain ⟨⟨voter, approve⟩, hcast⟩ := Option.ne_none_iff_exists'.mp hballot
    obtain ⟨record, hpending, -, -, inTime⟩ := (h.castBy (Call.ballot_eq_some.mp hcast)).pending
    obtain rfl := Option.some.inj (hrecord.symm.trans hpending)
    exact absurd inTime (Nat.not_le.mpr hlate)
  · exact ⟨a'.record, hrecord, hrefund hact hmet⟩

theorem castSince_quiet (silent : r.call.ballot c = none) :
    castSince c (r :: tr) = castSince c tr ∨ castSince c (r :: tr) = [] := by
  cases hclears : r.call.clears c r.pre with
  | true => exact .inr (since_of_clears hclears)
  | false => exact .inl (since_quiet (by rw [silent]; rfl) hclears)

/-- By induction on what follows: a call that respects the outcome leaves it standing. -/
theorem run_stands (run : Run (machine host) tr cfg) (ha : (view cfg.state).account c = some a)
    (late : a.record.deadline < cfg.ledger.timestamp)
    (onward : Onward (machine host) cfg later cfg') : Stands c a tr later cfg' := by
  induction onward with
  | here => exact ⟨late, ⟨a, ha, .refl⟩, .inl rfl, fun _ hr => nomatch hr⟩
  | @step rest t t' r before h ih =>
      obtain ⟨time, ⟨a', ha', decided⟩, votes, respects⟩ := ih
      obtain ⟨hvalid, hledger, hpre, rfl⟩ := h
      have sane := run_sane (run.append before)
      rw [← hpre] at sane ha'
      have hlate : a.record.deadline < r.env.timestamp := Nat.lt_of_lt_of_le time hledger.1
      obtain ⟨hr, haccount⟩ := hvalid.respects sane hlate ha' decided
      refine ⟨hlate, haccount, ?_, List.forall_mem_cons.mpr ⟨hr, respects⟩⟩
      have hquiet : castSince c (r :: (rest ++ tr)) = castSince c (rest ++ tr) ∨
          castSince c (r :: (rest ++ tr)) = [] := castSince_quiet hr.silent
      rcases hquiet with hsame | hnone
      · rw [List.cons_append, hsame]
        exact votes
      · exact .inr hnone
  | drift before h ih =>
      obtain ⟨tokens, -, rfl⟩ := h
      exact ⟨ih.time, ih.account, ih.votes, ih.respects⟩

/-! ## The law -/

/-- Whatever follows the deadline of a campaign, its deadline, its goal and what was raised
stay, contributions only go back, and the votes that count are those cast in time, or none
at all. The creator is paid only if the goal was met, and then nobody is refunded but
after a cancellation. -/
theorem outcome_decided {old : Campaign} (run : Run (machine host) tr cfg)
    (hcampaign : cfg.state.campaigns.campaign c = some old)
    (late : old.deadline < cfg.ledger.timestamp)
    (onward : Onward (machine host) cfg later cfg') :
    (∃ new, cfg'.state.campaigns.campaign c = some new ∧ new.deadline = old.deadline ∧
      new.fundingGoal = old.fundingGoal ∧ new.amountRaised = old.amountRaised) ∧
    (∀ who, cfg'.state.contributions.lifetimeContribution c who =
        cfg.state.contributions.lifetimeContribution c who ∧
      (cfg'.state.contributions.contribution c who = cfg.state.contributions.contribution c who ∨
        cfg'.state.contributions.contribution c who = 0)) ∧
    (castSince c (later ++ tr) = castSince c tr ∨ castSince c (later ++ tr) = []) ∧
    ∀ r ∈ later, (r.call.act c).reopens = false ∧ r.call.ballot c = none ∧
      ((r.call.act c).isPayout = true → old.fundingGoal ≤ old.amountRaised) ∧
      ((r.call.act c).isRefund = true → old.fundingGoal ≤ old.amountRaised →
        ∃ record, r.pre.campaigns.campaign c = some record ∧ record.isCancelled = true) := by
  have ha := View.account_of_campaign (v := view cfg.state) hcampaign
  obtain ⟨-, ⟨a', ha', decided⟩, votes, respects⟩ := run_stands run ha late onward
  obtain ⟨hrecord, hfunds⟩ := View.account_eq_some.mp ha'
  have hheld : fundsOf cfg'.state c = a'.funds := hfunds
  refine ⟨⟨a'.record, hrecord, decided.deadline, decided.goal, decided.raised⟩, fun who => ⟨?_, ?_⟩,
    votes, fun r hr => ?_⟩
  · exact (congrArg (fun f : Funds => f.lifetime who) hheld).trans (congrFun decided.lifetime who)
  · have hsame : cfg'.state.contributions.contribution c who = a'.funds.contribution who :=
      congrArg (fun f : Funds => f.contribution who) hheld
    rw [hsame]
    exact decided.contribution who
  · obtain ⟨closed, silent, payout, refund⟩ := respects r hr
    exact ⟨closed, silent, payout, refund⟩

/-- A refund after the deadline, and then another one. -/
theorem outcome_decided_sample : ∃ tr cfg later cfg', Run (machine Sample.host) tr cfg ∧
    Onward (machine Sample.host) cfg later cfg' ∧ later.length = 2 ∧
    ∃ new, cfg'.state.campaigns.campaign 1 = some new ∧ new.amountRaised = 50000 := by
  have h : Sample.Ends 0 Sample.refunded fun _ cfg =>
      (∃ old ∈ cfg.state.campaigns.campaign 1, old.deadline < cfg.ledger.timestamp ∧
        old.amountRaised = 50000) ∧
      ∃ x ∈ replay Sample.host [Sample.token, Sample.newToken] [] cfg
        [Sample.ask 900001 Sample.bob (.saveCampaign Sample.bob 1),
          Sample.ask 900002 Sample.bob (.claimRefund 1 Sample.bob)], x.1.length = 2 := by
    decide +kernel
  obtain ⟨tr, cfg, run, ⟨old, hcampaign, late, hraised⟩, ⟨later, cfg'⟩, hreplay, hlength⟩ := h.run
  have onward : Onward (machine Sample.host) cfg later cfg' := replay_onward .here hreplay
  obtain ⟨⟨new, hnew, -, -, hkept⟩, -⟩ := outcome_decided run hcampaign late onward
  exact ⟨tr, cfg, later, cfg', run, onward, hlength, new, hnew, hkept.trans hraised⟩

end ProofOfHeart
