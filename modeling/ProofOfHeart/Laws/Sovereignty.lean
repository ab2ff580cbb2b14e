import ProofOfHeart.Account.Turn
import ProofOfHeart.Board.Entries

/-! # Nobody acts for another address

A call spends, refunds, claims, caps, votes and bookmarks only for the address that it
names or that the record names as the creator, and that address has to sign it.
-/

namespace ProofOfHeart

open Checked Function Trace Table

variable {host : Host} {tr : List Receipt} {cfg : Config} {c : Nat} {a a' : Account}
  {env : Env} {v v' : View} {act : Act} {moves : List Transfer} {delta : Int} {s s' : State}
  {who : Address} {amount : Int} {call : Call}

/-! ## Who signs -/

/-- The wallet that a call names and acts for. -/
def Call.wallet : Call → Option Address
  | .contribute _ who _ | .batchContribute who _ | .claimRefund _ who | .claimRevenue _ who
  | .setPersonalCap _ who _ | .removePersonalCap _ who | .voteOnCampaign _ who _
  | .saveCampaign who _ | .removeSavedCampaign who _ | .batchSaveCampaigns who _
  | .clearSavedCampaigns who => some who
  | _ => none

theorem requireAuth_demands : Demands (env.auth who = true) (requireAuth env who) :=
  .of_rejectIf Bool.eq_true_of_not_eq_false

theorem dispatch_signed (hwallet : call.wallet = some who) :
    Demands (env.auth who = true) (dispatch env s call) := by
  cases call with
  | contribute | batchContribute | claimRefund | claimRevenue | setPersonalCap
  | removePersonalCap | saveCampaign | removeSavedCampaign | batchSaveCampaigns
  | clearSavedCampaigns =>
      cases hwallet
      exact .first requireAuth_demands
  | voteOnCampaign =>
      cases hwallet
      exact .later fun _ => .first requireAuth_demands
  | _ => cases hwallet

theorem getCreatorCampaign_signed {record : Campaign}
    (h : getCreatorCampaign env s c = .ok record) :
    s.campaigns.campaign c = some record ∧ env.auth record.creator = true := by
  simp only [getCreatorCampaign, getCampaignOrError, bind_eq_ok, okOr_eq_ok, pure_eq_ok] at h
  obtain ⟨_, hrecord, _, hcreator, rfl⟩ := h
  exact ⟨hrecord, requireAuth_demands _ hcreator⟩

theorem depositRevenue_signed (h : depositRevenue env s c amount = .ok s') :
    ∃ record, s.campaigns.campaign c = some record ∧ env.auth record.creator = true := by
  simp only [depositRevenue, bind_eq_ok] at h
  obtain ⟨record, hrecord, -⟩ := h
  exact ⟨record, getCreatorCampaign_signed hrecord⟩

/-! ## Balances -/

/-- Nothing is taken from `who`. -/
def Spares (who : Address) (before after : Tokens) : Prop :=
  ∀ token, before.balance token who ≤ after.balance token who

theorem Spares.refl {w : Tokens} : Spares who w w := fun _ => Int.le_refl _

theorem Spares.trans {w w' w'' : Tokens} (h : Spares who w w') (h' : Spares who w' w'') :
    Spares who w w'' := fun token => Int.le_trans (h token) (h' token)

theorem Spares.move {w : Tokens} {t : Transfer} (hsender : who ≠ t.sender) (hpos : 0 ≤ t.amount) :
    Spares who w (w.move t) := by
  intro token
  by_cases htoken : token = t.token
  · subst htoken
    simp only [Tokens.move, update_self]
    by_cases hrecipient : who = t.recipient
    · rw [← hrecipient, update_self, update_of_ne hsender]
      omega
    · rw [update_of_ne hrecipient, update_of_ne hsender]
  · simp only [Tokens.move, update_of_ne htoken]
    exact Int.le_refl _

/-- Paying the debts of a batch takes from nobody but its contributor. -/
theorem payOwed_spares {payer : Address} {debts : List (Address × Int)} (hother : who ≠ payer)
    (h : each (payOwed payer) s debts = .ok s') : Spares who s.tokens s'.tokens := by
  refine each_preserves (fun t => Spares who s.tokens t.tokens) (fun m debt t hm hstep => ?_) debts
    s s' .refl h
  obtain ⟨hpos, -, rfl⟩ := transfer_eq_ok.mp hstep
  exact hm.trans (.move hother hpos)

theorem batchContribute_spares {payer : Address} {items : List (Nat × Int)} (hother : who ≠ payer)
    (h : batchContribute env s payer items = .ok s') : Spares who s.tokens s'.tokens := by
  simp only [batchContribute, bind_eq_ok] at h
  obtain ⟨_, -, _, -, _, -, progress, hprogress, hpay⟩ := h
  have htokens : progress.state.tokens = s.tokens := (batchItems_batched hprogress).tokens
  rw [← htokens]
  exact payOwed_spares hother hpay

theorem Call.wallet_ne {other : Address} (hauth : env.auth who = false)
    (hwallet : call.wallet = some other) (h : dispatch env s call = .ok s') : who ≠ other := by
  rintro rfl
  exact Bool.noConfusion (hauth.symm.trans (dispatch_signed hwallet _ h))

/-- The payers are the contract, a contributor who signs and a creator who deposits. -/
theorem dispatch_spares (hcall : call.deploys = false) (h : dispatch env s call = .ok s')
    (hauth : env.auth who = false) (hwho : who ≠ contractAddress) :
    Spares who s.tokens s'.tokens := by
  have heffect := dispatch_effect hcall h
  have htokens : s'.tokens = (view s').tokens := rfl
  rw [htokens]
  generalize hpost : view s' = v' at heffect
  cases heffect with
  | @contribute c payer amount a token ha accepts pos =>
      exact .move (Call.wallet_ne hauth rfl h) (Int.le_of_lt pos)
  | batch =>
      rw [← hpost]
      exact batchContribute_spares (Call.wallet_ne hauth rfl h) h
  | refund ha refundable pos => exact .move hwho (Int.le_of_lt pos)
  | withdraw ha payable noPlan currency hrecipient feePos creatorPos =>
      exact (Spares.move hwho feePos).trans (.move hwho creatorPos)
  | release ha hreserve unreleased due withdrawn currency pos => exact .move hwho pos
  | @claimMilestone c a token admin milestone ha payable mem marked unclaimed pos =>
      dsimp only
      split
      next hfee =>
          exact (Spares.move hwho (Int.le_of_lt hfee)).trans (.move hwho (Int.le_of_lt pos))
      next => exact .move hwho (Int.le_of_lt pos)
  | cancel ha =>
      dsimp only
      split
      next hpool => exact .move hwho (Int.le_of_lt hpool)
      next => exact .refl
  | @deposit c amount a token ha shares raised pos =>
      obtain ⟨record, hrecord, hsigned⟩ := depositRevenue_signed h
      obtain rfl : record = a.record :=
        Option.some.inj (hrecord.symm.trans (View.account_eq_some.mp ha).1)
      refine .move ?_ (Int.le_of_lt pos)
      rintro rfl
      exact Bool.noConfusion (hauth.symm.trans hsigned)
  | claimRevenue ha shares contributed raised undrawn pos => exact .move hwho (Int.le_of_lt pos)
  | claimCreatorRevenue ha sharing undrawn =>
      exact .move hwho (Int.sub_nonneg_of_le (Int.le_of_lt undrawn))
  | verifications hverified =>
      rw [hverified.unchanged.2.2.2.2.2.2]
      exact .refl
  | administer hadmin =>
      obtain ⟨store, -, rfl⟩ := hadmin
      exact .refl
  | _ => exact .refl

/-! ## Entries of a campaign -/

/-- The address whose entries an act writes. -/
def Act.actor : Act → Option Address
  | .contribute who _ | .refund who | .claimRevenue who => some who
  | _ => none

theorem Call.wallet_of_actor (h : (call.act c).actor = some who) : call.wallet = some who := by
  unfold Call.act at h
  split at h
  all_goals try (split at h)
  all_goals cases h
  all_goals rfl

/-- What the books say about one address. -/
structure SameEntries (who : Address) (f f' : Funds) : Prop where
  contribution : f'.contribution who = f.contribution who
  lifetime : f'.lifetime who = f.lifetime who
  claimed : f'.revenueClaimed who = f.revenueClaimed who

theorem SameEntries.refl {f : Funds} : SameEntries who f f := ⟨rfl, rfl, rfl⟩

theorem SameEntries.contributeAll {admin : Option Address} {payer : Address} (hother : who ≠ payer)
    (amounts : List Int) :
    ∀ a : Account, SameEntries who a.funds (a.contributeAll admin payer amounts).funds := by
  induction amounts with
  | nil => exact fun a => .refl
  | cons amount rest ih =>
      intro a
      obtain ⟨hcontribution, hlifetime, hclaimed⟩ := ih (a.contribute admin payer amount)
      refine ⟨hcontribution.trans ?_, hlifetime.trans ?_, hclaimed⟩
      · exact update_of_ne hother _ _
      · exact update_of_ne hother _ _

theorem AccountStep.sameEntries (h : AccountStep env v c act moves delta a a')
    (hactor : act.actor ≠ some who) : SameEntries who a.funds a'.funds := by
  cases h with
  | @contributed _ moves payer amounts nonempty =>
      exact .contributeAll (fun heq => hactor (congrArg some heq.symm)) amounts a
  | @refunded _ payer =>
      have hother : who ≠ payer := fun heq => hactor (congrArg some heq.symm)
      exact ⟨update_of_ne hother _ _, rfl, update_of_ne hother _ _⟩
  | @claimedRevenue _ token payer =>
      have hother : who ≠ payer := fun heq => hactor (congrArg some heq.symm)
      exact ⟨rfl, rfl, update_of_ne hother _ _⟩
  | _ => exact ⟨rfl, rfl, rfl⟩

theorem Stepped.sameEntries (h : Stepped env v call v') (reg : v.Registered)
    (hactor : ∀ c, (call.act c).actor ≠ some who) (c : Nat) :
    SameEntries who (v.funds c) (v'.funds c) := by
  cases hc : v.account c with
  | some a =>
      obtain ⟨delta, -, hexisting⟩ := h.existing
      obtain ⟨a', ha', hstep⟩ := hexisting c a hc
      rw [(View.account_eq_some.mp hc).2, (View.account_eq_some.mp ha').2]
      exact hstep.sameEntries (hactor c)
  | none =>
      rcases (h.free c hc).2 with ⟨-, hsame⟩ | ⟨-, a, ha, hborn⟩
      · rw [hsame]
        exact .refl
      · rw [(View.account_eq_some.mp ha).2, reg.blank c hc]
        cases hborn
        exact ⟨rfl, rfl, rfl⟩

/-! ## Caps and bookmarks -/

theorem dispatch_cap (hcall : call.deploys = false) (h : dispatch env s call = .ok s')
    (hauth : env.auth who = false) (c : Nat) :
    (board s').personalCap c who = (board s).personalCap c who := by
  rcases dispatch_entries hcall h with ⟨-, -, -, hsame | ⟨id, payer, rfl, hput⟩⟩ | hentry
  · rw [hsame]
  · rw [hput, put_apply, if_neg fun heq => Call.wallet_ne hauth rfl h heq.2]
  · generalize board s' = b at hentry
    cases hentry with
    | capPersonal | uncapPersonal =>
        dsimp only
        rw [put_apply, if_neg fun heq => Call.wallet_ne hauth rfl h heq.2]
    | censure =>
        unfold Board.censure
        split <;> rfl
    | uncensure =>
        unfold Board.uncensure
        split <;> rfl
    | _ => rfl

theorem dispatch_saved (hcall : call.deploys = false) (h : dispatch env s call = .ok s')
    (hauth : env.auth who = false) : (board s').saved who = (board s).saved who := by
  rcases dispatch_entries hcall h with ⟨-, hsame, -⟩ | hentry
  · rw [hsame]
  · generalize board s' = b at hentry
    cases hentry with
    | save | unsave | saveBatch | clear =>
        exact update_of_ne (Call.wallet_ne hauth rfl h) _ _
    | censure =>
        unfold Board.censure
        split <;> rfl
    | uncensure =>
        unfold Board.uncensure
        split <;> rfl
    | _ => rfl

/-! ## Votes -/

theorem VotingStore.count_mark {w : VotingStore} {id : Nat} {voter : Address} {approve : Bool}
    (hother : who ≠ voter) : (w.count id voter approve).hasVoted c who = w.hasVoted c who := by
  unfold VotingStore.count
  split
  all_goals
    dsimp only
    rw [put_apply, if_neg fun heq => hother heq.2]

theorem VotingStore.unmark_mark {w : VotingStore} {id : Nat} {voters : List Address} :
    (w.unmark id voters).hasVoted c who =
      if c = id ∧ who ∈ voters then false else w.hasVoted c who := by
  unfold VotingStore.unmark
  by_cases hc : c = id
  · subst hc
    simp
  · simp [hc]

/-- The mark of `who` on campaign `c` stays, or a purge of a campaign that has ended
removes it. -/
def KeepsMark (who : Address) (call : Call) (s s' : State) (c : Nat) : Prop :=
  s'.voting.hasVoted c who = s.voting.hasVoted c who ∨
    s.voting.hasVoted c who = true ∧ s'.voting.hasVoted c who = false ∧
      ∃ voters finalize record, call = .purgeVotingState c voters finalize ∧
        s.campaigns.campaign c = some record ∧
        (record.isCancelled = true ∨ record.fundsWithdrawn = true)

theorem dispatch_mark (hcall : call.deploys = false) (h : dispatch env s call = .ok s')
    (hauth : env.auth who = false) (c : Nat) : KeepsMark who call s s' c := by
  have hmark : ∀ b : Board, board s' = b →
      b.voting.hasVoted c who = (board s).voting.hasVoted c who → KeepsMark who call s s' c :=
    fun b hboard hsame =>
      .inl ((congrArg (fun b : Board => b.voting.hasVoted c who) hboard).trans hsame)
  cases dispatch_posting hcall h with
  | vote hrecord unverified unpaid live fresh hboard =>
      exact hmark _ hboard (VotingStore.count_mark (Call.wallet_ne hauth rfl h))
  | @purge id voters finalize record hrecord ended hboard =>
      have hpurged : s'.voting.hasVoted c who =
          ((board s).voting.unmark id voters).hasVoted c who := by
        refine (congrArg (fun b : Board => b.voting.hasVoted c who) hboard).trans ?_
        dsimp only
        split <;> rfl
      rw [VotingStore.unmark_mark] at hpurged
      by_cases hlisted : c = id ∧ who ∈ voters
      · rw [if_pos hlisted] at hpurged
        cases hheld : s.voting.hasVoted c who with
        | false => exact .inl (hpurged.trans hheld.symm)
        | true =>
            rw [hlisted.1] at hpurged hheld ⊢
            exact .inr ⟨hheld, hpurged, voters, finalize, record, rfl, hrecord, ended.symm⟩
      · rw [if_neg hlisted] at hpurged
        exact .inl hpurged
  | describe _ hboard =>
      refine hmark _ hboard ?_
      split <;> rfl
  | create _ _ hboard | handOver _ _ hboard | contribute _ hboard | batch hboard | refund hboard
  | cancel _ _ _ hboard | verify hboard | certify _ _ _ hboard | verifyBatch hboard
  | votingRules _ hboard | entries _ hboard | kept _ hboard =>
      exact hmark _ hboard rfl

/-! ## The law -/

/-- What is left to `who` of a call by others. -/
structure Untouched (who : Address) (call : Call) (s s' : State) : Prop where
  balance : ∀ token, s.tokens.balance token who ≤ s'.tokens.balance token who
  contribution : ∀ c, s'.contributions.contribution c who = s.contributions.contribution c who
  lifetime : ∀ c,
    s'.contributions.lifetimeContribution c who = s.contributions.lifetimeContribution c who
  claimed : ∀ c, s'.revenue.revenueClaimed c who = s.revenue.revenueClaimed c who
  cap : ∀ c, s'.contributions.personalCap c who = s.contributions.personalCap c who
  saved : s'.bookmarks.savedCampaigns who = s.bookmarks.savedCampaigns who
  voted : ∀ c, KeepsMark who call s s' c

/-- Whoever makes a call that `who` has not signed takes nothing from `who` and writes
none of the entries of `who`. -/
theorem sovereignty_holds (run : Run (machine host) tr cfg)
    (h : invoke env cfg.state call = .ok s') (hauth : env.auth who = false)
    (hwho : who ≠ contractAddress) : Untouched who call cfg.state s' := by
  have sane := run_sane run
  have hvalid : Receipt.Valid env.host ⟨env, call, cfg.state, s'⟩ := ⟨rfl, h⟩
  have hcall : call.deploys = false := hvalid.not_deploys sane.toConfigured
  have hdispatch : dispatch env cfg.state.clearMoved call = .ok s' := hvalid.dispatched
  have hactor : ∀ c, (call.act c).actor ≠ some who := fun c heq =>
    Call.wallet_ne hauth (Call.wallet_of_actor heq) hdispatch rfl
  have hentries := fun c => (hvalid.stepped sane).sameEntries sane.toRegistered hactor c
  have hbalance := dispatch_spares hcall hdispatch hauth hwho
  have hcap := fun c => dispatch_cap hcall hdispatch hauth c
  have hsaved := dispatch_saved hcall hdispatch hauth
  have hvoted := fun c => dispatch_mark hcall hdispatch hauth c
  exact ⟨hbalance, fun c => (hentries c).contribution, fun c => (hentries c).lifetime,
    fun c => (hentries c).claimed, hcap, hsaved, hvoted⟩

/-- The creator withdraws, and Alice keeps what she has. -/
theorem sovereignty_sample :
    ∃ tr cfg s', Run (machine Sample.host) tr cfg ∧
      invoke (Sample.env 2 Sample.creator) cfg.state (.withdrawFunds 1) = .ok s' ∧
      cfg.state.contributions.contribution 1 Sample.alice = 100000 ∧
      Untouched Sample.alice (.withdrawFunds 1) cfg.state s' := by
  have h : Sample.Ends 300
      (Sample.opened 0 ++ [Sample.ask 1 Sample.alice (.contribute 1 Sample.alice 100000)])
      fun _ cfg =>
        (invoke (Sample.env 2 Sample.creator) cfg.state (.withdrawFunds 1)).toOption.isSome ∧
          cfg.state.contributions.contribution 1 Sample.alice = 100000 := by
    decide +kernel
  obtain ⟨tr, cfg, run, hsome, hheld⟩ := h.run
  cases hinvoke : invoke (Sample.env 2 Sample.creator) cfg.state (.withdrawFunds 1) with
  | error abort =>
      rw [hinvoke] at hsome
      cases hsome
  | ok s' =>
      exact ⟨tr, cfg, s', run, hinvoke, hheld,
        sovereignty_holds run hinvoke (by decide) (by decide)⟩

end ProofOfHeart
