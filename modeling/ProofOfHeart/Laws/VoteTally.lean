import ProofOfHeart.Lib.Collected
import ProofOfHeart.Laws.CampaignStates
import ProofOfHeart.Laws.PlatformCounters

/-! # What the tallies of a campaign count

The tallies are cleared while the marks of the voters stay. So the tallies count the
votes since the last clearing, and no address is counted twice in the life of a campaign.
-/

namespace ProofOfHeart

open Checked Function Table Trace Collected

variable {host : Host} {tr : List Receipt} {cfg : Config} {c : Nat} {call : Call}
  {env : Env} {s s' : State} {r : Receipt}

/-! ## Votes in a history -/

/-- The vote on campaign `c` that the call casts. -/
def Call.ballot (c : Nat) : Call → Option (Address × Bool)
  | .voteOnCampaign id voter approve => if c = id then some (voter, approve) else none
  | _ => none

/-- The call takes back the verification of campaign `c`. -/
def Call.revokes (c : Nat) (pre : State) : Call → Bool
  | .updateCampaignDescription id _ =>
      decide (c = id) && (pre.campaigns.campaign c).any Campaign.isVerified
  | _ => false

/-- The call leaves campaign `c` without votes: its creation, a revocation, its
cancellation, or a purge that finalises. -/
def Call.clears (c : Nat) (pre : State) : Call → Bool
  | .createCampaign _ | .createCampaignWithToken .. =>
      decide (c = pre.campaigns.campaignCount + 1)
  | .cancelCampaign id | .adminCancelCampaign _ id _ => decide (c = id)
  | .purgeVotingState id _ finalize => decide (c = id) && finalize
  | call => call.revokes c pre

/-- The votes on campaign `c` since its tallies were last cleared. -/
def counted (c : Nat) (tr : List Receipt) : List (Address × Bool) :=
  since (fun r => r.call.ballot c) (fun r => r.call.clears c r.pre) tr

/-- Everyone who ever voted on campaign `c`. -/
def voters (c : Nat) (tr : List Receipt) : List Address :=
  (all (fun r => r.call.ballot c) tr).map Prod.fst

theorem Call.clears_of_revokes (h : call.revokes c s = true) : call.clears c s = true := by
  cases call with
  | updateCampaignDescription => exact h
  | _ => cases h

theorem counted_voters_sublist :
    List.Sublist ((counted c tr).map Prod.fst) (voters c tr) := since_sublist.map _

/-! ## One call -/

/-- The four tallies of a campaign. -/
@[ext]
structure Tally where
  approveVotes : Nat
  rejectVotes : Nat
  approveWeight : Int
  rejectWeight : Int

def VotingStore.tally (w : VotingStore) (c : Nat) : Tally :=
  ⟨w.approveVotes c, w.rejectVotes c, w.approveWeight c, w.rejectWeight c⟩

/-- The tallies of a list of votes, each of weight one. -/
def Tally.of (votes : List (Address × Bool)) : Tally :=
  let approve := votes.countP Prod.snd
  let reject := votes.countP fun vote => !vote.2
  ⟨approve, reject, approve, reject⟩

/-- The marks stay, unless the campaign is closed. -/
def MarksKept (c : Nat) (s s' : State) : Prop :=
  s'.voting.hasVoted c = s.voting.hasVoted c ∨
    ∃ record, s.campaigns.campaign c = some record ∧
      (record.fundsWithdrawn = true ∨ record.isCancelled = true)

inductive TallyStep (c : Nat) (s s' : State) : Call → Prop
  | vote {voter : Address} {approve : Bool} {record : Campaign}
      (hrecord : s.campaigns.campaign c = some record)
      (unpaid : record.fundsWithdrawn = false) (live : record.isCancelled = false)
      (fresh : s.voting.hasVoted c voter = false)
      (h : s'.voting = s.voting.count c voter approve) :
      TallyStep c s s' (.voteOnCampaign c voter approve)
  | clear {call : Call} (clears : call.clears c s = true) (quiet : call.ballot c = none)
      (tally : s'.voting.tally c = .of []) (marks : MarksKept c s s') : TallyStep c s s' call
  | create {call : Call} (absent : c = s.campaigns.campaignCount + 1)
      (clears : call.clears c s = true) (quiet : call.ballot c = none)
      (h : s'.voting = s.voting) : TallyStep c s s' call
  | keep {call : Call} (unclear : call.clears c s = false) (quiet : call.ballot c = none)
      (tally : s'.voting.tally c = s.voting.tally c) (marks : MarksKept c s s') :
      TallyStep c s s' call

theorem TallyStep.of_voting (unclear : call.clears c s = false) (quiet : call.ballot c = none)
    (h : s'.voting = s.voting) : TallyStep c s s' call := by
  refine .keep unclear quiet ?_ (.inl ?_)
  all_goals rw [h]

section Voting

variable (w : VotingStore) {id : Nat} {voter : Address} {approve : Bool} {voters : List Address}

theorem VotingStore.clear_tally : (w.clear c).tally c = .of [] := by
  simp [VotingStore.clear, VotingStore.tally, Tally.of]

theorem VotingStore.clear_tally_of_ne (h : c ≠ id) : (w.clear id).tally c = w.tally c := by
  simp [VotingStore.clear, VotingStore.tally, h]

theorem VotingStore.count_tally_of_ne (h : c ≠ id) :
    (w.count id voter approve).tally c = w.tally c := by
  cases approve <;> simp [VotingStore.count, VotingStore.tally, h]

theorem VotingStore.count_hasVoted :
    (w.count id voter approve).hasVoted = put w.hasVoted id voter true := by
  cases approve <;> rfl

theorem VotingStore.unmark_hasVoted_of_ne (h : c ≠ id) :
    (w.unmark id voters).hasVoted c = w.hasVoted c := update_of_ne h ..

/-- One more vote is one more in the tallies. -/
theorem VotingStore.count_tally {votes : List (Address × Bool)} (h : w.tally c = .of votes) :
    (w.count c voter approve).tally c = .of ((voter, approve) :: votes) := by
  simp only [VotingStore.tally, Tally.of, Tally.mk.injEq] at h
  obtain ⟨happrove, hreject, happroveWeight, hrejectWeight⟩ := h
  cases approve <;> simp [VotingStore.count, VotingStore.tally, Tally.of, *]

end Voting

theorem Posting.tallyStep (h : Posting env s s' call) (c : Nat) : TallyStep c s s' call := by
  cases h with
  | create hcall fresh h =>
      have hvoting : s'.voting = s.voting := congrArg Board.voting h
      by_cases hc : c = s.campaigns.campaignCount + 1
      · rcases hcall with rfl | ⟨token, rfl⟩
        all_goals exact .create hc (decide_eq_true hc) rfl hvoting
      · rcases hcall with rfl | ⟨token, rfl⟩
        all_goals exact .of_voting (decide_eq_false hc) rfl hvoting
  | @cancel call id record hcall hrecord live h =>
      have hvoting : s'.voting = s.voting.clear id := congrArg Board.voting h
      have marks : MarksKept c s s' := .inl (by rw [hvoting]; rfl)
      by_cases hc : c = id
      · subst hc
        have tally : s'.voting.tally c = .of [] := by rw [hvoting, VotingStore.clear_tally]
        rcases hcall with rfl | ⟨admin, reason, rfl⟩
        all_goals exact .clear (decide_eq_true rfl) rfl tally marks
      · have tally : s'.voting.tally c = s.voting.tally c := by
          rw [hvoting, VotingStore.clear_tally_of_ne _ hc]
        rcases hcall with rfl | ⟨admin, reason, rfl⟩
        all_goals exact .keep (decide_eq_false hc) rfl tally marks
  | @describe id description record hrecord h =>
      cases hverified : record.isVerified with
      | false =>
          rw [hverified] at h
          have hvoting : s'.voting = s.voting := congrArg Board.voting h
          refine .of_voting ?_ rfl hvoting
          by_cases hc : c = id
          · simp [Call.clears, Call.revokes, hc, hrecord, hverified]
          · simp [Call.clears, Call.revokes, hc]
      | true =>
          rw [hverified] at h
          have hvoting : s'.voting = s.voting.clear id := congrArg Board.voting h
          have marks : MarksKept c s s' := .inl (by rw [hvoting]; rfl)
          by_cases hc : c = id
          · subst hc
            refine .clear ?_ rfl (by rw [hvoting, VotingStore.clear_tally]) marks
            simp [Call.clears, Call.revokes, hrecord, hverified]
          · refine .keep ?_ rfl (by rw [hvoting, VotingStore.clear_tally_of_ne _ hc]) marks
            simp [Call.clears, Call.revokes, hc]
  | @vote id voter approve record hrecord unverified unpaid live fresh h =>
      have hvoting : s'.voting = s.voting.count id voter approve := congrArg Board.voting h
      by_cases hc : c = id
      · subst hc
        exact .vote hrecord unpaid live fresh hvoting
      · refine .keep rfl (if_neg hc) ?_ (.inl ?_)
        · rw [hvoting, VotingStore.count_tally_of_ne _ hc]
        · rw [hvoting, VotingStore.count_hasVoted, put_row_of_ne hc]
  | @purge id voters finalize record hrecord hended h =>
      have marks : MarksKept c s s' := by
        by_cases hc : c = id
        · exact .inr ⟨record, hc ▸ hrecord, hended⟩
        · refine .inl ?_
          have hvoting : s'.voting = _ := congrArg Board.voting h
          cases finalize
          all_goals
            rw [hvoting]
            exact VotingStore.unmark_hasVoted_of_ne _ hc
      cases finalize with
      | false =>
          have hvoting : s'.voting = s.voting.unmark id voters := congrArg Board.voting h
          refine .keep ?_ rfl (by rw [hvoting]; rfl) marks
          simp [Call.clears]
      | true =>
          have hvoting : s'.voting = (s.voting.unmark id voters).clear id :=
            congrArg Board.voting h
          by_cases hc : c = id
          · subst hc
            refine .clear ?_ rfl (by rw [hvoting, VotingStore.clear_tally]) marks
            simp [Call.clears]
          · refine .keep ?_ rfl ?_ marks
            · simp [Call.clears, hc]
            · rw [hvoting, VotingStore.clear_tally_of_ne _ hc]
              rfl
  | votingRules hcall h =>
      have hvoting : s'.voting = _ := congrArg Board.voting h
      refine .keep ?_ ?_ (by rw [hvoting]; rfl) (.inl (by rw [hvoting]; rfl))
      all_goals cases call <;> first | rfl | cases hcall
  | entries hcall h | kept hcall h =>
      refine .of_voting ?_ ?_ (congrArg Board.voting h)
      all_goals cases call <;> first | rfl | cases hcall
  | handOver _ _ h | contribute _ h | batch h | refund h | verify h | certify _ _ _ h
  | verifyBatch h => exact .of_voting rfl rfl (congrArg Board.voting h)

/-! ## Along a run -/

/-- The tallies count the votes since the last clearing; nobody votes twice, since the
mark of a voter stays while the campaign is open. -/
structure Polled (c : Nat) (tr : List Receipt) (s : State) : Prop where
  tally : s.voting.tally c = .of (counted c tr)
  nodup : (voters c tr).Nodup
  marked : ∀ record, s.campaigns.campaign c = some record → record.fundsWithdrawn = false →
    record.isCancelled = false → ∀ who ∈ voters c tr, s.voting.hasVoted c who = true
  absent : s.campaigns.campaign c = none → voters c tr = []

theorem voters_quiet (quiet : r.call.ballot c = none) : voters c (r :: tr) = voters c tr :=
  congrArg (List.map Prod.fst) (all_quiet quiet)

theorem voters_vote {voter : Address} {approve : Bool}
    (hballot : r.call.ballot c = some (voter, approve)) :
    voters c (r :: tr) = voter :: voters c tr := by
  rw [voters, all_cons, hballot]
  rfl

theorem counted_clear (clears : r.call.clears c r.pre = true) : counted c (r :: tr) = [] :=
  since_of_clears clears

theorem counted_quiet (unclear : r.call.clears c r.pre = false)
    (quiet : r.call.ballot c = none) : counted c (r :: tr) = counted c tr :=
  since_quiet quiet unclear

theorem counted_vote {vote : Address × Bool} (unclear : r.call.clears c r.pre = false)
    (hballot : r.call.ballot c = some vote) : counted c (r :: tr) = vote :: counted c tr := by
  have hcons : counted c (r :: tr) = (r.call.ballot c).toList ++ counted c tr := since_cons unclear
  rw [hcons, hballot]
  rfl

/-- A call that casts no vote on the campaign and keeps the marks of an open one. -/
theorem Polled.quiet (h : Polled c tr r.pre) (hvalid : r.Valid host) (sane : (view r.pre).Sane)
    (quiet : r.call.ballot c = none) (marks : MarksKept c r.pre r.post)
    (tally : r.post.voting.tally c = .of (counted c (r :: tr))) : Polled c (r :: tr) r.post where
  tally := tally
  nodup := by
    rw [voters_quiet quiet]
    exact h.nodup
  marked new hnew unpaid live who hwho := by
    rw [voters_quiet quiet] at hwho
    cases hold : r.pre.campaigns.campaign c with
    | none =>
        rw [h.absent hold] at hwho
        cases hwho
    | some old =>
        obtain ⟨new', hnew', hturn⟩ := hvalid.turn sane hold
        obtain rfl := Option.some.inj (hnew.symm.trans hnew')
        obtain ⟨unpaid, live⟩ := hturn.open_before unpaid live
        rcases marks with hsame | ⟨record, hrecord, hover⟩
        · rw [hsame]
          exact h.marked old hold unpaid live who hwho
        · obtain rfl := Option.some.inj (hrecord.symm.trans hold)
          rw [unpaid, live] at hover
          rcases hover with hover | hover
          all_goals cases hover
  absent hnone := by
    rw [voters_quiet quiet]
    refine h.absent ?_
    cases hold : r.pre.campaigns.campaign c with
    | none => rfl
    | some old =>
        obtain ⟨new, hnew, -⟩ := hvalid.turn sane hold
        rw [hnone] at hnew
        cases hnew

theorem Polled.step (h : Polled c tr r.pre) (hvalid : r.Valid host) (sane : (view r.pre).Sane) :
    Polled c (r :: tr) r.post := by
  have hstep := (hvalid.posting sane.toConfigured).tallyStep c
  generalize hcall : r.call = call at hstep
  cases hstep with
  | clear clears quiet tally marks =>
      rw [← hcall] at clears quiet
      refine h.quiet hvalid sane quiet marks ?_
      rw [tally, counted_clear clears]
  | create absent clears quiet hvoting =>
      rw [← hcall] at clears quiet
      refine h.quiet hvalid sane quiet (.inl (by rw [hvoting])) ?_
      have hnone : r.pre.campaigns.campaign c = none := absent ▸ sane.next_campaign
      have hempty : counted c tr = [] := by
        have hsub : List.Sublist ((counted c tr).map Prod.fst) (voters c tr) :=
          counted_voters_sublist
        rw [h.absent hnone] at hsub
        exact List.map_eq_nil_iff.mp (List.sublist_nil.mp hsub)
      rw [hvoting, h.tally, hempty, counted_clear clears]
  | keep unclear quiet tally marks =>
      rw [← hcall] at unclear quiet
      refine h.quiet hvalid sane quiet marks ?_
      rw [tally, h.tally, counted_quiet unclear quiet]
  | @vote voter approve record hrecord unpaid live fresh hvoting =>
      have hballot : r.call.ballot c = some (voter, approve) := by
        rw [hcall]
        exact if_pos rfl
      have unclear : r.call.clears c r.pre = false := by
        rw [hcall]
        rfl
      have hmarked := h.marked record hrecord unpaid live
      obtain ⟨new, hnew, -⟩ := hvalid.turn sane hrecord
      refine ⟨?_, ?_, fun _ _ _ _ who hwho => ?_, fun hnone => ?_⟩
      · rw [hvoting, VotingStore.count_tally _ h.tally, counted_vote unclear hballot]
      · rw [voters_vote hballot]
        refine List.nodup_cons.mpr ⟨fun hmem => ?_, h.nodup⟩
        have hagain := hmarked voter hmem
        rw [fresh] at hagain
        cases hagain
      · rw [voters_vote hballot] at hwho
        rw [hvoting, VotingStore.count_hasVoted, put_apply]
        split
        next => rfl
        next hother =>
            refine hmarked who ((List.mem_cons.mp hwho).resolve_left fun heq => ?_)
            exact hother ⟨rfl, heq⟩
      · rw [hnone] at hnew
        cases hnew

theorem run_polled (run : Run (machine host) tr cfg) (c : Nat) : Polled c tr cfg.state := by
  refine run.invariant (I := fun tr cfg => Polled c tr cfg.state) ?_ ?_ ?_
  · intro r cfg hstart
    obtain ⟨admin, token, platformFee, hcall⟩ := hstart.2.2.1
    have hvoting : cfg.state.voting = Board.blank.voting :=
      congrArg Board.voting (start_board hstart)
    have quiet : r.call.ballot c = none := by rw [hcall]; rfl
    have unclear : r.call.clears c r.pre = false := by rw [hcall]; rfl
    have hempty : voters c [r] = [] := voters_quiet quiet
    have hcounted : counted c [r] = [] := counted_quiet unclear quiet
    refine ⟨?_, ?_, fun _ _ _ _ who hwho => ?_, fun _ => hempty⟩
    · rw [hvoting, hcounted]
      rfl
    · rw [hempty]
      exact List.nodup_nil
    · rw [hempty] at hwho
      cases hwho
  · rintro tr cfg r cfg' run ih ⟨hvalid, -, hpre, rfl⟩
    have sane := run_sane run
    rw [← hpre] at sane ih
    exact ih.step hvalid sane
  · rintro tr cfg cfg' ih ⟨tokens, -, rfl⟩
    exact ⟨ih.tally, ih.nodup, ih.marked, ih.absent⟩

/-! ## The law -/

theorem Polled.count (h : Polled c tr s) :
    s.voting.approveVotes c + s.voting.rejectVotes c = (counted c tr).length := by
  have happrove : s.voting.approveVotes c = _ := congrArg Tally.approveVotes h.tally
  have hreject : s.voting.rejectVotes c = _ := congrArg Tally.rejectVotes h.tally
  rw [happrove, hreject]
  simpa [Tally.of] using (List.length_eq_countP_add_countP Prod.snd).symm

theorem Polled.votes (h : Polled c tr s) :
    s.voting.approveVotes c + s.voting.rejectVotes c =
      ((counted c tr).map Prod.fst).toFinset.card := by
  have hnodup : ((counted c tr).map Prod.fst).Nodup := h.nodup.sublist counted_voters_sublist
  rw [List.toFinset_card_of_nodup hnodup, List.length_map, h.count]

/-- Votes counted after a clearing were cast after it. -/
theorem counted_later (clears : r.call.clears c r.pre = true) (later earlier : List Receipt) :
    List.Sublist ((counted c (later ++ r :: earlier)).map Prod.fst) (voters c later) :=
  List.Sublist.map _ (@since_sublist_later _ _ (fun r : Receipt => r.call.ballot c)
    (fun r => r.call.clears c r.pre) r clears later earlier)

theorem voters_append (later earlier : List Receipt) :
    voters c (later ++ earlier) = voters c later ++ voters c earlier := by
  rw [voters, all_append, List.map_append]
  rfl

theorem Posting.quorum (h : Posting env s s' (.verifyCampaignWithVotes c)) :
    getMinVotesQuorum s ≤ s.voting.approveVotes c + s.voting.rejectVotes c := by
  cases h with
  | certify hrecord unverified quorum h => exact quorum
  | create hcreate => rcases hcreate with h | ⟨token, h⟩ <;> cases h
  | cancel hcancel => rcases hcancel with h | ⟨admin, reason, h⟩ <;> cases h
  | votingRules h => cases h
  | entries h => cases h
  | kept h => cases h

/-- The tallies count the distinct voters since the last clearing, all of them marked
while the campaign is active; nobody votes twice; and a verification by votes after a
revocation rests on a quorum of voters who had never voted before it. -/
theorem voteTally_sound (run : Run (machine host) tr cfg) (c : Nat) :
    (cfg.state.voting.approveVotes c + cfg.state.voting.rejectVotes c =
        ((counted c tr).map Prod.fst).toFinset.card ∧
      ((counted c tr).map Prod.fst).Nodup) ∧
    (cfg.state.voting.approveWeight c = cfg.state.voting.approveVotes c ∧
      cfg.state.voting.rejectWeight c = cfg.state.voting.rejectVotes c) ∧
    (∀ record, cfg.state.campaigns.campaign c = some record → record.isActive = true →
      ∀ who ∈ (counted c tr).map Prod.fst, cfg.state.voting.hasVoted c who = true) ∧
    (voters c tr).Nodup ∧
    ∀ after x between r earlier, tr = after ++ x :: (between ++ r :: earlier) →
      x.call = .verifyCampaignWithVotes c → r.call.revokes c r.pre = true →
      ∃ fresh : Finset Address, getMinVotesQuorum x.pre ≤ fresh.card ∧
        ∀ who ∈ fresh, who ∈ voters c between ∧ who ∉ voters c (r :: earlier) := by
  have polled := run_polled run c
  refine ⟨⟨polled.votes, polled.nodup.sublist counted_voters_sublist⟩, ⟨?_, ?_⟩,
    fun record hrecord hactive who hwho => ?_, polled.nodup, ?_⟩
  · have happrove : cfg.state.voting.approveVotes c = _ :=
      congrArg Tally.approveVotes polled.tally
    rw [happrove]
    exact congrArg Tally.approveWeight polled.tally
  · have hreject : cfg.state.voting.rejectVotes c = _ := congrArg Tally.rejectVotes polled.tally
    rw [hreject]
    exact congrArg Tally.rejectWeight polled.tally
  · obtain ⟨live, unpaid⟩ := (run_live run hrecord).mp hactive
    exact polled.marked record hrecord unpaid live who (counted_voters_sublist.subset hwho)
  · intro after x between r earlier htr hcall hrevokes
    obtain ⟨t, hearlier⟩ := run.earlier after x _ htr
    obtain ⟨cfg', t', before, hvalid, -, hpre, -⟩ :=
      hearlier.last.resolve_left fun hfirst => by simp at hfirst
    have sane := run_sane before
    have polled := run_polled before c
    rw [← hpre] at sane polled
    have hposting := hvalid.posting sane.toConfigured
    rw [hcall] at hposting
    refine ⟨((counted c (between ++ r :: earlier)).map Prod.fst).toFinset, ?_,
      fun who hwho => ?_⟩
    · rw [← polled.votes]
      exact hposting.quorum
    · have hsince : who ∈ voters c between :=
        (counted_later (Call.clears_of_revokes hrevokes) between earlier).subset
          (List.mem_toFinset.mp hwho)
      have hnodup := polled.nodup
      rw [voters_append, List.nodup_append'] at hnodup
      exact ⟨hsince, fun hbefore => hnodup.2.2 hsince hbefore⟩

/-- Three votes verify a campaign; after its text is edited three others verify it again. -/
def Sample.reverified : List Request :=
  [ask 0 creator (.createCampaign (params [0] 0)), ask 1 alice (.voteOnCampaign 1 alice true),
    ask 1 bob (.voteOnCampaign 1 bob true), ask 1 heir (.voteOnCampaign 1 heir false),
    ask 2 heir (.verifyCampaignWithVotes 1), ask 3 creator (.updateCampaignDescription 1 [1]),
    ask 4 ⟨11⟩ (.voteOnCampaign 1 ⟨11⟩ true), ask 4 ⟨12⟩ (.voteOnCampaign 1 ⟨12⟩ true),
    ask 4 ⟨13⟩ (.voteOnCampaign 1 ⟨13⟩ true), ask 5 heir (.verifyCampaignWithVotes 1)]

theorem voteTally_sample : ∃ tr cfg, Run (machine Sample.host) tr cfg ∧
    (voters 1 tr).length = 6 ∧ cfg.state.voting.approveVotes 1 = 3 ∧
    ((counted 1 tr).map Prod.fst).toFinset.card = 3 := by
  have h : Sample.Ends 300 Sample.reverified fun tr cfg => (voters 1 tr).length = 6 ∧
      cfg.state.voting.approveVotes 1 = 3 ∧ cfg.state.voting.rejectVotes 1 = 0 := by
    decide +kernel
  obtain ⟨tr, cfg, run, hvoters, happrove, hreject⟩ := h.run
  have hcount := (voteTally_sound run 1).1.1
  rw [happrove, hreject] at hcount
  exact ⟨tr, cfg, run, hvoters, happrove, hcount.symm⟩

end ProofOfHeart
