import ProofOfHeart.Account.Failure
import ProofOfHeart.Laws.Attestation
import ProofOfHeart.Laws.Vouching

/-! # Who decides a verification by votes

A vote counts one, whatever the voter holds. The votes that count are those of different
holders of the platform token, each of whom signed while the campaign was open and held
the stake that was asked for at that moment. A verification by votes rests on them alone.
-/

namespace ProofOfHeart

open Checked Function Trace Collected

variable {host : Host} {tr : List Receipt} {cfg : Config} {c : Nat} {s s' : State}
  {r : Receipt} {env : Env} {voter : Address} {approve : Bool}

/-! ## One vote -/

/-- What a vote demands of its voter and of the campaign, at the moment of the call. -/
structure Receipt.CastBy (c : Nat) (voter : Address) (r : Receipt) : Prop where
  signed : r.signedBy voter
  running : r.pre.admin.paused = false
  pending : ∃ record, r.pre.campaigns.campaign c = some record ∧ record.isActive = true ∧
    record.isVerified = false ∧ r.env.timestamp ≤ record.deadline
  staked : ∃ token, r.pre.admin.token = some token ∧
    0 < r.pre.tokens.balance token voter ∧
    r.pre.voting.minVotingBalance ≤ r.pre.tokens.balance token voter
  unmarked : r.pre.voting.hasVoted c voter = false

theorem Receipt.Valid.castBy (h : r.Valid host) (hcall : r.call = .voteOnCampaign c voter approve) :
    r.CastBy c voter := by
  have hdispatch := h.dispatched
  rw [hcall] at hdispatch
  simp only [dispatch, voteOnCampaign, castVote, getCampaignOrError, getToken, requireAuth,
    requireUnverifiedCampaign, requireNotPaused_eq_ok, requireActiveCampaign_eq_ok, bind_eq_ok,
    okOr_eq_ok, rejectIf_eq_ok] at hdispatch
  obtain ⟨_, ⟨running, -⟩, _, signed, record, hrecord, _, -, _, ⟨active, -⟩, _, inTime, _,
    unverified, token, htoken, _, pos, _, stake, _, unmarked, -⟩ := hdispatch
  refine ⟨Bool.eq_true_of_not_eq_false signed, running, ⟨record, hrecord, active, ?_, ?_⟩,
    ⟨token, htoken, ?_, ?_⟩, ?_⟩
  · exact Bool.eq_false_of_not_eq_true unverified
  · exact Nat.le_of_not_lt inTime
  · exact Int.not_le.mp pos
  · exact Int.not_lt.mp stake
  · exact Bool.eq_false_of_not_eq_true unmarked

/-! ## The votes that count -/

theorem Call.ballot_eq_some {call : Call} :
    call.ballot c = some (voter, approve) ↔ call = .voteOnCampaign c voter approve := by
  cases call with
  | voteOnCampaign id who yes =>
      by_cases h : c = id
      · simp [Call.ballot, h]
      · simp [Call.ballot, h, Ne.symm h]
  | _ => simp [Call.ballot]

theorem mem_castSince {vote : Receipt × (Address × Bool)} (h : vote ∈ castSince c tr) :
    vote.1 ∈ tr ∧ vote.1.call = .voteOnCampaign c vote.2.1 vote.2.2 := by
  have hall : vote ∈ all (fun r : Receipt => (r.call.ballot c).map fun vote => (r, vote)) tr :=
    since_sublist.subset h
  obtain ⟨r, hr, hentry⟩ := List.mem_filterMap.mp hall
  obtain ⟨ballot, hballot, rfl⟩ := Option.map_eq_some_iff.mp hentry
  exact ⟨hr, Call.ballot_eq_some.mp hballot⟩

theorem castSince_countP (p : Address × Bool → Bool) :
    (castSince c tr).countP (fun vote => p vote.2) = (counted c tr).countP p := by
  rw [← castSince_votes, List.countP_map]
  rfl

/-- The tallies of campaign `c` are those of different voters, each of them eligible. -/
structure Electorate (c : Nat) (tr : List Receipt) (s : State) : Prop where
  approvals : s.voting.approveVotes c = (castSince c tr).countP fun vote => vote.2.2
  rejections : s.voting.rejectVotes c = (castSince c tr).countP fun vote => !vote.2.2
  distinct : ((castSince c tr).map fun vote => vote.2.1).Nodup
  eligible : ∀ vote ∈ castSince c tr, vote.1 ∈ tr ∧
    vote.1.call = .voteOnCampaign c vote.2.1 vote.2.2 ∧ vote.1.CastBy c vote.2.1

theorem run_castBy (run : Run (machine host) tr cfg) : ∀ r ∈ tr, ∀ voter approve,
    r.call = .voteOnCampaign c voter approve → r.CastBy c voter := by
  refine run_receipts (P := fun r => ∀ voter approve,
    r.call = .voteOnCampaign c voter approve → r.CastBy c voter) ?_ ?_ run
  · intro r cfg hstart voter approve hcall
    exact hstart.1.castBy hcall
  · intro tr cfg r run hvalid hpre voter approve hcall
    exact hvalid.castBy hcall

theorem run_electorate (run : Run (machine host) tr cfg) (c : Nat) :
    Electorate c tr cfg.state := by
  have polled := run_polled run c
  refine ⟨?_, ?_, ?_, fun vote hvote => ?_⟩
  · exact (congrArg Tally.approveVotes polled.tally).trans (castSince_countP Prod.snd).symm
  · exact (congrArg Tally.rejectVotes polled.tally).trans
      (castSince_countP fun vote => !vote.2).symm
  · have hnodup : ((counted c tr).map Prod.fst).Nodup := polled.nodup.sublist counted_voters_sublist
    rwa [← castSince_votes, List.map_map] at hnodup
  · obtain ⟨hmem, hcall⟩ := mem_castSince hvote
    exact ⟨hmem, hcall, run_castBy run vote.1 hmem _ _ hcall⟩

/-! ## The law -/

theorem verifyWithVotes_pending (h : verifyWithVotes s c = .ok s') :
    ∃ record, s.campaigns.campaign c = some record ∧ record.isActive = true ∧
      record.isVerified = false := by
  simp only [verifyWithVotes, getCampaignOrError, requireActiveCampaign_eq_ok, bind_eq_ok,
    okOr_eq_ok, rejectIf_eq_ok] at h
  obtain ⟨record, hrecord, _, -, _, unverified, _, ⟨active, -⟩, -⟩ := h
  exact ⟨record, hrecord, active, Bool.eq_false_of_not_eq_true unverified⟩

/-- In every run the tallies of a campaign are the votes, since they were last cleared, of
different eligible voters; and whenever votes verify a campaign, those of the moment meet
the quorum and the threshold that are in force. -/
theorem electorate_decides (run : Run (machine host) tr cfg) (c : Nat) :
    Electorate c tr cfg.state ∧
    ∀ later r earlier, tr = later ++ r :: earlier → r.call = .verifyCampaignWithVotes c →
      Electorate c earlier r.pre ∧ ∃ record, r.pre.campaigns.campaign c = some record ∧
        record.isActive = true ∧ record.isVerified = false ∧
        r.pre.Approves record.category ((castSince c earlier).countP fun vote => vote.2.2)
          ((castSince c earlier).countP fun vote => !vote.2.2) := by
  refine ⟨run_electorate run c, fun later r earlier htr hcall => ?_⟩
  obtain ⟨t, hearlier⟩ := run.earlier later r earlier htr
  rcases hearlier.last with ⟨-, t', hstart⟩ | ⟨cfg', t', before, hvalid, -, hpre, -⟩
  · obtain ⟨admin, token, platformFee, hinit⟩ := hstart.2.2.1
    cases hinit.symm.trans hcall
  · have electorate := run_electorate before c
    have ranged := run_ranged before
    rw [← hpre] at electorate ranged
    have hdispatch := hvalid.dispatched
    rw [hcall] at hdispatch
    obtain ⟨_, -, hverify⟩ := bind_eq_ok.mp hdispatch
    obtain ⟨record, hrecord, approved⟩ :=
      verifyWithVotes_approves (s := r.pre.clearMoved) ranged.quorum.1 hverify
    obtain ⟨record', hrecord', active, unverified⟩ := verifyWithVotes_pending hverify
    obtain rfl := Option.some.inj (hrecord.symm.trans hrecord')
    refine ⟨electorate, record, hrecord, active, unverified, ?_⟩
    rw [← electorate.approvals, ← electorate.rejections]
    exact approved

/-- After a revocation the campaign is verified again by three other voters. -/
theorem electorate_decides_sample : ∃ tr cfg, Run (machine Sample.host) tr cfg ∧
    ∃ r earlier, tr = r :: earlier ∧ (castSince 1 earlier).map (fun vote => vote.2.1) =
        [⟨13⟩, ⟨12⟩, ⟨11⟩] ∧ ∀ vote ∈ castSince 1 earlier, vote.1.CastBy 1 vote.2.1 := by
  have h : Sample.Ends 300 Sample.reverified fun tr _ =>
      (∃ r ∈ tr.head?, r.call = .verifyCampaignWithVotes 1) ∧
      (castSince 1 tr.tail).map (fun vote => vote.2.1) = [⟨13⟩, ⟨12⟩, ⟨11⟩] := by
    decide +kernel
  obtain ⟨tr, cfg, run, ⟨r, hhead, hcall⟩, hvoters⟩ := h.run
  obtain ⟨earlier, rfl⟩ := List.head?_eq_some_iff.mp hhead
  have helectorate := ((electorate_decides run 1).2 [] r earlier rfl hcall).1
  exact ⟨_, cfg, run, r, earlier, rfl, hvoters, fun vote hvote =>
    (helectorate.eligible vote hvote).2.2⟩

end ProofOfHeart
