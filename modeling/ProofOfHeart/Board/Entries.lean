import ProofOfHeart.Board.Posting

/-! # What wallets and the admin enter on the board

`Posting` leaves open what becomes of the entries that a wallet or the admin sets
directly. `EntryStep` says it exactly, for the caps of categories and contributors,
the bookmarks and the censures, and `RuleStep` for the rules of voting, each with who
signed and what was checked.
-/

namespace ProofOfHeart

open Checked Function Table

/-- A comment is censured once; its first record stays. -/
def Board.censure (b : Board) (c : Nat) (commentHash : Digest) (record : CommentCensure) : Board :=
  match b.censured c commentHash with
  | some _ => b
  | none => { b with
      censured := put b.censured c commentHash (some record)
      censuredCount := update b.censuredCount c (Word.saturatingAdd 32 (b.censuredCount c) 1) }

def Board.uncensure (b : Board) (c : Nat) (commentHash : Digest) : Board :=
  match b.censured c commentHash with
  | none => b
  | some _ => { b with
      censured := put b.censured c commentHash none
      censuredCount := update b.censuredCount c (b.censuredCount c - 1) }

inductive EntryStep (env : Env) (s : State) : Call → Board → Prop
  | capDuration {admin : Address} {category : Category} {days : Nat}
      (byAdmin : (view s).ByAdmin env admin) (atLeast : campaignDurationMinDays ≤ days)
      (atMost : days ≤ campaignDurationMaxDays) :
      EntryStep env s (.setCategoryDurationCap admin category days)
        { board s with durationCap := update (board s).durationCap category (some days) }
  | uncapDuration {admin : Address} {category : Category}
      (byAdmin : (view s).ByAdmin env admin) :
      EntryStep env s (.removeCategoryDurationCap admin category)
        { board s with durationCap := update (board s).durationCap category none }
  | capPersonal {c : Nat} {who : Address} {amount : Int} {record : Campaign}
      (signed : env.auth who = true) (hrecord : s.campaigns.campaign c = some record)
      (nonneg : 0 ≤ amount)
      (covers : s.contributions.lifetimeContribution c who ≤ amount)
      (within : 0 < record.maxContributionPerUser → amount ≤ record.maxContributionPerUser) :
      EntryStep env s (.setPersonalCap c who amount)
        { board s with personalCap := put (board s).personalCap c who (some amount) }
  | uncapPersonal {c : Nat} {who : Address} (signed : env.auth who = true) :
      EntryStep env s (.removePersonalCap c who)
        { board s with personalCap := put (board s).personalCap c who none }
  | save {user : Address} {c : Nat} (signed : env.auth user = true)
      (created : ∃ record, s.campaigns.campaign c = some record)
      (fresh : c ∉ (board s).saved user)
      (room : ((board s).saved user).length < maxBookmarksPerWallet) :
      EntryStep env s (.saveCampaign user c)
        { board s with saved := update (board s).saved user ((board s).saved user ++ [c]) }
  | unsave {user : Address} {c : Nat} (signed : env.auth user = true)
      (held : c ∈ (board s).saved user) :
      EntryStep env s (.removeSavedCampaign user c)
        { board s with
          saved := update (board s).saved user
            (((board s).saved user).eraseIdx (((board s).saved user).idxOf c)) }
  | saveBatch {user : Address} {ids saved : List Nat} (signed : env.auth user = true)
      (hsaved : each (saveInBatch s) ((board s).saved user) ids = .ok saved) :
      EntryStep env s (.batchSaveCampaigns user ids)
        { board s with saved := update (board s).saved user saved }
  | clear {user : Address} (signed : env.auth user = true) :
      EntryStep env s (.clearSavedCampaigns user)
        { board s with saved := update (board s).saved user [] }
  | censure {admin : Address} {c : Nat} {commentHash : Digest} {reason : Text}
      (byAdmin : (view s).ByAdmin env admin)
      (created : ∃ record, s.campaigns.campaign c = some record) :
      EntryStep env s (.censureComment c commentHash reason)
        ((board s).censure c commentHash
          { reason := reason, censuredAt := env.timestamp, admin := admin })
  | uncensure {admin : Address} {c : Nat} {commentHash : Digest}
      (byAdmin : (view s).ByAdmin env admin)
      (created : ∃ record, s.campaigns.campaign c = some record) :
      EntryStep env s (.uncensureComment c commentHash)
        ((board s).uncensure c commentHash)

inductive RuleStep (env : Env) (s : State) : Call → VotingStore → Prop
  | params {admin : Address} {quorum bps : Nat} (byAdmin : (view s).ByAdmin env admin)
      (somebody : 0 < quorum) (reachable : quorum ≤ maxVotesQuorum)
      (atLeast : minApprovalThresholdBps ≤ bps) (atMost : bps ≤ bpsDenominator) :
      RuleStep env s (.setVotingParams admin quorum bps)
        { (board s).voting with
          minVotesQuorum := some quorum
          approvalThresholdBps := some bps }
  | balance {admin : Address} {balance : Int} (byAdmin : (view s).ByAdmin env admin)
      (nonneg : 0 ≤ balance) :
      RuleStep env s (.setMinVotingBalance admin balance)
        { (board s).voting with minVotingBalance := balance }
  | threshold {admin : Address} {category : Category} {bps : Nat}
      (byAdmin : (view s).ByAdmin env admin) (atLeast : minApprovalThresholdBps ≤ bps)
      (atMost : bps ≤ bpsDenominator) :
      RuleStep env s (.setCategoryVotingThreshold admin category bps)
        { (board s).voting with
          categoryThresholdBps :=
            update (board s).voting.categoryThresholdBps category (some bps) }
  | noThreshold {admin : Address} {category : Category} (byAdmin : (view s).ByAdmin env admin) :
      RuleStep env s (.removeCategoryVotingThreshold admin category)
        { (board s).voting with
          categoryThresholdBps := update (board s).voting.categoryThresholdBps category none }

section Dispatch

variable {env : Env} {s s' : State} {call : Call} {c : Nat} {who admin : Address}

theorem requireAuth_spec {u : Unit} (h : requireAuth env who = .ok u) : env.auth who = true := by
  simpa [requireAuth] using h

theorem setPersonalCapFn_entry {amount : Int} (h : setPersonalCapFn env s c who amount = .ok s') :
    EntryStep env s (.setPersonalCap c who amount) (board s') := by
  simp only [setPersonalCapFn, getCampaignOrError, bind_eq_ok, okOr_eq_ok, rejectIf_eq_ok,
    pure_eq_ok, not_and, Int.not_lt] at h
  obtain ⟨_, hauth, _, hnonneg, _, hcovers, record, hrecord, _, -, _, hwithin, rfl⟩ := h
  exact .capPersonal (requireAuth_spec hauth) hrecord hnonneg hcovers hwithin

theorem saveCampaign_entry (h : saveCampaign env s who c = .ok s') :
    EntryStep env s (.saveCampaign who c) (board s') := by
  simp only [saveCampaign, getCampaignOrError, bind_eq_ok, okOr_eq_ok, rejectIf_eq_ok, pure_eq_ok,
    ge_iff_le, Nat.not_le] at h
  obtain ⟨_, hauth, record, hrecord, _, hfresh, _, hroom, rfl⟩ := h
  exact .save (requireAuth_spec hauth) ⟨record, hrecord⟩ hfresh hroom

theorem removeSavedCampaign_entry (h : removeSavedCampaign env s who c = .ok s') :
    EntryStep env s (.removeSavedCampaign who c) (board s') := by
  simp only [removeSavedCampaign, bind_eq_ok, rejectIf_eq_ok, pure_eq_ok, not_not] at h
  obtain ⟨_, hauth, _, hheld, rfl⟩ := h
  exact .unsave (requireAuth_spec hauth) hheld

theorem censureComment_entry {commentHash : Digest} {reason : Text}
    (h : censureComment env s admin c commentHash reason = .ok s') :
    EntryStep env s (.censureComment c commentHash reason) (board s') := by
  simp only [censureComment, getCampaignOrError, bind_eq_ok, okOr_eq_ok, pure_eq_ok] at h
  obtain ⟨_, hadmin, _, -, record, hrecord, _, -, rfl⟩ := h
  have hstep : EntryStep env s (.censureComment c commentHash reason) _ :=
    .censure (assertAdmin_spec hadmin) ⟨record, hrecord⟩
  have hheld : (board s).censured c commentHash = s.campaigns.commentCensured c commentHash := rfl
  rw [Board.censure, hheld] at hstep
  cases hcensured : s.campaigns.commentCensured c commentHash with
  | none =>
      rw [hcensured] at hstep
      exact hstep
  | some record =>
      rw [hcensured] at hstep
      exact hstep

theorem uncensureComment_entry {commentHash : Digest}
    (h : uncensureComment env s admin c commentHash = .ok s') :
    EntryStep env s (.uncensureComment c commentHash) (board s') := by
  simp only [uncensureComment, getCampaignOrError, bind_eq_ok, okOr_eq_ok, pure_eq_ok] at h
  obtain ⟨_, hadmin, _, -, record, hrecord, rfl⟩ := h
  have hstep : EntryStep env s (.uncensureComment c commentHash) _ :=
    .uncensure (assertAdmin_spec hadmin) ⟨record, hrecord⟩
  have hheld : (board s).censured c commentHash = s.campaigns.commentCensured c commentHash := rfl
  rw [Board.uncensure, hheld] at hstep
  cases hcensured : s.campaigns.commentCensured c commentHash with
  | none =>
      rw [hcensured] at hstep
      exact hstep
  | some record =>
      rw [hcensured] at hstep
      exact hstep

theorem dispatch_entry (hcall : call.setsEntries = true) (h : dispatch env s call = .ok s') :
    EntryStep env s call (board s') := by
  cases call with
  | setCategoryDurationCap admin category days =>
      simp only [dispatch, setCategoryDurationCap, bind_eq_ok, rejectIf_eq_ok, pure_eq_ok, not_or,
        Nat.not_lt] at h
      obtain ⟨_, hadmin, _, hdays, rfl⟩ := h
      exact .capDuration (assertAdmin_spec hadmin) hdays.1 hdays.2
  | removeCategoryDurationCap admin category =>
      simp only [dispatch, removeCategoryDurationCap, bind_eq_ok, pure_eq_ok] at h
      obtain ⟨_, hadmin, rfl⟩ := h
      exact .uncapDuration (assertAdmin_spec hadmin)
  | setPersonalCap c who amount => exact setPersonalCapFn_entry h
  | removePersonalCap c who =>
      simp only [dispatch, removePersonalCapFn, bind_eq_ok, pure_eq_ok] at h
      obtain ⟨_, hauth, _, -, _, -, _, -, rfl⟩ := h
      exact .uncapPersonal (requireAuth_spec hauth)
  | saveCampaign user c => exact saveCampaign_entry h
  | removeSavedCampaign user c => exact removeSavedCampaign_entry h
  | batchSaveCampaigns user ids =>
      simp only [dispatch, batchSaveCampaigns, bind_eq_ok, pure_eq_ok] at h
      obtain ⟨_, hauth, saved, hsaved, rfl⟩ := h
      exact .saveBatch (requireAuth_spec hauth) hsaved
  | clearSavedCampaigns user =>
      simp only [dispatch, clearSavedCampaigns, bind_eq_ok, pure_eq_ok] at h
      obtain ⟨_, hauth, rfl⟩ := h
      exact .clear (requireAuth_spec hauth)
  | censureComment c commentHash reason =>
      obtain ⟨admin, -, h⟩ := bind_eq_ok.mp h
      exact censureComment_entry h
  | uncensureComment c commentHash =>
      obtain ⟨admin, -, h⟩ := bind_eq_ok.mp h
      exact uncensureComment_entry h
  | _ => cases hcall

theorem dispatch_rule (hcall : call.setsVotingRules = true) (h : dispatch env s call = .ok s') :
    RuleStep env s call (board s').voting := by
  cases call with
  | setVotingParams admin quorum bps =>
      simp only [dispatch, setVotingParams, setParams, bind_eq_ok, rejectIf_eq_ok, pure_eq_ok,
        not_or, Nat.not_lt] at h
      obtain ⟨_, hadmin, _, ⟨hsome, hquorum, hlow, hhigh⟩, rfl⟩ := h
      exact .params (assertAdmin_spec hadmin) (Nat.pos_of_ne_zero hsome) hquorum hlow hhigh
  | setMinVotingBalance admin balance =>
      simp only [dispatch, setMinVotingBalanceFn, bind_eq_ok, rejectIf_eq_ok, pure_eq_ok,
        Int.not_lt] at h
      obtain ⟨_, hadmin, _, hnonneg, rfl⟩ := h
      exact .balance (assertAdmin_spec hadmin) hnonneg
  | setCategoryVotingThreshold admin category bps =>
      simp only [dispatch, setCategoryVotingThreshold, bind_eq_ok, rejectIf_eq_ok, pure_eq_ok,
        not_or, Nat.not_lt] at h
      obtain ⟨_, hadmin, _, ⟨hlow, hhigh⟩, rfl⟩ := h
      exact .threshold (assertAdmin_spec hadmin) hlow hhigh
  | removeCategoryVotingThreshold admin category =>
      simp only [dispatch, removeCategoryVotingThreshold, bind_eq_ok, pure_eq_ok] at h
      obtain ⟨_, hadmin, rfl⟩ := h
      exact .noThreshold (assertAdmin_spec hadmin)
  | _ => cases hcall

/-! ## Every other call -/

/-- Only a wallet and the admin change these entries, but a refund lifts the cap. -/
theorem dispatch_entries (hcall : call.deploys = false) (h : dispatch env s call = .ok s') :
    ((board s').durationCap = (board s).durationCap ∧ (board s').saved = (board s).saved ∧
      ((board s').censured = (board s).censured ∧
        (board s').censuredCount = (board s).censuredCount) ∧
      ((board s').personalCap = (board s).personalCap ∨ ∃ c who, call = .claimRefund c who ∧
        (board s').personalCap = put (board s).personalCap c who none)) ∨
    EntryStep env s call (board s') := by
  cases dispatch_posting hcall h with
  | refund hboard =>
      rw [hboard]
      exact .inl ⟨rfl, rfl, ⟨rfl, rfl⟩, .inr ⟨_, _, rfl, rfl⟩⟩
  | entries hentry => exact .inr (dispatch_entry hentry h)
  | describe _ hboard =>
      rw [hboard]
      split <;> exact .inl ⟨rfl, rfl, ⟨rfl, rfl⟩, .inl rfl⟩
  | create _ _ hboard | handOver _ _ hboard | contribute _ hboard | batch hboard
  | cancel _ _ _ hboard | verify hboard | certify _ _ _ hboard | verifyBatch hboard
  | vote _ _ _ _ _ hboard | purge _ _ hboard | votingRules _ hboard | kept _ hboard =>
      rw [hboard]
      exact .inl ⟨rfl, rfl, ⟨rfl, rfl⟩, .inl rfl⟩

theorem dispatch_rules (hcall : call.deploys = false) (h : dispatch env s call = .ok s') :
    ((board s').voting.minVotesQuorum = (board s).voting.minVotesQuorum ∧
      (board s').voting.approvalThresholdBps = (board s).voting.approvalThresholdBps ∧
      (board s').voting.categoryThresholdBps = (board s).voting.categoryThresholdBps) ∨
    RuleStep env s call (board s').voting := by
  cases dispatch_posting hcall h with
  | votingRules hrule => exact .inr (dispatch_rule hrule h)
  | describe _ hboard =>
      rw [hboard]
      split <;> exact .inl ⟨rfl, rfl, rfl⟩
  | purge _ _ hboard =>
      rw [hboard]
      dsimp only
      split <;> exact .inl ⟨rfl, rfl, rfl⟩
  | vote _ _ _ _ _ hboard =>
      rw [hboard]
      dsimp only [VotingStore.count]
      split <;> exact .inl ⟨rfl, rfl, rfl⟩
  | create _ _ hboard | handOver _ _ hboard | contribute _ hboard | batch hboard
  | refund hboard | cancel _ _ _ hboard | verify hboard | certify _ _ _ hboard
  | verifyBatch hboard | entries _ hboard | kept _ hboard =>
      rw [hboard]
      exact .inl ⟨rfl, rfl, rfl⟩

end Dispatch

end ProofOfHeart
