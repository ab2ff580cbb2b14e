import ProofOfHeart.Account.Step

/-! # The board: what the store holds beside the money

The board reads every entry that the view leaves out: the counters and indexes that
are published, votes, statistics, caps, bookmarks and censures. The two together are
the whole store. Most entry points keep all of the board.
-/

namespace ProofOfHeart

open Checked Function Table

@[ext]
structure Board where
  verifiedCount : Nat
  cancelledCount : Nat
  creatorOf : Nat → Option Address
  titles : Address → Digest → Option Nat
  categoryBucket : Category → Nat → List Nat
  categoryCount : Category → Nat
  durationCap : Category → Option Nat
  voting : VotingStore
  leader : Nat → Option Address
  lastTime : Nat → Nat
  burst : Nat → Nat × Nat
  personalCap : Nat → Address → Option Int
  censured : Nat → Digest → Option CommentCensure
  censuredCount : Nat → Nat
  saved : Address → List Nat

def board (s : State) : Board where
  verifiedCount := s.campaigns.verifiedCampaignCount
  cancelledCount := s.campaigns.cancelledCampaignCount
  creatorOf := s.campaigns.campaignCreatorIndex
  titles := s.campaigns.creatorCampaignTitleIndex
  categoryBucket := s.campaigns.categoryCampaignsBucket
  categoryCount := s.campaigns.categoryCampaignCount
  durationCap := s.campaigns.categoryDurationCap
  voting := s.voting
  leader := s.contributions.topContributor
  lastTime := s.contributions.lastContributionTime
  burst := s.contributions.blockCampaignContributionCount
  personalCap := s.contributions.personalCap
  censured := s.campaigns.commentCensured
  censuredCount := s.campaigns.campaignCensuredCount
  saved := s.bookmarks.savedCampaigns

/-- Counts and weights of campaign `c` go back to zero; the marks stay. -/
def VotingStore.clear (w : VotingStore) (c : Nat) : VotingStore :=
  { w with
    approveVotes := update w.approveVotes c 0
    rejectVotes := update w.rejectVotes c 0
    approveWeight := update w.approveWeight c 0
    rejectWeight := update w.rejectWeight c 0 }

/-- One more vote of `voter` on campaign `c`. -/
def VotingStore.count (w : VotingStore) (c : Nat) (voter : Address) (approve : Bool) :
    VotingStore :=
  if approve then
    { w with
      approveVotes := update w.approveVotes c (w.approveVotes c + 1)
      approveWeight := update w.approveWeight c (w.approveWeight c + 1)
      hasVoted := put w.hasVoted c voter true }
  else
    { w with
      rejectVotes := update w.rejectVotes c (w.rejectVotes c + 1)
      rejectWeight := update w.rejectWeight c (w.rejectWeight c + 1)
      hasVoted := put w.hasVoted c voter true }

/-- The marks of the listed voters are removed. -/
def VotingStore.unmark (w : VotingStore) (c : Nat) (voters : List Address) : VotingStore :=
  { w with
    hasVoted := update w.hasVoted c
      (fun voter => if voter ∈ voters then false else w.hasVoted c voter) }

/-- Who leads once `who` holds `total`, when `held` is what the others hold. -/
def nextLeader (leader : Option Address) (held : Address → Int) (who : Address) (total : Int) :
    Address :=
  match leader with
  | some top => if top ≠ who ∧ total ≤ held top then top else who
  | none => who

theorem nextLeader_congr {leader : Option Address} {held held' : Address → Int} {who : Address}
    {total : Int} (h : ∀ other, other ≠ who → held other = held' other) :
    nextLeader leader held who total = nextLeader leader held' who total := by
  unfold nextLeader
  split
  next top =>
      by_cases htop : top = who
      · rw [if_neg fun hand => hand.1 htop, if_neg fun hand => hand.1 htop]
      · rw [h top htop]
  next => rfl

/-! ## Helpers of the entry points -/

section Helpers

variable {env : Env} {s s' : State} {c : Nat} {who : Address} {amount : Int}

@[simp] theorem board_setCampaign (campaign : Campaign) :
    board (setCampaign s c campaign) = board s := rfl

@[simp] theorem board_setCampaignVesting (delayDays reserveBps : Nat) :
    board (setCampaignVesting s c delayDays reserveBps) = board s := rfl

@[simp] theorem board_setCampaignStartTime (time : Nat) :
    board (setCampaignStartTime s c time) = board s := rfl

@[simp] theorem board_setCampaignCount (count : Nat) :
    board (setCampaignCount s count) = board s := rfl

@[simp] theorem board_setRevenuePool (pool : Int) : board (setRevenuePool s c pool) = board s := rfl

@[simp] theorem board_setCreatorTitleIndex (titleHash : Digest) :
    board (setCreatorTitleIndex s who titleHash c) = { board s with
      titles := put (board s).titles who titleHash (some c) } := rfl

@[simp] theorem board_setTopContributor : board (setTopContributor s c who) = { board s with
    leader := update (board s).leader c (some who) } := rfl

@[simp] theorem board_setLastContributionTime (time : Nat) :
    board (setLastContributionTime s c time) = { board s with
      lastTime := update (board s).lastTime c time } := rfl

@[simp] theorem board_setCreatorCampaignCount (count : Nat) :
    board (setCreatorCampaignCount s who count) = board s := rfl

@[simp] theorem board_setCreatorCampaignBucket (bucketIdx : Nat) (ids : List Nat) :
    board (setCreatorCampaignBucket s who bucketIdx ids) = board s := rfl

@[simp] theorem board_setCreatorCampaignPosition (position : Option (Nat × Nat)) :
    board (setCreatorCampaignPosition s who c position) = board s := rfl

@[simp] theorem board_setCampaignCreatorIndex :
    board (setCampaignCreatorIndex s c who) = { board s with
      creatorOf := update (board s).creatorOf c (some who) } := rfl

@[simp] theorem board_setCampaignToken (token : Option Address) :
    board (setCampaignToken s c token) = board s := by
  cases token <;> rfl

@[simp] theorem board_decrementContributorCount :
    board (decrementContributorCount s c) = board s := by
  dsimp only [decrementContributorCount]
  split <;> rfl

@[simp] theorem board_decrementActiveCampaignCount :
    board (decrementActiveCampaignCount s) = board s := by
  unfold decrementActiveCampaignCount
  split <;> rfl

@[simp] theorem board_setTotalRaisedGlobal (total : Int) :
    board (setTotalRaisedGlobal s total) = board s := rfl

theorem incrementActiveCampaignCount_board (h : incrementActiveCampaignCount s = .ok s') :
    board s' = board s := by
  obtain ⟨-, rfl⟩ := (incrementActiveCampaignCount_eq_ok s).mp h
  rfl

theorem incrementCancelledCampaignCount_board (h : incrementCancelledCampaignCount s = .ok s') :
    board s' = { board s with cancelledCount := (board s).cancelledCount + 1 } := by
  simp only [incrementCancelledCampaignCount, bind_eq_ok, okOr_eq_ok, Word.checkedAdd_eq_some,
    pure_eq_ok] at h
  obtain ⟨_, ⟨rfl, -⟩, rfl⟩ := h
  rfl

theorem incrementVerifiedCampaignCount_board (h : incrementVerifiedCampaignCount s = .ok s') :
    board s' = { board s with verifiedCount := (board s).verifiedCount + 1 } := by
  simp only [incrementVerifiedCampaignCount, bind_eq_ok, okOr_eq_ok, Word.checkedAdd_eq_some,
    pure_eq_ok] at h
  obtain ⟨_, ⟨rfl, -⟩, rfl⟩ := h
  rfl

@[simp] theorem board_removeVotingState :
    board (removeVotingState s c) = { board s with voting := (board s).voting.clear c } := rfl

theorem transfer_board {token sender recipient : Address}
    (h : transfer s token sender recipient amount = .ok s') : board s' = board s := by
  obtain ⟨-, -, rfl⟩ := transfer_eq_ok.mp h
  rfl

/-! ## Contributions -/

/-- The burst entry of a campaign after one more contribution to `record`. -/
def burstAfter (env : Env) (record : Campaign) (last : Nat × Nat) : Nat × Nat :=
  if record.amountRaised * bpsDenominator ≤ record.fundingGoal * autoPauseBurstCheckMinRaisedBps
  then last else (env.sequence, if env.sequence = last.1 then last.2 + 1 else 1)

theorem checkBurstGuard_board {campaign : Campaign}
    (h : checkBurstGuard env s c campaign amount = .ok s') :
    board s' = { board s with
      burst := update (board s).burst c (burstAfter env campaign ((board s).burst c)) } := by
  simp only [checkBurstGuard, nextBlockCount, bind_eq_ok, okOr_eq_ok, I128.checkedMul_eq_some] at h
  obtain ⟨_, -, _, -, _, -, _, ⟨rfl, -⟩, _, ⟨rfl, -⟩, h⟩ := h
  unfold burstAfter
  split at h
  next hquiet => rw [if_pos hquiet, update_eq_self, pure_eq_ok.mp h]
  next hbusy =>
      rw [if_neg hbusy]
      simp only [bind_eq_ok, pure_eq_ok] at h
      obtain ⟨count, hcount, _, -, rfl⟩ := h
      have hnext : count = if env.sequence = ((board s).burst c).1 then ((board s).burst c).2 + 1
          else 1 := by
        split at hcount
        next hsame =>
            rw [okOr_eq_ok, Word.checkedAdd_eq_some] at hcount
            exact hcount.1.symm.trans (if_pos hsame).symm
        next hnew =>
            exact (pure_eq_ok.mp hcount).symm.trans (if_neg hnew).symm
      rw [← hnext]
      rfl

theorem snapshotFeeRecipient_board {campaign : Campaign}
    (h : snapshotFeeRecipient s c campaign = .ok s') : board s' = board s := by
  unfold snapshotFeeRecipient at h
  split at h
  next =>
      simp only [bind_eq_ok, pure_eq_ok] at h
      obtain ⟨_, -, rfl⟩ := h
      rfl
  next => rw [pure_eq_ok.mp h]

theorem countContributor_board {lifetime : Int} (h : countContributor s c lifetime = .ok s') :
    board s' = board s := by
  unfold countContributor at h
  split at h
  next =>
      obtain ⟨-, rfl⟩ := (incrementContributorCount_eq_ok s c).mp h
      rfl
  next => rw [pure_eq_ok.mp h]

theorem updateContributionAccounting_board {campaign : Campaign} {current lifetime : Int}
    (h : updateContributionAccounting s c who campaign current lifetime amount = .ok s') :
    board s' = board s := by
  simp only [updateContributionAccounting, bind_eq_ok, okOr_eq_ok, pure_eq_ok] at h
  obtain ⟨s1, hs1, _, -, _, -, _, -, _, -, s2, hs2, _, -, rfl⟩ := h
  have hcount := countContributor_board hs2
  have hsnapshot := snapshotFeeRecipient_board hs1
  calc board (setTotalRaisedGlobal s2 _) = board s2 := rfl
    _ = board s1 := hcount
    _ = board s := hsnapshot

theorem acceptContribution_board (h : acceptContribution env s c who amount = .ok s') :
    ∃ campaign, s.campaigns.campaign c = some campaign ∧ board s' = { board s with
      burst := update (board s).burst c (burstAfter env campaign ((board s).burst c)) } := by
  simp only [acceptContribution, getCampaignOrError, bind_eq_ok, okOr_eq_ok] at h
  obtain ⟨_, -, campaign, hcampaign, _, -, _, -, _, -, _, -, _, -, _, -, _, -, s1, hs1, h⟩ := h
  exact ⟨campaign, hcampaign,
    (updateContributionAccounting_board h).trans (checkBurstGuard_board hs1)⟩

end Helpers

end ProofOfHeart
