import Mathlib.Data.Finset.Card
import ProofOfHeart.Account.History
import ProofOfHeart.Board.Kept

/-! # What a successful call posts on the board

`Posting` lists the ways in which a call changes the board, each with what the call
has checked of it. Together with `Effect` it describes a call completely.
-/

namespace ProofOfHeart

open Checked Function Table

/-! ## Counting campaigns by a flag -/

/-- The number of campaigns whose record has the flag. -/
def View.census (v : View) (flag : Campaign → Bool) : Nat :=
  (v.ids.filter fun c => (v.campaign c).any flag = true).card

section Census

variable {v v' : View} {c : Nat} {a : Account} {new : Campaign} {flag : Campaign → Bool}

theorem View.Registered.ids_of_any (reg : v.Registered) (h : (v.campaign c).any flag = true) :
    c ∈ v.ids := by
  obtain ⟨record, hrecord, -⟩ := (Option.any_eq_true _ _).mp h
  exact reg.mem_ids (View.account_of_campaign hrecord)

theorem View.census_congr (reg : v.Registered) (reg' : v'.Registered)
    (h : ∀ c, (v'.campaign c).any flag = (v.campaign c).any flag) :
    v'.census flag = v.census flag := by
  have hsame : (v'.ids.filter fun c => (v'.campaign c).any flag = true) =
      v.ids.filter fun c => (v.campaign c).any flag = true := by
    ext c
    simp only [Finset.mem_filter, h]
    exact ⟨fun hc => ⟨reg.ids_of_any hc.2, hc.2⟩,
      fun hc => ⟨reg'.ids_of_any ((h c).trans hc.2), hc.2⟩⟩
  rw [View.census, hsame, View.census]

/-- Writing one record counts by the difference of its flags. -/
theorem View.census_write (hmem : c ∈ v.ids) (ha : v.account c = some a)
    (hids : v'.campaignCount = v.campaignCount)
    (hcampaign : v'.campaign = update v.campaign c (some new)) :
    v'.census flag + (flag a.record).toNat = v.census flag + (flag new).toNat := by
  have hold := (View.account_eq_some.mp ha).1
  have hsplit : ∀ w : View, w.ids = v.ids → w.census flag =
      ((v.ids.erase c).filter fun other => (w.campaign other).any flag = true).card +
        ((w.campaign c).any flag).toNat := by
    intro w hw
    have hinsert := Finset.insert_erase hmem
    rw [View.census, hw]
    conv_lhs => rw [← hinsert]
    rw [Finset.filter_insert]
    cases hflag : (w.campaign c).any flag with
    | false => simp
    | true =>
        rw [if_pos rfl, Finset.card_insert_of_notMem (by simp)]
        rfl
  have hsame : v'.ids = v.ids := congrArg (Finset.Icc 1) hids
  have hrest : ((v.ids.erase c).filter fun other => (v'.campaign other).any flag = true) =
      (v.ids.erase c).filter fun other => (v.campaign other).any flag = true := by
    refine Finset.filter_congr fun other hother => ?_
    rw [hcampaign, update_of_ne (Finset.ne_of_mem_erase hother)]
  rw [hsplit v' hsame, hsplit v rfl, hrest, hcampaign, update_self, hold]
  simp only [Option.any_some]
  omega

end Census

/-! ## The list of changes -/

/-- The calls that keep the whole board. -/
def Call.keepsBoard : Call → Bool
  | .init .. | .createCampaign _ | .createCampaignWithToken .. | .contribute ..
  | .batchContribute .. | .claimRefund .. | .cancelCampaign _ | .adminCancelCampaign ..
  | .updateCampaignDescription .. | .acceptCampaignTransfer _ | .voteOnCampaign ..
  | .verifyCampaign _ | .verifyCampaigns _ | .verifyCampaignWithVotes _ | .purgeVotingState ..
  | .setVotingParams .. | .setMinVotingBalance .. | .setCategoryVotingThreshold ..
  | .removeCategoryVotingThreshold .. | .setCategoryDurationCap ..
  | .removeCategoryDurationCap .. | .setPersonalCap .. | .removePersonalCap ..
  | .saveCampaign .. | .removeSavedCampaign .. | .batchSaveCampaigns ..
  | .clearSavedCampaigns _ | .censureComment .. | .uncensureComment .. => false
  | _ => true

/-- The calls that set the rules of voting. -/
def Call.setsVotingRules : Call → Bool
  | .setVotingParams .. | .setMinVotingBalance .. | .setCategoryVotingThreshold ..
  | .removeCategoryVotingThreshold .. => true
  | _ => false

/-- The calls on the caps of categories and contributors, bookmarks and censures. -/
def Call.setsEntries : Call → Bool
  | .setCategoryDurationCap .. | .removeCategoryDurationCap .. | .setPersonalCap ..
  | .removePersonalCap .. | .saveCampaign .. | .removeSavedCampaign .. | .batchSaveCampaigns ..
  | .clearSavedCampaigns _ | .censureComment .. | .uncensureComment .. => true
  | _ => false

inductive Posting (env : Env) (s s' : State) : Call → Prop
  | create {call : Call} {params : CreateCampaignParams}
      (hcall : call = .createCampaign params ∨
        ∃ token, call = .createCampaignWithToken params token)
      (fresh : (board s).titles params.creator (env.host.sha256 params.title) = none)
      (h : board s' = { board s with
        creatorOf := update (board s).creatorOf (s.campaigns.campaignCount + 1)
          (some params.creator)
        titles := put (board s).titles params.creator (env.host.sha256 params.title)
          (some (s.campaigns.campaignCount + 1))
        categoryBucket := put (board s).categoryBucket params.category
          ((board s).categoryCount params.category / categoryCampaignsBucketSize)
          ((board s).categoryBucket params.category
            ((board s).categoryCount params.category / categoryCampaignsBucketSize) ++
              [s.campaigns.campaignCount + 1])
        categoryCount := update (board s).categoryCount params.category
          ((board s).categoryCount params.category + 1) }) : Posting env s s' call
  | handOver {c : Nat} {record : Campaign} {heir : Address}
      (hrecord : s.campaigns.campaign c = some record)
      (pending : record.pendingCreator = some heir)
      (h : board s' = { board s with creatorOf := update (board s).creatorOf c (some heir) }) :
      Posting env s s' (.acceptCampaignTransfer c)
  | contribute {c : Nat} {who : Address} {amount : Int} {record : Campaign}
      (hrecord : s.campaigns.campaign c = some record)
      (h : board s' = { board s with
        leader := update (board s).leader c (some (nextLeader ((board s).leader c)
          (s.contributions.contribution c) who (s.contributions.contribution c who + amount)))
        lastTime := update (board s).lastTime c env.timestamp
        burst := update (board s).burst c (burstAfter env record ((board s).burst c)) }) :
      Posting env s s' (.contribute c who amount)
  | batch {who : Address} {items : List (Nat × Int)} {burst : Nat → Nat × Nat}
      (h : board s' = { board s with burst := burst }) :
      Posting env s s' (.batchContribute who items)
  | refund {c : Nat} {who : Address}
      (h : board s' = { board s with personalCap := put (board s).personalCap c who none }) :
      Posting env s s' (.claimRefund c who)
  | cancel {call : Call} {c : Nat} {record : Campaign}
      (hcall : call = .cancelCampaign c ∨
        ∃ admin reason, call = .adminCancelCampaign admin c reason)
      (hrecord : s.campaigns.campaign c = some record) (live : record.isCancelled = false)
      (h : board s' = { board s with
        cancelledCount := (board s).cancelledCount + 1
        voting := (board s).voting.clear c }) : Posting env s s' call
  | describe {c : Nat} {description : Text} {record : Campaign}
      (hrecord : s.campaigns.campaign c = some record)
      (h : board s' = if record.isVerified then
          { board s with
            verifiedCount := (board s).verifiedCount - 1
            voting := (board s).voting.clear c }
        else board s) : Posting env s s' (.updateCampaignDescription c description)
  | verify {c : Nat}
      (h : board s' = { board s with verifiedCount := (board s).verifiedCount + 1 }) :
      Posting env s s' (.verifyCampaign c)
  | certify {c : Nat} {record : Campaign} (hrecord : s.campaigns.campaign c = some record)
      (unverified : record.isVerified = false)
      (quorum : getMinVotesQuorum s ≤
        (board s).voting.approveVotes c + (board s).voting.rejectVotes c)
      (h : board s' = { board s with verifiedCount := (board s).verifiedCount + 1 }) :
      Posting env s s' (.verifyCampaignWithVotes c)
  | verifyBatch {ids : List Nat} {count : Nat}
      (h : board s' = { board s with verifiedCount := count })
      (counted : (∀ c a, (view s).account c = some a → c ∈ (view s).ids) →
        count + (view s).census Campaign.isVerified =
        (board s).verifiedCount + (view s').census Campaign.isVerified) :
      Posting env s s' (.verifyCampaigns ids)
  | vote {c : Nat} {voter : Address} {approve : Bool} {record : Campaign}
      (hrecord : s.campaigns.campaign c = some record) (unverified : record.isVerified = false)
      (unpaid : record.fundsWithdrawn = false) (live : record.isCancelled = false)
      (fresh : (board s).voting.hasVoted c voter = false)
      (h : board s' = { board s with voting := (board s).voting.count c voter approve }) :
      Posting env s s' (.voteOnCampaign c voter approve)
  | purge {c : Nat} {voters : List Address} {finalize : Bool} {record : Campaign}
      (hrecord : s.campaigns.campaign c = some record)
      (ended : record.fundsWithdrawn = true ∨ record.isCancelled = true)
      (h : board s' = { board s with
        voting := if finalize then ((board s).voting.unmark c voters).clear c
          else (board s).voting.unmark c voters }) :
      Posting env s s' (.purgeVotingState c voters finalize)
  | votingRules {call : Call} (hcall : call.setsVotingRules = true) {quorum bps : Option Nat}
      {balance : Int} {category : Category → Option Nat}
      (h : board s' = { board s with voting := { (board s).voting with
        minVotesQuorum := quorum, approvalThresholdBps := bps, minVotingBalance := balance,
        categoryThresholdBps := category } }) : Posting env s s' call
  | entries {call : Call} (hcall : call.setsEntries = true) {cap : Category → Option Nat}
      {personal : Nat → Address → Option Int} {censured : Nat → Digest → Option CommentCensure}
      {count : Nat → Nat} {saved : Address → List Nat}
      (h : board s' = { board s with
        durationCap := cap, personalCap := personal, censured := censured, censuredCount := count,
        saved := saved }) : Posting env s s' call
  | kept {call : Call} (hcall : call.keepsBoard = true) (h : board s' = board s) :
      Posting env s s' call

/-! ## Every call posts what is listed -/

section Dispatch

variable {env : Env} {s s' : State} {call : Call} {c : Nat} {who admin : Address}

theorem appendToCategory_board {category : Category}
    (h : appendToCategory s category c = .ok s') : board s' = { board s with
      categoryBucket := put (board s).categoryBucket category
        ((board s).categoryCount category / categoryCampaignsBucketSize)
        ((board s).categoryBucket category
          ((board s).categoryCount category / categoryCampaignsBucketSize) ++ [c])
      categoryCount := update (board s).categoryCount category
        ((board s).categoryCount category + 1) } := by
  simp only [appendToCategory, bind_eq_ok, okOr_eq_ok, Word.checkedAdd_eq_some, pure_eq_ok] at h
  obtain ⟨_, ⟨rfl, -⟩, rfl⟩ := h
  rfl

theorem appendToCreator_board (h : appendToCreator s who c = .ok s') :
    board s' = { board s with creatorOf := update (board s).creatorOf c (some who) } := by
  simp only [appendToCreator, bind_eq_ok, pure_eq_ok] at h
  obtain ⟨_, -, rfl⟩ := h
  simp only [board_setCampaignCreatorIndex, board_setCreatorCampaignCount,
    board_setCreatorCampaignPosition, board_setCreatorCampaignBucket]

theorem checkCreateParams_fresh {params : CreateCampaignParams} {titleHash : Digest}
    (h : checkCreateParams env s params = .ok titleHash) :
    titleHash = env.host.sha256 params.title ∧
      (board s).titles params.creator (env.host.sha256 params.title) = none := by
  simp only [checkCreateParams, hashText, bind_eq_ok, rejectIf_eq_ok, pure_eq_ok] at h
  obtain ⟨_, -, _, -, _, -, _, -, _, -, _, ⟨_, -, rfl⟩, _, hfresh, _, -, _, -, _, -, _, -, _, -,
    rfl⟩ := h
  exact ⟨rfl, not_not.mp hfresh⟩

theorem createCampaignEntry_posting {params : CreateCampaignParams} {token : Option Address}
    {id : Nat} (h : createCampaignEntry env s params token = .ok (id, s'))
    (hcall : call = .createCampaign params ∨
      ∃ token, call = .createCampaignWithToken params token) : Posting env s s' call := by
  simp only [createCampaignEntry, createCampaignInner, bind_eq_ok, okOr_eq_ok,
    Word.checkedAdd_eq_some, pure_eq_ok, Prod.mk.injEq] at h
  obtain ⟨⟨id', s1⟩, ⟨_, -, _, -, _, -, titleHash, hcheck, pinned, -, _, ⟨rfl, -⟩, _, -, s2, hs2,
    s3, hs3, rfl, rfl⟩, s4, hactive, rfl, rfl⟩ := h
  obtain ⟨rfl, hfresh⟩ := checkCreateParams_fresh hcheck
  have hcategory := appendToCategory_board hs2
  have hcreator := appendToCreator_board hs3
  refine .create hcall hfresh ((incrementActiveCampaignCount_board hactive).trans ?_)
  simp only [board_setCreatorTitleIndex, hcreator, hcategory, board_setRevenuePool,
    board_setCampaignCount, board_setCampaignStartTime, board_setCampaign, board_setCampaignToken,
    board_setCampaignVesting]

theorem removeFromCreator_board : Keeps board s (removeFromCreator s who c) :=
  .check fun _ => .check fun _ => .check fun _ => .check fun _ => .done <| by
    simp only [board_setCreatorCampaignCount, board_setCreatorCampaignPosition,
      board_setCreatorCampaignBucket]
    split
    next => exact board_setCreatorCampaignPosition _
    next => rfl

theorem acceptCampaignTransfer_posting (h : acceptCampaignTransfer env s c = .ok s') :
    Posting env s s' (.acceptCampaignTransfer c) := by
  simp only [acceptCampaignTransfer, getCampaignOrError, bind_eq_ok, okOr_eq_ok, pure_eq_ok] at h
  obtain ⟨campaign, hcampaign, _, -, _, -, heir, hheir, _, -, _, -, s1, hs1, s2, hs2, rfl⟩ := h
  refine .handOver hcampaign hheir ?_
  rw [board_setCampaign, appendToCreator_board hs2, removeFromCreator_board s1 hs1]

theorem updateTopContributor_board {newTotal : Int} :
    board (updateTopContributor s c who newTotal) = { board s with
      leader := update (board s).leader c (some (nextLeader ((board s).leader c)
        (s.contributions.contribution c) who newTotal)) } := by
  have hleader : (board s).leader c = s.contributions.topContributor c := rfl
  rw [hleader]
  unfold updateTopContributor nextLeader
  cases htop : s.contributions.topContributor c with
  | none => rfl
  | some top =>
      dsimp only
      split
      next hkeep => rw [← hleader.trans htop, update_eq_self]
      next => rfl

theorem contribute_posting {amount : Int} (h : contribute env s c who amount = .ok s') :
    Posting env s s' (.contribute c who amount) := by
  simp only [contribute, bind_eq_ok, okOr_eq_ok, I128.checkedAdd_eq_some] at h
  obtain ⟨_, -, _, -, s1, hs1, _, ⟨rfl, -⟩, token, -, h⟩ := h
  obtain ⟨campaign, hcampaign, hboard⟩ := acceptContribution_board hs1
  obtain ⟨a, ha, -, -, hview⟩ := acceptContribution_spec hs1
  have hothers (other : Address) (hother : other ≠ who) :
      s1.contributions.contribution c other = s.contributions.contribution c other := by
    rw [contribution_view, contribution_view, hview]
    simp [View.setAccount, Account.contribute, hother, (View.account_eq_some.mp ha).2]
  refine .contribute hcampaign ((transfer_board h).trans ?_)
  rw [board_setLastContributionTime, updateTopContributor_board, hboard, nextLeader_congr hothers]

theorem batchContributeItem_board {progress progress' : BatchProgress} {item : Nat × Int}
    (h : batchContributeItem env who progress item = .ok progress') :
    ∃ burst, board progress'.state = { board progress.state with burst := burst } := by
  simp only [batchContributeItem, bind_eq_ok, pure_eq_ok] at h
  obtain ⟨s1, hs1, _, -, _, -, _, -, rfl⟩ := h
  obtain ⟨campaign, -, hboard⟩ := acceptContribution_board hs1
  exact ⟨_, hboard⟩

theorem payOwed_board {debts : List (Address × Int)} (h : each (payOwed who) s debts = .ok s') :
    board s' = board s :=
  each_preserves (fun t => board t = board s)
    (fun _ _ _ hmid hstep => (transfer_board hstep).trans hmid) _ _ _ rfl h

theorem batchContribute_posting {items : List (Nat × Int)}
    (h : batchContribute env s who items = .ok s') :
    Posting env s s' (.batchContribute who items) := by
  simp only [batchContribute, bind_eq_ok] at h
  obtain ⟨_, -, _, -, _, -, progress, hprogress, h⟩ := h
  have hitems : ∃ burst, board progress.state = { board s with burst := burst } := by
    refine each_preserves (fun progress : BatchProgress =>
      ∃ burst, board progress.state = { board s with burst := burst }) ?_ _ _ _ ⟨_, rfl⟩ hprogress
    rintro mid item next ⟨burst, hmid⟩ hstep
    obtain ⟨burst', hnext⟩ := batchContributeItem_board hstep
    exact ⟨burst', by rw [hnext, hmid]⟩
  obtain ⟨burst, hburst⟩ := hitems
  exact .batch ((payOwed_board h).trans hburst)

theorem deductRefund_board {campaign : Campaign} {amount : Int} :
    Keeps board s (deductRefund s campaign amount) :=
  .branch (.done rfl) (.check fun _ => .done rfl)

theorem claimRefund_posting (h : claimRefund env s c who = .ok s') :
    Posting env s s' (.claimRefund c who) := by
  simp only [claimRefund, bind_eq_ok] at h
  obtain ⟨_, -, _, -, campaign, -, _, -, _, -, _, -, s1, hs1, token, -, h⟩ := h
  refine .refund ((transfer_board h).trans ?_)
  rw [deductRefund_board s1 hs1, board_setCampaign, board_decrementContributorCount]
  rfl

theorem recordCancellation_board {campaign : Campaign}
    (h : recordCancellation s c campaign = .ok s') : board s' = { board s with
      cancelledCount := (board s).cancelledCount + 1
      voting := (board s).voting.clear c } := by
  simp only [recordCancellation, bind_eq_ok] at h
  obtain ⟨s1, hs1, h⟩ := h
  have hdeduct : Keeps board s (deductRaised s campaign) :=
    .branch (.check fun _ => .done rfl) (.done rfl)
  rw [incrementCancelledCampaignCount_board h, board_decrementActiveCampaignCount,
    board_removeVotingState, board_setCampaign, hdeduct s1 hs1]

theorem notCancelled_of_active {campaign : Campaign} {u : Unit}
    (h : requireActiveCampaign campaign = .ok u) : campaign.isCancelled = false := by
  simp only [requireActiveCampaign, rejectIf_eq_ok, not_or, Bool.not_eq_true] at h
  exact h.1

theorem cancelCampaign_posting (h : cancelCampaign env s c = .ok s') :
    Posting env s s' (.cancelCampaign c) := by
  simp only [cancelCampaign, getCreatorCampaign, getCampaignOrError, bind_eq_ok, okOr_eq_ok,
    pure_eq_ok] at h
  obtain ⟨_, ⟨campaign, hcampaign, _, -, rfl⟩, _, -, _, hlive, _, -, _, -, _, -, s1, hs1, h⟩ := h
  have hrefund :
      Keeps board s1 (refundRevenuePool s1 c campaign.creator (s.revenue.revenuePool c)) :=
    .branch (.check fun _ => transfer_keeps) (.done rfl)
  have hpool :
      board (if s.revenue.revenuePool c > 0 then setRevenuePool s c 0 else s) = board s := by
    split <;> rfl
  refine .cancel (.inl rfl) hcampaign (notCancelled_of_active hlive) ?_
  rw [hrefund s' h, recordCancellation_board hs1, hpool]

theorem adminCancelCampaign_posting {reason : Text}
    (h : adminCancelCampaign env s admin c reason = .ok s') :
    Posting env s s' (.adminCancelCampaign admin c reason) := by
  simp only [adminCancelCampaign, getCampaignOrError, bind_eq_ok, okOr_eq_ok] at h
  obtain ⟨_, -, _, -, campaign, hcampaign, _, hlive, _, -, _, -, _, -, h⟩ := h
  exact .cancel (.inr ⟨admin, reason, rfl⟩) hcampaign (notCancelled_of_active hlive)
    (recordCancellation_board h)

theorem updateCampaignDescription_posting {description : Text}
    (h : updateCampaignDescription env s c description = .ok s') :
    Posting env s s' (.updateCampaignDescription c description) := by
  simp only [updateCampaignDescription, getCreatorCampaign, getCampaignOrError, bind_eq_ok,
    okOr_eq_ok, pure_eq_ok] at h
  obtain ⟨_, ⟨campaign, hcampaign, _, -, rfl⟩, _, -, _, -, _, -, rfl⟩ := h
  refine .describe hcampaign ?_
  split <;> rfl

/-! ### Votes -/

theorem adminVerify_board (h : adminVerify s c = .ok (s', .ok ())) :
    board s' = { board s with verifiedCount := (board s).verifiedCount + 1 } := by
  simp only [adminVerify, attempt_ok, Except.ok.injEq, Prod.mk.injEq, and_true] at h
  obtain ⟨campaign, -, _, -, _, -, _, -, _, -, s1, hs1, rfl⟩ := h
  rw [incrementVerifiedCampaignCount_board hs1, board_setCampaign]

theorem verifyCampaign_posting (h : verifyCampaign env s c = .ok s') :
    Posting env s s' (.verifyCampaign c) := by
  simp only [verifyCampaign, bind_eq_ok] at h
  obtain ⟨_, -, _, -, _, -, h⟩ := h
  exact .verify (adminVerify_board (commit_eq_ok.mp h))

theorem verifyCampaignWithVotes_posting (h : verifyCampaignWithVotes s c = .ok s') :
    Posting env s s' (.verifyCampaignWithVotes c) := by
  simp only [verifyCampaignWithVotes, verifyWithVotes, getCampaignOrError, bind_eq_ok, okOr_eq_ok,
    rejectIf_eq_ok, Word.checkedAdd_eq_some] at h
  obtain ⟨_, -, campaign, hcampaign, _, -, _, hunverified, _, -, _, ⟨rfl, -⟩, _, hquorum, _, -, _,
    -, h⟩ := h
  exact .certify hcampaign (by simpa using hunverified) (Nat.le_of_not_lt hquorum)
    ((incrementVerifiedCampaignCount_board h).trans (by rw [board_setCampaign]))

/-- A batch raises the counter by the number of campaigns it verifies. -/
theorem verifyAll_board {ids : List Nat} {progress progress' : VerifyProgress}
    (h : each verifyOne progress ids = .ok progress') :
    ∃ count, board progress'.state = { board progress.state with verifiedCount := count } ∧
      ((∀ c a, (view progress.state).account c = some a → c ∈ (view progress.state).ids) →
        count + (view progress.state).census Campaign.isVerified =
        (board progress.state).verifiedCount +
          (view progress'.state).census Campaign.isVerified) := by
  induction ids generalizing progress with
  | nil =>
      rw [each_nil, Except.ok.injEq] at h
      subst h
      exact ⟨_, rfl, fun _ => rfl⟩
  | cons id rest ih =>
      obtain ⟨mid, hmid, hrest⟩ := each_cons_eq_ok.mp h
      obtain ⟨count, hboard, hcount⟩ := ih hrest
      rcases verifyOne_ok hmid with hsame | hverified
      · rw [hsame] at hboard hcount
        exact ⟨count, hboard, hcount⟩
      · obtain ⟨a, ha, hverifiable, hview⟩ := adminVerify_ok hverified
        have hnext := adminVerify_board hverified
        refine ⟨count, by rw [hboard, hnext], fun reg => ?_⟩
        have hcampaign : (view mid.state).campaign =
            update (view progress.state).campaign id (some a.verify.record) := by
          rw [hview]
          rfl
        have hids : (view mid.state).campaignCount = (view progress.state).campaignCount := by
          rw [hview]
          rfl
        have hverified : Campaign.isVerified a.verify.record = true := rfl
        have hwrite : _ + (Campaign.isVerified a.record).toNat =
            _ + (Campaign.isVerified a.verify.record).toNat :=
          View.census_write (reg id a ha) ha hids hcampaign
        rw [hverifiable.unverified, hverified] at hwrite
        have hmid := hcount fun c b hb => ?_
        · rw [hnext] at hmid
          simp only [Bool.toNat_true, Bool.toNat_false] at hwrite
          dsimp only at hmid
          omega
        · have hsame : (view mid.state).ids = (view progress.state).ids :=
            congrArg (Finset.Icc 1) hids
          rw [hview, View.setAccount_account] at hb
          rw [hsame]
          split at hb
          next hc => exact hc ▸ reg id a ha
          next => exact reg c b hb

theorem verifyCampaigns_posting {ids : List Nat} {progress : VerifyProgress}
    (h : verifyCampaigns env s ids = .ok progress) :
    Posting env s progress.state (.verifyCampaigns ids) := by
  simp only [verifyCampaigns, bind_eq_ok] at h
  obtain ⟨_, -, _, -, _, -, h⟩ := h
  obtain ⟨count, hboard, hcount⟩ := verifyAll_board h
  exact .verifyBatch hboard hcount

theorem voteOnCampaign_posting {approve : Bool}
    (h : voteOnCampaign env s c who approve = .ok s') :
    Posting env s s' (.voteOnCampaign c who approve) := by
  simp only [voteOnCampaign, castVote, getCampaignOrError, requireUnverifiedCampaign, bind_eq_ok,
    okOr_eq_ok, rejectIf_eq_ok, pure_eq_ok] at h
  obtain ⟨_, -, _, -, campaign, hcampaign, _, hunpaid, _, hlive, _, -, _, hunverified, _, -, _, -,
    _, -, _, hfresh, s1, hs1, rfl⟩ := h
  refine .vote hcampaign (by simpa using hunverified) (by simpa using hunpaid)
    (notCancelled_of_active hlive) (Bool.eq_false_of_not_eq_true hfresh) ?_
  cases approve with
  | true =>
      simp only [countVote, if_true, bind_eq_ok, okOr_eq_ok, Word.checkedAdd_eq_some,
        I128.checkedAdd_eq_some, pure_eq_ok] at hs1
      obtain ⟨_, ⟨rfl, -⟩, _, ⟨rfl, -⟩, rfl⟩ := hs1
      rfl
  | false =>
      simp only [countVote, Bool.false_eq_true, if_false, bind_eq_ok, okOr_eq_ok,
        Word.checkedAdd_eq_some, I128.checkedAdd_eq_some, pure_eq_ok] at hs1
      obtain ⟨_, ⟨rfl, -⟩, _, ⟨rfl, -⟩, rfl⟩ := hs1
      rfl

theorem board_unmarkVoters (voters : List Address) (s : State) :
    board (voters.foldl (fun s voter => setHasVoted s c voter false) s) =
      { board s with voting := (board s).voting.unmark c voters } := by
  induction voters generalizing s with
  | nil => simp [VotingStore.unmark]
  | cons voter rest ih =>
      rw [List.foldl_cons, ih]
      have hmarks : (board (setHasVoted s c voter false)).voting.unmark c rest =
          (board s).voting.unmark c (voter :: rest) := by
        simp only [VotingStore.unmark]
        congr 1
        funext id who
        have hput : (board (setHasVoted s c voter false)).voting.hasVoted =
            put (board s).voting.hasVoted c voter false := rfl
        by_cases hid : id = c
        · by_cases hwho : who = voter
          · simp [hput, hid, hwho, put_apply]
          · simp [hput, hid, hwho, put_apply]
        · simp [hput, hid]
      rw [hmarks]
      rfl

theorem purgeVotingState_posting {voters : List Address} {finalize : Bool}
    (h : purgeVotingState env s c voters finalize = .ok s') :
    Posting env s s' (.purgeVotingState c voters finalize) := by
  simp only [purgeVotingState, getCampaignOrError, bind_eq_ok, okOr_eq_ok, rejectIf_eq_ok,
    pure_eq_ok] at h
  obtain ⟨_, -, campaign, hcampaign, _, hover, _, -, _, -, rfl⟩ := h
  refine .purge hcampaign (by simpa only [not_and_or, not_not] using hover) ?_
  cases finalize with
  | true => simp [board_unmarkVoters]
  | false => simp [board_unmarkVoters]

/-- Once the contract is initialised, whatever a call posts is listed. -/
theorem dispatch_posting (hcall : call.deploys = false)
    (h : dispatch env s call = .ok s') : Posting env s s' call := by
  cases call with
  | init admin token platformFee => cases hcall
  | createCampaign params =>
      simp only [dispatch, bind_eq_ok, pure_eq_ok] at h
      obtain ⟨⟨id, t⟩, ht, rfl⟩ := h
      exact createCampaignEntry_posting ht (.inl rfl)
  | createCampaignWithToken params token =>
      simp only [dispatch, bind_eq_ok, pure_eq_ok] at h
      obtain ⟨⟨id, t⟩, ht, rfl⟩ := h
      exact createCampaignEntry_posting ht (.inr ⟨token, rfl⟩)
  | contribute c who amount => exact contribute_posting h
  | claimRefund c who => exact claimRefund_posting h
  | batchContribute who items => exact batchContribute_posting h
  | withdrawFunds c => exact .kept rfl (withdrawFunds_board s' h)
  | withdrawReserve c => exact .kept rfl (withdrawReserve_board s' h)
  | setMilestones c milestones => exact .kept rfl (setMilestones_board s' h)
  | verifyMilestone admin c milestoneId => exact .kept rfl (verifyMilestone_board s' h)
  | claimMilestone c milestoneId => exact .kept rfl (claimMilestone_board s' h)
  | cancelCampaign c => exact cancelCampaign_posting h
  | adminCancelCampaign admin c reason => exact adminCancelCampaign_posting h
  | updateCampaign c title description => exact .kept rfl (updateCampaign_board s' h)
  | updateCampaignDescription c description => exact updateCampaignDescription_posting h
  | extendCampaignDeadline c days => exact .kept rfl (extendCampaignDeadline_board s' h)
  | initiateCampaignTransfer c heir => exact .kept rfl (initiateCampaignTransfer_board s' h)
  | acceptCampaignTransfer c => exact acceptCampaignTransfer_posting h
  | cancelCampaignTransfer c => exact .kept rfl (cancelCampaignTransfer_board s' h)
  | depositRevenue c amount => exact .kept rfl (depositRevenue_board s' h)
  | claimRevenue c who => exact .kept rfl (claimRevenue_board s' h)
  | claimCreatorRevenue c => exact .kept rfl (claimCreatorRevenue_board s' h)
  | verifyCampaign c => exact verifyCampaign_posting h
  | verifyCampaigns ids =>
      simp only [dispatch, bind_eq_ok, pure_eq_ok] at h
      obtain ⟨progress, hprogress, rfl⟩ := h
      exact verifyCampaigns_posting hprogress
  | verifyCampaignWithVotes c => exact verifyCampaignWithVotes_posting h
  | setCampaignFeeOverride c admin feeBps => exact .kept rfl (setCampaignFeeOverride_board s' h)
  | setTokenAllowed token allowed => exact .kept rfl (setTokenAllowedFn_board s' h)
  | setVestingParams admin delayDays reserveBps => exact .kept rfl (setVestingParams_board s' h)
  | resumeCampaign c caller => exact .kept rfl (resumeCampaign_board s' h)
  | pause => exact .kept rfl (pause_board s' h)
  | unpause => exact .kept rfl (unpause_board s' h)
  | emergencyPause caller => exact .kept rfl (emergencyPause_board s' h)
  | setEmergencyPauseSigners admin signers =>
      exact .kept rfl (setEmergencyPauseSigners_board s' h)
  | setCreationDisabled disabled => exact .kept rfl (setCreationDisabledFn_board s' h)
  | updatePlatformFee newFee => exact .kept rfl (updatePlatformFee_board s' h)
  | setMaxContributionPerTx admin amount =>
      exact .kept rfl (setMaxContributionPerTransaction_board s' h)
  | setMinCampaignFundingGoal admin goal =>
      exact .kept rfl (setMinCampaignFundingGoalFn_board s' h)
  | setMaxCampaignFundingGoal admin goal =>
      exact .kept rfl (setMaxCampaignFundingGoalFn_board s' h)
  | proposeTokenUpdate admin token => exact .kept rfl (proposeTokenUpdate_board s' h)
  | acceptTokenUpdate admin => exact .kept rfl (acceptTokenUpdate_board s' h)
  | cancelTokenUpdate admin => exact .kept rfl (cancelTokenUpdate_board s' h)
  | setTokenUpdateDelaySecs admin delaySecs =>
      exact .kept rfl (setTokenUpdateDelaySecsFn_board s' h)
  | initiateAdminTransfer admin heir => exact .kept rfl (initiateAdminTransfer_board s' h)
  | acceptAdminTransfer => exact .kept rfl (acceptAdminTransfer_board s' h)
  | cancelAdminTransfer admin => exact .kept rfl (cancelAdminTransfer_board s' h)
  | updateAdmin heir => exact .kept rfl (updateAdmin_board s' h)
  | migrate admin version => exact .kept rfl (migrate_board s' h)
  | voteOnCampaign c voter approve => exact voteOnCampaign_posting h
  | purgeVotingState c voters finalize => exact purgeVotingState_posting h
  | setVotingParams admin quorum threshold =>
      simp only [dispatch, setVotingParams, setParams, bind_eq_ok, pure_eq_ok] at h
      obtain ⟨_, -, _, -, rfl⟩ := h
      exact .votingRules rfl rfl
  | setMinVotingBalance admin balance =>
      simp only [dispatch, setMinVotingBalanceFn, bind_eq_ok, pure_eq_ok] at h
      obtain ⟨_, -, _, -, rfl⟩ := h
      exact .votingRules rfl rfl
  | setCategoryVotingThreshold admin category bps =>
      simp only [dispatch, setCategoryVotingThreshold, bind_eq_ok, pure_eq_ok] at h
      obtain ⟨_, -, _, -, rfl⟩ := h
      exact .votingRules rfl rfl
  | removeCategoryVotingThreshold admin category =>
      simp only [dispatch, removeCategoryVotingThreshold, bind_eq_ok, pure_eq_ok] at h
      obtain ⟨_, -, rfl⟩ := h
      exact .votingRules rfl rfl
  | setCategoryDurationCap admin category days =>
      simp only [dispatch, setCategoryDurationCap, bind_eq_ok, pure_eq_ok] at h
      obtain ⟨_, -, _, -, rfl⟩ := h
      exact .entries rfl rfl
  | removeCategoryDurationCap admin category =>
      simp only [dispatch, removeCategoryDurationCap, bind_eq_ok, pure_eq_ok] at h
      obtain ⟨_, -, rfl⟩ := h
      exact .entries rfl rfl
  | setPersonalCap c who amount =>
      simp only [dispatch, setPersonalCapFn, bind_eq_ok, pure_eq_ok] at h
      obtain ⟨_, -, _, -, _, -, _, -, _, -, _, -, rfl⟩ := h
      exact .entries rfl rfl
  | removePersonalCap c who =>
      simp only [dispatch, removePersonalCapFn, bind_eq_ok, pure_eq_ok] at h
      obtain ⟨_, -, _, -, _, -, _, -, rfl⟩ := h
      exact .entries rfl rfl
  | saveCampaign user c =>
      simp only [dispatch, saveCampaign, bind_eq_ok, pure_eq_ok] at h
      obtain ⟨_, -, _, -, _, -, _, -, rfl⟩ := h
      exact .entries rfl rfl
  | removeSavedCampaign user c =>
      simp only [dispatch, removeSavedCampaign, bind_eq_ok, pure_eq_ok] at h
      obtain ⟨_, -, _, -, rfl⟩ := h
      exact .entries rfl rfl
  | batchSaveCampaigns user ids =>
      simp only [dispatch, batchSaveCampaigns, bind_eq_ok, pure_eq_ok] at h
      obtain ⟨_, -, _, -, rfl⟩ := h
      exact .entries rfl rfl
  | clearSavedCampaigns user =>
      simp only [dispatch, clearSavedCampaigns, bind_eq_ok, pure_eq_ok] at h
      obtain ⟨_, -, rfl⟩ := h
      exact .entries rfl rfl
  | censureComment c commentHash reason =>
      simp only [dispatch, censureComment, bind_eq_ok, pure_eq_ok] at h
      obtain ⟨_, -, _, -, _, -, _, -, _, -, rfl⟩ := h
      split
      next => exact .entries rfl rfl
      next => exact .entries rfl rfl
  | uncensureComment c commentHash =>
      simp only [dispatch, uncensureComment, bind_eq_ok, pure_eq_ok] at h
      obtain ⟨_, -, _, -, _, -, _, -, rfl⟩ := h
      split
      next => exact .entries rfl rfl
      next => exact .entries rfl rfl

end Dispatch

/-! ## Along a run -/

section Run

variable {host : Host} {cfg : Config} {r : Receipt} {env : Env} {s s' : State} {call : Call}

/-- What the present call has moved is not on the board. -/
theorem Posting.of_clearMoved (h : Posting env s.clearMoved s' call) : Posting env s s' call := by
  cases h with
  | create hcall fresh h => exact .create hcall fresh h
  | handOver hrecord pending h => exact .handOver hrecord pending h
  | contribute hrecord h => exact .contribute hrecord h
  | batch h => exact .batch h
  | refund h => exact .refund h
  | cancel hcall hrecord live h => exact .cancel hcall hrecord live h
  | describe hrecord h => exact .describe hrecord h
  | verify h => exact .verify h
  | certify hrecord unverified quorum h => exact .certify hrecord unverified quorum h
  | verifyBatch h counted => exact .verifyBatch h counted
  | vote hrecord unverified unpaid live fresh h =>
      exact .vote hrecord unverified unpaid live fresh h
  | purge hrecord ended h => exact .purge hrecord ended h
  | votingRules hcall h => exact .votingRules hcall h
  | entries hcall h => exact .entries hcall h
  | kept hcall h => exact .kept hcall h

theorem Receipt.Valid.posting (h : r.Valid host) (conf : (view r.pre).Configured) :
    Posting r.env r.pre r.post r.call := by
  have hposting : Posting r.env r.pre.clearMoved r.post r.call :=
    dispatch_posting (h.not_deploys conf) h.dispatched
  exact hposting.of_clearMoved

/-- What `init` leaves on the board. -/
def Board.blank : Board where
  verifiedCount := 0
  cancelledCount := 0
  creatorOf := fun _ => none
  titles := fun _ _ => none
  categoryBucket := fun _ _ => []
  categoryCount := fun _ => 0
  durationCap := fun _ => none
  voting :=
    { approveVotes := fun _ => 0, rejectVotes := fun _ => 0, approveWeight := fun _ => 0,
      rejectWeight := fun _ => 0, hasVoted := fun _ _ => false,
      minVotesQuorum := some defaultMinVotesQuorum,
      approvalThresholdBps := some defaultApprovalThresholdBps, minVotingBalance := 0,
      categoryThresholdBps := fun _ => none }
  leader := fun _ => none
  lastTime := fun _ => 0
  burst := fun _ => (0, 0)
  personalCap := fun _ _ => none
  censured := fun _ _ => none
  censuredCount := fun _ => 0
  saved := fun _ => []

theorem start_board (h : (machine host).Start r cfg) : board cfg.state = .blank := by
  obtain ⟨⟨-, hinvoke⟩, ⟨tokens, hpre⟩, ⟨admin, token, platformFee, hcall⟩, rfl⟩ := h
  rw [hpre, hcall] at hinvoke
  simp only [invoke, dispatch, init, bind_eq_ok, rejectIf_eq_ok, pure_eq_ok] at hinvoke
  obtain ⟨_, -, _, -, _, -, _, -, _, -, _, -, hpost⟩ := hinvoke
  rw [← hpost]
  rfl

end Run

end ProofOfHeart
