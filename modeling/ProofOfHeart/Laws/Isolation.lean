import ProofOfHeart.Laws.Burst
import ProofOfHeart.Laws.Custody

/-! # Campaigns do not interfere

All that the store holds for one campaign is its slice: the record and the funds, and
its entries on the board. A call reads and writes only the slices of the campaigns it
names, so that whatever happens on the rest of the platform leaves a slice as it is.
-/

namespace ProofOfHeart

open Checked Function Table Trace Windows

variable {host : Host} {tr later : List Receipt} {cfg cfg' : Config} {c id : Nat} {s s' : State}
  {r : Receipt} {env : Env} {call : Call} {v v' : View} {a : Account}

/-! ## What belongs to a campaign -/

/-- The campaigns a call is about. A bookmark belongs to the wallet that keeps it. -/
def Call.about : Call → List Nat
  | .contribute c _ _ | .claimRefund c _ | .withdrawFunds c | .withdrawReserve c
  | .setMilestones c _ | .verifyMilestone _ c _ | .claimMilestone c _ | .cancelCampaign c
  | .adminCancelCampaign _ c _ | .updateCampaign c _ _ | .updateCampaignDescription c _
  | .extendCampaignDeadline c _ | .initiateCampaignTransfer c _ | .acceptCampaignTransfer c
  | .cancelCampaignTransfer c | .depositRevenue c _ | .claimRevenue c _ | .claimCreatorRevenue c
  | .voteOnCampaign c _ _ | .verifyCampaign c | .verifyCampaignWithVotes c
  | .purgeVotingState c _ _ | .setCampaignFeeOverride c _ _ | .setPersonalCap c _ _
  | .removePersonalCap c _ | .censureComment c _ _ | .uncensureComment c _ => [c]
  | .batchContribute _ items => items.map Prod.fst
  | .verifyCampaigns ids => ids
  | _ => []

/-- The votes on one campaign. -/
structure Votes where
  approveVotes : Nat
  rejectVotes : Nat
  approveWeight : Int
  rejectWeight : Int
  hasVoted : Address → Bool

def VotingStore.votes (w : VotingStore) (c : Nat) : Votes where
  approveVotes := w.approveVotes c
  rejectVotes := w.rejectVotes c
  approveWeight := w.approveWeight c
  rejectWeight := w.rejectWeight c
  hasVoted := w.hasVoted c

/-- What the board holds for one campaign. -/
@[ext]
structure Entries where
  creator : Option Address
  votes : Votes
  leader : Option Address
  lastTime : Nat
  burst : Nat × Nat
  personalCap : Address → Option Int
  censured : Digest → Option CommentCensure
  censuredCount : Nat

def Board.entries (b : Board) (c : Nat) : Entries where
  creator := b.creatorOf c
  votes := b.voting.votes c
  leader := b.leader c
  lastTime := b.lastTime c
  burst := b.burst c
  personalCap := b.personalCap c
  censured := b.censured c
  censuredCount := b.censuredCount c

structure Slice where
  account : Option Account
  entries : Entries

def slice (s : State) (c : Nat) : Slice := ⟨(view s).account c, (board s).entries c⟩

/-! ## The account -/

theorem amountsTo_eq_nil {items : List (Nat × Int)} (h : c ∉ items.map Prod.fst) :
    amountsTo c items = [] := by
  rw [amountsTo, List.map_eq_nil_iff, List.filter_eq_nil_iff]
  intro item hitem hc
  exact h (List.mem_map.mpr ⟨item, hitem, of_decide_eq_true hc⟩)

theorem Account.Edit.about {now : Nat} {record : Campaign} (h : a.Edit id now call record) :
    id ∈ call.about := by
  cases h with
  | verify verifiable hcall =>
      rcases hcall with rfl | rfl | ⟨ids, hmem, rfl⟩
      · exact List.mem_singleton_self _
      · exact List.mem_singleton_self _
      · exact hmem
  | _ => exact List.mem_singleton_self _

/-- A call leaves the accounts of the campaigns it does not name. -/
theorem Effect.untouched (h : Effect env v call v') (reg : v.Registered)
    (ha : v.account c = some a) (hc : c ∉ call.about) : v'.account c = v.account c := by
  cases h with
  | create hcall =>
      have hnew : c ≠ v.campaignCount + 1 := by
        rintro rfl
        rw [reg.next_none] at ha
        cases ha
      exact View.setAccount_account_of_ne hnew
  | batch batched =>
      have haccount := batched.account c
      rw [amountsTo_eq_nil hc] at haccount
      rw [ha] at haccount ⊢
      exact haccount
  | edit hb hedit => exact View.setAccount_account_of_ne fun heq => hc (heq ▸ hedit.about)
  | verifications h =>
      rcases h.account c with hsame | ⟨b, -, -, hmem, -⟩
      · exact hsame
      · exact absurd hmem hc
  | administer h =>
      obtain ⟨store, -, rfl⟩ := h
      rfl
  | outside => rfl
  | _ => exact View.setAccount_account_of_ne fun heq => hc (List.mem_singleton.mpr heq)

/-! ## The entries on the board -/

section Board

variable {b : Board} {w : VotingStore} {voter : Address} {approve : Bool} {voters : List Address}

theorem VotingStore.votes_clear (hc : c ≠ id) : (w.clear id).votes c = w.votes c := by
  simp [votes, clear, hc]

theorem VotingStore.votes_count (hc : c ≠ id) :
    (w.count id voter approve).votes c = w.votes c := by
  cases approve <;> simp [votes, count, hc]

theorem VotingStore.votes_unmark (hc : c ≠ id) : (w.unmark id voters).votes c = w.votes c := by
  simp [votes, unmark, hc]

/-- New votes on other campaigns leave the entries. -/
theorem Board.entries_votes (h : w.votes c = b.voting.votes c) :
    ({ b with voting := w } : Board).entries c = b.entries c :=
  Entries.ext rfl h rfl rfl rfl rfl rfl rfl

theorem EntryStep.untouched (h : EntryStep env s call b) (hc : c ∉ call.about) :
    b.entries c = (board s).entries c := by
  have hne : ∀ {id : Nat}, c ∉ [id] → c ≠ id := fun hnot heq => hnot (List.mem_singleton.mpr heq)
  cases h with
  | capPersonal | uncapPersonal => simp [Board.entries, hne hc]
  | @censure admin id commentHash reason =>
      unfold Board.censure
      split
      next => rfl
      next => simp [Board.entries, hne hc]
  | @uncensure admin id commentHash =>
      unfold Board.uncensure
      split
      next => rfl
      next => simp [Board.entries, hne hc]
  | _ => rfl

/-- A call leaves the entries of the campaigns it does not name. -/
theorem dispatch_untouched (hcall : call.deploys = false) (h : dispatch env s call = .ok s')
    (hold : c ≤ s.campaigns.campaignCount) (hc : c ∉ call.about) :
    (board s').entries c = (board s).entries c := by
  have hne : ∀ {id : Nat}, c ∉ [id] → c ≠ id := fun hnot heq => hnot (List.mem_singleton.mpr heq)
  cases dispatch_posting hcall h with
  | create _ _ hboard =>
      have hnew : c ≠ s.campaigns.campaignCount + 1 := by omega
      simp [hboard, Board.entries, hnew]
  | handOver _ _ hboard | contribute _ hboard | refund hboard =>
      simp [hboard, Board.entries, hne hc]
  | @batch who items burst hboard =>
      have hspends := (batchContribute_spends h c).1
      rw [amountsTo_eq_nil hc, State.bursts_nil] at hspends
      have hburst := hspends.eq_of_none
      rw [hboard] at hburst ⊢
      exact Entries.ext rfl rfl rfl rfl hburst rfl rfl rfl
  | @cancel call id record hshape _ _ hboard =>
      have hid : c ≠ id := by
        rcases hshape with rfl | ⟨admin, reason, rfl⟩
        · exact hne hc
        · exact hne hc
      rw [hboard]
      exact Board.entries_votes (VotingStore.votes_clear hid)
  | describe _ hboard =>
      rw [hboard]
      split
      next => exact Board.entries_votes (VotingStore.votes_clear (hne hc))
      next => rfl
  | vote _ _ _ _ _ hboard =>
      rw [hboard]
      exact Board.entries_votes (VotingStore.votes_count (hne hc))
  | purge _ _ hboard =>
      rw [hboard]
      split
      next =>
          exact Board.entries_votes ((VotingStore.votes_clear (hne hc)).trans
            (VotingStore.votes_unmark (hne hc)))
      next => exact Board.entries_votes (VotingStore.votes_unmark (hne hc))
  | entries hentry => exact (dispatch_entry hentry h).untouched hc
  | verify hboard | certify _ _ _ hboard | verifyBatch hboard | votingRules _ hboard
  | kept _ hboard =>
      rw [hboard]
      try rfl

end Board

/-! ## The law -/

theorem Receipt.Valid.untouched (h : r.Valid host) (sane : (view r.pre).Sane)
    (ha : (view r.pre).account c = some a) (hc : c ∉ r.call.about) :
    slice r.post c = slice r.pre c := by
  have hcall := h.not_deploys sane.toConfigured
  have hold := ((sane.exists_iff c).mp ⟨a, ha⟩).2
  have haccount : (view r.post).account c = (view r.pre.clearMoved).account c :=
    (h.effect sane.toConfigured).untouched ⟨sane.exists_iff, sane.blank⟩ ha hc
  have hentries : (board r.post).entries c = (board r.pre.clearMoved).entries c :=
    dispatch_untouched hcall h.dispatched hold hc
  exact congrArg₂ Slice.mk haccount hentries

end ProofOfHeart
