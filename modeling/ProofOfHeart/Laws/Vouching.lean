import ProofOfHeart.Laws.Authority
import ProofOfHeart.Laws.Verification

/-! # Who vouches for a campaign

Contributions come in and payouts go out only while a campaign is verified. Its text is
then the one that was verified last, by the admin of that moment or by voters who sufficed
under the rules of that moment, and nobody has touched it since.
-/

namespace ProofOfHeart

open Checked Function Trace Handover

variable {host : Host} {tr earlier : List Receipt} {cfg : Config} {c : Nat} {s s' : State}
  {r : Receipt} {env : Env} {v : View} {a a' : Account} {act : Act} {moves : List Transfer}
  {delta : Int} {record old new : Campaign} {call : Call} {first : Address}

/-! ## The verified text -/

/-- Money for the campaign comes in or goes to the creator. -/
def Act.isFunding (act : Act) : Bool := act.isContribution || act.isPayout

theorem AccountStep.verified (h : AccountStep env v c act moves delta a a')
    (hact : act.isFunding = true) : a.record.isVerified = true := by
  cases h with
  | contributed nonempty pos accepts => exact accepts.verified
  | withdrew payable | claimed payable => exact payable.verified
  | _ => cases hact

theorem verifyWithVotes_approves (hquorum : 1 ≤ getMinVotesQuorum s)
    (h : verifyWithVotes s c = .ok s') : ∃ record, s.campaigns.campaign c = some record ∧
      s.Approves record.category (s.voting.approveVotes c) (s.voting.rejectVotes c) := by
  simp only [verifyWithVotes, getCampaignOrError, bind_eq_ok, okOr_eq_ok, rejectIf_eq_ok,
    Word.checkedAdd_eq_some, Nat.not_lt] at h
  obtain ⟨record, hrecord, _, -, _, -, _, -, _, ⟨rfl, -⟩, _, hmet, _, hthreshold, -⟩ := h
  have hpos : 0 < s.voting.approveVotes c + s.voting.rejectVotes c := by omega
  have hexact := (threshold_le_approvalBps hpos (Nat.le_add_right ..)).mp hthreshold
  exact ⟨record, hrecord, hmet, hexact⟩

end ProofOfHeart
