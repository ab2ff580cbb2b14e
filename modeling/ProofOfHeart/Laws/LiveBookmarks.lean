import ProofOfHeart.Laws.SavedCampaigns
import ProofOfHeart.Laws.TokenMigration

/-! # Live bookmarks

Of the bookmarks of a wallet only the campaigns that are not cancelled are shown. No
campaign comes back from its cancellation, so a bookmark is shown from its saving until
the wallet drops it or the campaign is cancelled. The stored list keeps what is hidden.
-/

namespace ProofOfHeart

open Checked Function Trace

variable {host : Host} {tr : List Receipt} {cfg : Config} {s s' : State} {r : Receipt}
  {env : Env} {call : Call} {user : Address} {c : Nat} {saved : List Nat} {record : Campaign}
  {v : View} {act : Act} {moves : List Transfer} {delta : Int} {a a' : Account}

/-! ## Cancellations -/

def Act.isCancellation : Act → Bool
  | .cancel | .adminCancel => true
  | _ => false

theorem AccountStep.isCancelled (h : AccountStep env v c act moves delta a a') :
    a'.record.isCancelled = (act.isCancellation || a.record.isCancelled) := by
  cases h with
  | contributed => rw [Account.contributeAll_record]; rfl
  | claimed => rw [Account.claimMilestone_record]; rfl
  | _ => rfl

/-- The wallet saves campaign `c`. -/
def Call.bookmarks (user : Address) (c : Nat) : Call → Bool
  | .saveCampaign who id => who = user ∧ id = c
  | .batchSaveCampaigns who ids => who = user ∧ c ∈ ids
  | _ => false

end ProofOfHeart
