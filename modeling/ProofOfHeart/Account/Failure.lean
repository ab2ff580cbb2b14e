import ProofOfHeart.Account.View

/-! # How the steps that entry points share fail -/

namespace ProofOfHeart

open Checked

variable {K : Abort → Prop} {env : Env} {s : State} {c : Nat} {who token recipient : Address}
  {amount : Int}

@[simp] theorem requireAuth_eq_ok {u : Unit} :
    requireAuth env who = .ok u ↔ env.auth who = true := by
  simp [requireAuth]

theorem requireNotPaused_eq_ok {u : Unit} : requireNotPaused s = .ok u ↔
    s.admin.paused = false ∧ s.admin.autoPaused = false := by
  simp [requireNotPaused]

@[simp] theorem fails_requireAuth :
    Fails K (requireAuth env who) ↔ env.auth who = false ∧ K (.trap .auth) := fails_check

@[simp] theorem fails_getAdmin :
    Fails K (getAdmin s) ↔ s.admin.admin = none ∧ K (.trap .missingEntry) := fails_found

@[simp] theorem fails_getCampaignToken : Fails K (getCampaignToken s c) ↔
    (view s).currency c = none ∧ K (.trap .missingEntry) := by
  rw [getCampaignToken_view]
  exact fails_found

@[simp] theorem fails_transfer : Fails K (transfer s token who recipient amount) ↔
    (amount < 0 ∨ s.tokens.balance token who < amount) ∧ K (.trap .token) := by
  unfold transfer
  split
  next h => simp [Fails, h]
  next h => simp [h]

/-- A computation ends in one particular error. -/
theorem eq_error_iff {α : Type} {x : Outcome α} {e : Abort} :
    x = .error e ↔ Fails (fun abort => abort = e) x := by
  simp [Fails]

end ProofOfHeart
