import ProofOfHeart.Account.Campaigns

/-! # Votes and verification as effects on accounts -/

namespace ProofOfHeart

open Checked Function

variable {env : Env} {s s' : State} {c : Nat}

theorem voteOnCampaign_view {voter : Address} {approve : Bool}
    (h : voteOnCampaign env s c voter approve = .ok s') : view s' = view s := by
  simp only [voteOnCampaign, castVote, countVote, bind_eq_ok, pure_eq_ok] at h
  obtain ⟨_, -, _, -, _, -, _, -, _, -, _, -, _, -, _, -, _, -, _, -, _, -, s1, hs1, rfl⟩ := h
  rw [view_setHasVoted]
  split at hs1
  all_goals
    simp only [bind_eq_ok, pure_eq_ok] at hs1
    obtain ⟨_, -, _, -, rfl⟩ := hs1
    rfl

/-! ## Caught results -/

theorem attempt_ok {α : Type} {step : Outcome α} {next : α → Caught} :
    attempt s step next = .ok (s', .ok ()) ↔ ∃ a, step = .ok a ∧ next a = .ok (s', .ok ()) := by
  unfold attempt
  cases step with
  | ok a => simp
  | error abort => cases abort <;> simp

/-- An `Err` is returned either by the step, in the present state, or later. -/
theorem attempt_err {α : Type} {step : Outcome α} {next : α → Caught} {e : Error} :
    attempt s step next = .ok (s', .error e) ↔
      (step = .error (.err e) ∧ s = s') ∨ ∃ a, step = .ok a ∧ next a = .ok (s', .error e) := by
  unfold attempt
  cases step with
  | ok a => simp
  | error abort => cases abort <;> simp [and_comm]

theorem commit_eq_ok {caught : Caught} : caught.commit = .ok s' ↔ caught = .ok (s', .ok ()) := by
  unfold Caught.commit
  split <;> simp

/-! ## Verification -/

theorem verifiable_of_guards {campaign : Campaign} {u v : Unit}
    (hlive : requireActiveCampaign campaign = .ok u)
    (htransition : transition (.of campaign) .verified = .ok v) :
    (⟨campaign, (view s).funds c⟩ : Account).Verifiable :=
  { toLive := requireActiveCampaign_spec (a := ⟨campaign, (view s).funds c⟩) hlive
    unpaid := (transition_verified htransition).1
    unverified := (transition_verified htransition).2 }

theorem adminVerify_ok (h : adminVerify s c = .ok (s', .ok ())) :
    ∃ a, (view s).account c = some a ∧ a.Verifiable ∧
      view s' = (view s).setAccount c a.verify := by
  simp only [adminVerify, attempt_ok, Except.ok.injEq, Prod.mk.injEq, and_true] at h
  obtain ⟨campaign, hcampaign, _, -, _, -, _, hlive, _, htransition, s1, hs1, rfl⟩ := h
  refine ⟨_, getCampaignOrError_spec hcampaign, verifiable_of_guards hlive htransition, ?_⟩
  rw [incrementVerifiedCampaignCount_view _ hs1, Account.verify, View.setAccount_record rfl,
    view_setCampaign]

/-- A failing `admin_verify` writes nothing: its only write comes after the last
check that can return an `Err`. -/
theorem adminVerify_err {e : Error} (h : adminVerify s c = .ok (s', .error e)) : s' = s := by
  have hincrement (t : State) : incrementVerifiedCampaignCount t ≠ .error (.err e) := by
    unfold incrementVerifiedCampaignCount
    cases Word.checkedAdd 32 t.campaigns.verifiedCampaignCount 1 <;>
      simp [okOr, bind, Except.bind, pure, Except.pure]
  simp only [adminVerify, attempt_err, hincrement, false_and, Except.ok.injEq,
    Prod.mk.injEq, reduceCtorEq, and_false, exists_false, or_false] at h
  rcases h with ⟨-, h⟩ | ⟨_, -, ⟨-, h⟩ | ⟨_, -, ⟨-, h⟩ | ⟨_, -, ⟨-, h⟩ | ⟨_, -, -, h⟩⟩⟩⟩
  all_goals exact h.symm

theorem verifyCampaign_spec (h : verifyCampaign env s c = .ok s') :
    ∃ a, (view s).account c = some a ∧ a.Verifiable ∧
      view s' = (view s).setAccount c a.verify := by
  simp only [verifyCampaign, bind_eq_ok] at h
  obtain ⟨_, -, _, -, _, -, h⟩ := h
  exact adminVerify_ok (commit_eq_ok.mp h)

theorem verifyCampaignWithVotes_spec (h : verifyCampaignWithVotes s c = .ok s') :
    ∃ a, (view s).account c = some a ∧ a.Verifiable ∧
      view s' = (view s).setAccount c a.verify := by
  simp only [verifyCampaignWithVotes, verifyWithVotes, bind_eq_ok] at h
  obtain ⟨_, -, campaign, hcampaign, _, -, _, -, _, hlive, _, -, _, -, _, -, _, htransition, h⟩ := h
  refine ⟨_, getCampaignOrError_spec hcampaign, verifiable_of_guards hlive htransition, ?_⟩
  rw [incrementVerifiedCampaignCount_view _ h, Account.verify, View.setAccount_record rfl,
    view_setCampaign]

/-! ## Batches of verifications -/

/-- Some of the listed campaigns became verified, and nothing else happened. -/
structure Verifications (ids : List Nat) (v v' : View) : Prop where
  account : ∀ c, v'.account c = v.account c ∨
    ∃ a, v.account c = some a ∧ a.Verifiable ∧ c ∈ ids ∧ v'.account c = some a.verify
  rest : { v' with campaign := v.campaign } = v

/-- Everything but the records stays. -/
theorem Verifications.unchanged {ids : List Nat} {v v' : View} (h : Verifications ids v v') :
    v'.funds = v.funds ∧ v'.admin = v.admin ∧ v'.campaignCount = v.campaignCount ∧
      v'.activeCount = v.activeCount ∧ v'.totalRaised = v.totalRaised ∧
      v'.creators = v.creators ∧ v'.tokens = v.tokens := by
  have hrest := h.rest
  simp only [View.ext_iff] at hrest
  exact hrest.2

theorem Verifications.nil {v : View} : Verifications [] v v := ⟨fun _ => .inl rfl, rfl⟩

theorem Verifications.skip {ids : List Nat} {v v' : View} (h : Verifications ids v v') :
    Verifications (c :: ids) v v' where
  account other := (h.account other).imp id fun ⟨a, ha, hverifiable, hmem, ha'⟩ =>
    ⟨a, ha, hverifiable, List.mem_cons_of_mem _ hmem, ha'⟩
  rest := h.rest

theorem Verifications.cons {ids : List Nat} {v v' : View} {a : Account}
    (ha : v.account c = some a) (hverifiable : a.Verifiable)
    (h : Verifications ids (v.setAccount c a.verify) v') : Verifications (c :: ids) v v' where
  account other := by
    by_cases hc : other = c
    · subst hc
      refine .inr ⟨a, ha, hverifiable, List.mem_cons_self, ?_⟩
      rcases h.account other with hsame | ⟨b, hb, hagain, -, -⟩
      · rw [hsame, View.setAccount_account_self]
      · rw [View.setAccount_account_self, Option.some.injEq] at hb
        rw [← hb] at hagain
        exact absurd hagain.unverified (by simp [Account.verify])
    · rw [← View.setAccount_account_of_ne (v := v) (a := a.verify) hc]
      exact (h.account other).imp id fun ⟨b, hb, hbverifiable, hmem, hb'⟩ =>
        ⟨b, hb, hbverifiable, List.mem_cons_of_mem _ hmem, hb'⟩
  rest := by
    have hfunds : (v.setAccount c a.verify).funds = v.funds := by
      simp [View.setAccount, Account.verify, ← (View.account_eq_some.mp ha).2]
    have hrest := h.rest
    simp only [View.ext_iff, hfunds] at hrest ⊢
    exact ⟨trivial, hrest.2⟩

theorem verifyOne_ok {progress progress' : VerifyProgress}
    (h : verifyOne progress c = .ok progress') :
    progress'.state = progress.state ∨
      adminVerify progress.state c = .ok (progress'.state, .ok ()) := by
  unfold verifyOne at h
  split at h
  next t hverified =>
      rw [Except.ok.injEq] at h
      subst h
      exact .inr hverified
  next t e hfailed =>
      rw [Except.ok.injEq] at h
      subst h
      exact .inl (adminVerify_err hfailed)
  next => cases h

theorem verifyAll_ok {ids : List Nat} :
    ∀ {progress progress' : VerifyProgress}, each verifyOne progress ids = .ok progress' →
      Verifications ids (view progress.state) (view progress'.state) := by
  induction ids with
  | nil =>
      intro progress progress' h
      rw [each_nil, Except.ok.injEq] at h
      exact h ▸ Verifications.nil
  | cons id rest ih =>
      intro progress progress' h
      obtain ⟨mid, hmid, hrest⟩ := each_cons_eq_ok.mp h
      rcases verifyOne_ok hmid with hsame | hverified
      · exact (hsame ▸ ih hrest).skip
      · obtain ⟨a, ha, hverifiable, hview⟩ := adminVerify_ok hverified
        exact Verifications.cons ha hverifiable (hview ▸ ih hrest)

theorem verifyCampaigns_spec {ids : List Nat} {progress : VerifyProgress}
    (h : verifyCampaigns env s ids = .ok progress) :
    Verifications ids (view s) (view progress.state) := by
  simp only [verifyCampaigns, bind_eq_ok] at h
  obtain ⟨_, -, _, -, _, -, h⟩ := h
  have hearlier := verifyAll_ok h
  refine ⟨fun c => ?_, hearlier.rest⟩
  rcases hearlier.account c with hsame | ⟨a, ha, hverifiable, hmem, ha'⟩
  · exact .inl hsame
  · exact .inr ⟨a, ha, hverifiable, List.mem_of_mem_take hmem, ha'⟩

end ProofOfHeart
