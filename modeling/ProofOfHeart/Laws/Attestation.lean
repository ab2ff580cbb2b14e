import ProofOfHeart.Laws.VoteTally

/-! # What the votes of a campaign attest to

A revocation clears the tallies along with the verification, since the votes were cast
on the text that has been replaced. An edit of an unverified campaign replaces the text
too and keeps the tallies.
-/

namespace ProofOfHeart

open Checked Function Trace Collected

variable {host : Host} {tr : List Receipt} {cfg : Config} {c : Nat} {call : Call}
  {r : Receipt} {old new : Campaign}

/-- The votes on campaign `c` since its tallies were last cleared, each with the receipt
of the call that cast it. -/
def castSince (c : Nat) (tr : List Receipt) : List (Receipt × (Address × Bool)) :=
  since (fun r => (r.call.ballot c).map fun vote => (r, vote)) (fun r => r.call.clears c r.pre) tr

theorem castSince_votes : (castSince c tr).map Prod.snd = counted c tr := by
  rw [castSince, ← since_map, counted]
  congr 1
  funext r
  cases r.call.ballot c <;> rfl

/-- Every vote that counts in state `s` was cast on the text that campaign `c` has there. -/
def Attested (c : Nat) (tr : List Receipt) (s : State) : Prop :=
  ∀ vote ∈ castSince c tr, ∀ record, s.campaigns.campaign c = some record →
    ∃ old, vote.1.pre.campaigns.campaign c = some old ∧ old.title = record.title ∧
      old.description = record.description

/-- Nothing is in the tallies of campaign `c`. -/
def State.Unvoted (s : State) (c : Nat) : Prop :=
  s.voting.approveVotes c = 0 ∧ s.voting.rejectVotes c = 0

instance (s : State) (c : Nat) : Decidable (s.Unvoted c) := inferInstanceAs (Decidable (_ ∧ _))

/-- An edit that leaves the campaign unverified finds no votes, or changes nothing. -/
def Receipt.EditsUnvoted (r : Receipt) : Prop :=
  match r.call with
  | .updateCampaign c title description => r.pre.Unvoted c ∨
      ∀ record, r.pre.campaigns.campaign c = some record →
        record.title = title ∧ record.description = description
  | .updateCampaignDescription c description => r.pre.Unvoted c ∨
      ∀ record, r.pre.campaigns.campaign c = some record →
        record.isVerified = true ∨ record.description = description
  | _ => True

instance (r : Receipt) : Decidable r.EditsUnvoted := by
  obtain ⟨env, call, pre, post⟩ := r
  apply @Call.casesOn (fun call => Decidable (Receipt.EditsUnvoted ⟨env, call, pre, post⟩)) call
  all_goals
    intros
    dsimp only [Receipt.EditsUnvoted]
    infer_instance

/-! ## One call -/

/-- A call that keeps neither the text nor the votes away is an edit. -/
theorem Turn.text (h : Turn c old new call) :
    (new.title = old.title ∧ new.description = old.description) ∨
    (∃ title description, call = .updateCampaign c title description ∧ old.isVerified = false ∧
      new.title = title ∧ new.description = description) ∨
    ∃ description, call = .updateCampaignDescription c description ∧
      new.title = old.title ∧ new.description = description := by
  cases h with
  | kept _ face | verified _ _ _ _ face | cancelled _ _ _ face | withdrawn _ _ _ _ _ face =>
      exact .inl ⟨congrArg Face.title face, congrArg Face.description face⟩
  | handedOver _ _ _ face =>
      exact .inl ⟨congrArg Face.title face, congrArg Face.description face⟩
  | retitled active unverified flags face =>
      exact .inr (.inl ⟨_, _, rfl, unverified, congrArg Face.title face,
        congrArg Face.description face⟩)
  | described active flags face =>
      exact .inr (.inr ⟨_, rfl, congrArg Face.title face, congrArg Face.description face⟩)

theorem Polled.castSince_nil (polled : Polled c tr r.pre) (h : r.pre.Unvoted c) :
    castSince c tr = [] := by
  have hcount := polled.count
  rw [h.1, h.2, ← castSince_votes, List.length_map] at hcount
  exact List.length_eq_zero_iff.mp hcount.symm

theorem Polled.castSince_absent (polled : Polled c tr r.pre)
    (h : r.pre.campaigns.campaign c = none) : castSince c tr = [] := by
  have hsub : List.Sublist ((counted c tr).map Prod.fst) (voters c tr) := counted_voters_sublist
  rw [polled.absent h, ← castSince_votes, List.map_map] at hsub
  exact List.map_eq_nil_iff.mp (List.sublist_nil.mp hsub)

/-- Who votes makes no edit. -/
theorem Turn.text_of_ballot {vote : Address × Bool} (h : Turn c old new call)
    (hballot : call.ballot c = some vote) :
    new.title = old.title ∧ new.description = old.description := by
  rcases h.text with hsame | ⟨title, description, rfl, -⟩ | ⟨description, rfl, -⟩
  · exact hsame
  · cases hballot
  · cases hballot

/-- An edit that the condition admits leaves no vote on another text. -/
theorem Turn.text_of_unvoted (h : Turn c old new r.call) (hedits : r.EditsUnvoted)
    (hold : r.pre.campaigns.campaign c = some old) (unclear : r.call.clears c r.pre = false) :
    (new.title = old.title ∧ new.description = old.description) ∨ r.pre.Unvoted c := by
  unfold Receipt.EditsUnvoted at hedits
  rcases h.text with hsame | ⟨title, description, hcall, -, htitle, hdescription⟩ |
    ⟨description, hcall, htitle, hdescription⟩
  · exact .inl hsame
  · rw [hcall] at hedits
    rcases hedits with hunvoted | hsame
    · exact .inr hunvoted
    · obtain ⟨rfl, rfl⟩ := hsame old hold
      exact .inl ⟨htitle, hdescription⟩
  · rw [hcall] at hedits unclear
    rcases hedits with hunvoted | hsame
    · exact .inr hunvoted
    · rcases hsame old hold with hverified | rfl
      · simp [Call.clears, Call.revokes, hold, hverified] at unclear
      · exact .inl ⟨htitle, hdescription⟩

theorem Attested.step (h : Attested c tr r.pre) (polled : Polled c tr r.pre)
    (hvalid : r.Valid host) (sane : (view r.pre).Sane) (hedits : r.EditsUnvoted) :
    Attested c (r :: tr) r.post := by
  intro vote hvote new hnew
  obtain ⟨unclear, hlast | hbefore⟩ := mem_since_cons hvote
  · obtain ⟨ballot, hballot, rfl⟩ := Option.map_eq_some_iff.mp hlast
    cases hold : r.pre.campaigns.campaign c with
    | none =>
        obtain ⟨-, params, deadline, hcall, -⟩ := hvalid.created sane hold hnew
        rcases hcall with hcall | ⟨token, hcall⟩
        all_goals
          rw [hcall] at hballot
          cases hballot
    | some old =>
        obtain ⟨new', hnew', hturn⟩ := hvalid.turn sane hold
        obtain rfl := Option.some.inj (hnew.symm.trans hnew')
        obtain ⟨htitle, hdescription⟩ := hturn.text_of_ballot hballot
        exact ⟨old, rfl, htitle.symm, hdescription.symm⟩
  · cases hold : r.pre.campaigns.campaign c with
    | none =>
        have hnil : castSince c tr = [] := polled.castSince_absent hold
        rw [castSince] at hnil
        rw [hnil] at hbefore
        cases hbefore
    | some old =>
        obtain ⟨new', hnew', hturn⟩ := hvalid.turn sane hold
        obtain rfl := Option.some.inj (hnew.symm.trans hnew')
        obtain ⟨cast, hcast, htitle, hdescription⟩ := h vote hbefore old hold
        rcases hturn.text_of_unvoted hedits hold unclear with ⟨hsame, hsame'⟩ | hunvoted
        · exact ⟨cast, hcast, htitle.trans hsame.symm, hdescription.trans hsame'.symm⟩
        · have hnil : castSince c tr = [] := polled.castSince_nil hunvoted
          rw [castSince] at hnil
          rw [hnil] at hbefore
          cases hbefore

/-! ## Along a run -/

theorem run_attested (run : Run (machine host) tr cfg) (hedits : ∀ r ∈ tr, r.EditsUnvoted)
    (c : Nat) : Attested c tr cfg.state := by
  refine run.guarded (C := Receipt.EditsUnvoted) (I := fun tr cfg => Attested c tr cfg.state)
    ?_ ?_ ?_ hedits
  · intro r cfg hstart _ vote _ record hrecord
    have hnone : (view cfg.state).campaign c = none := (start_fresh hstart).campaign c
    rw [← campaign_view, hrecord] at hnone
    cases hnone
  · rintro tr cfg r cfg' run - ih hedits ⟨hvalid, -, hpre, rfl⟩
    have sane := run_sane run
    have polled := run_polled run c
    rw [← hpre] at sane polled ih
    exact ih.step polled hvalid sane hedits
  · rintro tr cfg cfg' ih ⟨tokens, -, rfl⟩
    exact ih

/-- While a campaign stays verified its text stays. -/
theorem Turn.frozen (h : Turn c old new call) (verified : old.isVerified = true)
    (still : new.isVerified = true) :
    new.title = old.title ∧ new.description = old.description := by
  cases h with
  | retitled active unverified =>
      rw [verified] at unverified
      cases unverified
  | described active flags =>
      have hrevoked : new.isVerified = false := congrArg Flags.isVerified flags
      rw [still] at hrevoked
      cases hrevoked
  | kept _ face | verified _ _ _ _ face | cancelled _ _ _ face | withdrawn _ _ _ _ _ face
  | handedOver _ _ _ face => exact ⟨congrArg Face.title face, congrArg Face.description face⟩

/-- Where no edit of an unverified campaign finds votes, every verification by votes
counts only votes on the text it verifies; and a verified text never changes. -/
theorem votes_attest (run : Run (machine host) tr cfg) (hedits : ∀ r ∈ tr, r.EditsUnvoted) :
    (∀ later x earlier c, tr = later ++ x :: earlier → x.call = .verifyCampaignWithVotes c →
      x.pre.voting.approveVotes c + x.pre.voting.rejectVotes c = (castSince c earlier).length ∧
        Attested c earlier x.pre) ∧
    ∀ r ∈ tr, ∀ c old new, r.pre.campaigns.campaign c = some old →
      r.post.campaigns.campaign c = some new → old.isVerified = true → new.isVerified = true →
      new.title = old.title ∧ new.description = old.description := by
  constructor
  · intro later x earlier c htr hcall
    obtain ⟨t, hearlier⟩ := run.earlier later x earlier htr
    rcases hearlier.last with ⟨-, t', hstart⟩ | ⟨cfg', t', before, -, -, hpre, -⟩
    · obtain ⟨admin, token, platformFee, hinit⟩ := hstart.2.2.1
      rw [hcall] at hinit
      cases hinit
    · have hbefore : ∀ r ∈ earlier, r.EditsUnvoted := fun r hr => by
        refine hedits r ?_
        rw [htr]
        exact List.mem_append_right _ (List.mem_cons_of_mem _ hr)
      have polled := run_polled before c
      have attested := run_attested before hbefore c
      rw [← hpre] at polled attested
      refine ⟨?_, attested⟩
      rw [polled.count, ← castSince_votes, List.length_map]
  · refine run_receipts ?_ ?_ run
    · intro r cfg hstart c old new hold
      obtain ⟨tokens, hpre⟩ := hstart.2.1
      rw [hpre] at hold
      cases hold
    · intro tr cfg r run hvalid hpre c old new hold hnew verified still
      have sane := run_sane run
      rw [← hpre] at sane
      obtain ⟨new', hnew', hturn⟩ := hvalid.turn sane hold
      obtain rfl := Option.some.inj (hnew.symm.trans hnew')
      exact hturn.frozen verified still

theorem attestation_sample : ∃ tr cfg, Run (machine Sample.host) tr cfg ∧
    (∃ record, cfg.state.campaigns.campaign 1 = some record ∧ record.isVerified = true) ∧
    ∀ later x earlier, tr = later ++ x :: earlier → x.call = .verifyCampaignWithVotes 1 →
      Attested 1 earlier x.pre := by
  have h : Sample.Ends 300 Sample.reverified fun tr cfg => (∀ r ∈ tr, r.EditsUnvoted) ∧
      (cfg.state.campaigns.campaign 1).any Campaign.isVerified = true := by decide +kernel
  obtain ⟨tr, cfg, run, hedits, hverified⟩ := h.run
  exact ⟨tr, cfg, run, (Option.any_eq_true _ _).mp hverified, fun later x earlier htr hcall =>
    ((votes_attest run hedits).1 later x earlier 1 htr hcall).2⟩

/-- Three votes for a text that the creator then replaces. -/
def Sample.swapped : List Request :=
  [ask 0 creator (.createCampaign (params [0] 0)), ask 1 alice (.voteOnCampaign 1 alice true),
    ask 1 bob (.voteOnCampaign 1 bob true), ask 1 heir (.voteOnCampaign 1 heir true),
    ask 2 creator (.updateCampaign 1 [1] [1]), ask 3 creator (.verifyCampaignWithVotes 1)]

/-- The claim fails where a text with votes is edited before it is verified. -/
theorem votes_misattest : ∃ tr cfg, Run (machine Sample.host) tr cfg ∧
    ∃ later x earlier, tr = later ++ x :: earlier ∧ x.call = .verifyCampaignWithVotes 1 ∧
      ¬ Attested 1 earlier x.pre := by
  have h : Sample.Ends 300 Sample.swapped fun tr _ =>
      ∃ x ∈ tr.head?, x.call = .verifyCampaignWithVotes 1 ∧
        ∃ vote ∈ castSince 1 tr.tail, ∃ record ∈ x.pre.campaigns.campaign 1,
          ∀ old ∈ vote.1.pre.campaigns.campaign 1, old.title ≠ record.title := by
    decide +kernel
  obtain ⟨tr, cfg, run, x, hx, hcall, vote, hvote, record, hrecord, hother⟩ := h.run
  refine ⟨tr, cfg, run, [], x, tr.tail, ?_, hcall, fun attested => ?_⟩
  · exact (List.cons_head?_tail hx).symm
  · obtain ⟨old, hold, htitle, -⟩ := attested vote hvote record hrecord
    exact hother old hold htitle

end ProofOfHeart
