import ProofOfHeart.Account.Turn

/-! # The timelock of the platform token

The admin proposes a token and, once the delay that was in force at the proposal has
passed, accepts it. The pending token and its release time are two entries that only
a proposal sets, both at once, and that an acceptance and a cancellation clear, so they
always stem from the latest proposal.
-/

namespace ProofOfHeart

open Checked Trace

variable {host : Host} {tr : List Receipt} {cfg : Config} {r : Receipt} {env : Env} {v : View}
  {call : Call} {store : AdminStore}

/-- The calls that write the pending token. -/
def Call.settlesToken : Call → Bool
  | .proposeTokenUpdate .. | .acceptTokenUpdate _ | .cancelTokenUpdate _ => true
  | _ => false

/-- The entries of a pending token are those of the latest call that settled it. -/
def Pending (tr : List Receipt) (store : AdminStore) : Prop :=
  ∀ token, store.pendingToken = some token → Since (fun r => r.call.settlesToken = false)
    (fun r => (∃ admin, r.call = .proposeTokenUpdate admin token) ∧
      store.pendingTokenRelease = some (r.env.timestamp + getTokenUpdateDelaySecs r.pre)) tr

/-- What an acceptance of `r` rests on. -/
def Receipt.Timelocked (r : Receipt) (earlier : List Receipt) : Prop :=
  ((∀ admin, r.call ≠ .acceptTokenUpdate admin) → r.post.admin.token = r.pre.admin.token) ∧
  ∀ admin, r.call = .acceptTokenUpdate admin →
    r.pre.admin.admin = some admin ∧ r.env.auth admin = true ∧
    ∃ token between proposal first proposer, r.post.admin.token = some token ∧
      earlier = between ++ proposal :: first ∧
      proposal.call = .proposeTokenUpdate proposer token ∧
      (∀ x ∈ between, x.call.settlesToken = false) ∧
      proposal.env.timestamp + getTokenUpdateDelaySecs proposal.pre ≤ r.env.timestamp

/-! ## One step -/

theorem AdminStep.unsettled (h : AdminStep env v call store) (hcall : call.settlesToken = false) :
    store.token = v.admin.token ∧ store.pendingToken = v.admin.pendingToken ∧
      store.pendingTokenRelease = v.admin.pendingTokenRelease := by
  cases h with
  | propose | accept | cancelToken => cases hcall
  | _ => exact ⟨rfl, rfl, rfl⟩

theorem Receipt.Valid.unsettled (h : r.Valid host) (conf : (view r.pre).Configured)
    (hcall : r.call.settlesToken = false) :
    r.post.admin.token = r.pre.admin.token ∧
      r.post.admin.pendingToken = r.pre.admin.pendingToken ∧
      r.post.admin.pendingTokenRelease = r.pre.admin.pendingTokenRelease := by
  rcases (h.effect conf).admin with hsame | ⟨store, hstep, hstore⟩
  · have hadmin : r.post.admin = r.pre.admin := hsame
    rw [hadmin]
    exact ⟨rfl, rfl, rfl⟩
  · have hadmin : r.post.admin = store := hstore
    rw [hadmin]
    exact hstep.unsettled hcall

/-- Whatever the call is, the pending entries stay those of the latest proposal, and an
acceptance takes the token of that proposal when it is due. -/
theorem Receipt.Valid.timelocked (h : r.Valid host) (conf : (view r.pre).Configured)
    (pending : Pending tr r.pre.admin) :
    Pending (r :: tr) r.post.admin ∧ r.Timelocked tr := by
  have hdispatch := h.dispatched
  cases hsettles : r.call.settlesToken with
  | false =>
      obtain ⟨htoken, hpending, hrelease⟩ := h.unsettled conf hsettles
      refine ⟨fun token hnow => ?_, fun _ => htoken, fun admin hcall => ?_⟩
      · rw [hrelease]
        exact .later hsettles (pending token (hpending ▸ hnow))
      · rw [hcall] at hsettles
        cases hsettles
  | true =>
      generalize hcall : r.call = call at hdispatch hsettles
      cases call with
      | proposeTokenUpdate admin token =>
          obtain ⟨store, hstep, hstore⟩ := proposeTokenUpdate_spec hdispatch
          have hadmin : r.post.admin = store := congrArg View.admin hstore
          cases hstep
          rw [Pending, hadmin]
          refine ⟨fun other hother => .now ⟨⟨admin, ?_⟩, rfl⟩, fun _ => by rw [hadmin]; rfl,
            fun other hother => ?_⟩
          · rw [hcall, ← Option.some.inj hother]
          · rw [hcall] at hother
            cases hother
      | acceptTokenUpdate admin =>
          obtain ⟨store, hstep, hstore⟩ := acceptTokenUpdate_spec hdispatch
          have hadmin : r.post.admin = store := congrArg View.admin hstore
          cases hstep with
          | @accept _ token release byAdmin held released due idle settled =>
              refine ⟨fun other hother => ?_, fun hnot => absurd hcall (hnot admin),
                fun other hother => ?_⟩
              · rw [hadmin] at hother
                cases hother
              · obtain rfl : admin = other := Call.acceptTokenUpdate.inj (hcall.symm.trans hother)
                obtain ⟨between, proposal, first, rfl, ⟨⟨proposer, hproposal⟩, hrelease⟩,
                  hbetween⟩ := since_iff.mp (pending token held)
                have hdue : release = _ := Option.some.inj (released.symm.trans hrelease)
                exact ⟨byAdmin.1, byAdmin.2, token, between, proposal, first, proposer,
                  by rw [hadmin], rfl, hproposal, hbetween, hdue ▸ due⟩
      | cancelTokenUpdate admin =>
          obtain ⟨store, hstep, hstore⟩ := cancelTokenUpdate_spec hdispatch
          have hadmin : r.post.admin = store := congrArg View.admin hstore
          cases hstep
          refine ⟨fun other hother => ?_, fun _ => by rw [hadmin]; rfl, fun other hother => ?_⟩
          · rw [hadmin] at hother
            cases hother
          · rw [hcall] at hother
            cases hother
      | _ => cases hsettles

/-! ## Along a run -/

/-- After `init` the platform token changes only by an acceptance of the stored admin, to
the token of the latest proposal, not cancelled or accepted since, and no earlier than
the delay that was in force at that proposal allows. -/
theorem tokenUpdate_timelocked (run : Run (machine host) tr cfg) :
    ∀ later r earlier, tr = later ++ r :: earlier → earlier ≠ [] → r.Timelocked earlier := by
  suffices h : Pending tr cfg.state.admin ∧
      ∀ later r earlier, tr = later ++ r :: earlier → earlier ≠ [] → r.Timelocked earlier from h.2
  refine run.invariant (I := fun tr cfg => Pending tr cfg.state.admin ∧
    ∀ later r earlier, tr = later ++ r :: earlier → earlier ≠ [] → r.Timelocked earlier) ?_ ?_ ?_
  · rintro r cfg ⟨⟨-, hinvoke⟩, ⟨tokens, hpre⟩, ⟨admin, token, platformFee, hcall⟩, rfl⟩
    rw [hpre, hcall] at hinvoke
    simp only [invoke, dispatch, init, bind_eq_ok, pure_eq_ok] at hinvoke
    obtain ⟨_, -, _, -, _, -, _, -, _, -, _, -, hpost⟩ := hinvoke
    refine ⟨fun token htoken => ?_, ?_⟩
    · rw [← hpost] at htoken
      cases htoken
    · rw [forall_split_cons]
      exact ⟨fun hne => absurd rfl hne, fun later x earlier heq => by simp at heq⟩
  · rintro tr cfg r cfg' run ⟨pending, ih⟩ ⟨hvalid, -, hpre, rfl⟩
    have conf := (run_sane run).toConfigured
    rw [← hpre] at conf pending
    obtain ⟨hpending, hlocked⟩ := hvalid.timelocked conf pending
    exact ⟨hpending, forall_split_cons.mpr ⟨fun _ => hlocked, ih⟩⟩
  · rintro tr cfg cfg' ih ⟨tokens, -, rfl⟩
    exact ih

/-- A proposal, a shorter delay for later ones, and the acceptance after a week. -/
def Sample.replaced : List Request :=
  [ask 0 admin (.proposeTokenUpdate admin newToken),
    ask 1 admin (.setTokenUpdateDelaySecs admin 1),
    ask 604800 admin (.acceptTokenUpdate admin)]

theorem tokenUpdate_sample :
    ∃ tr cfg, Run (machine Sample.host) tr cfg ∧ cfg.state.admin.token = some Sample.newToken ∧
      ∃ r earlier, tr = r :: earlier ∧ r.call = .acceptTokenUpdate Sample.admin ∧
        ∃ proposal ∈ earlier,
          proposal.env.timestamp + getTokenUpdateDelaySecs proposal.pre ≤ r.env.timestamp := by
  have h : Sample.Ends 0 Sample.replaced fun tr cfg =>
      tr.head?.map Receipt.call = some (.acceptTokenUpdate Sample.admin) ∧ tr.length = 4 ∧
        cfg.state.admin.token = some Sample.newToken := by
    decide +kernel
  obtain ⟨tr, cfg, run, hhead, hlength, htoken⟩ := h.run
  cases tr with
  | nil => cases hhead
  | cons r earlier =>
      have hcall : r.call = .acceptTokenUpdate Sample.admin := Option.some.inj hhead
      have hsome : earlier ≠ [] := by
        rintro rfl
        cases hlength
      obtain ⟨-, haccept⟩ := tokenUpdate_timelocked run [] r earlier rfl hsome
      obtain ⟨-, -, token, between, proposal, first, proposer, -, hsplit, -, -, hdue⟩ :=
        haccept _ hcall
      have hmem : proposal ∈ earlier := by
        rw [hsplit]
        exact List.mem_append_right _ List.mem_cons_self
      exact ⟨_, cfg, run, htoken, r, earlier, rfl, hcall, proposal, hmem, hdue⟩

end ProofOfHeart
