import ProofOfHeart.Board.Entries
import ProofOfHeart.Laws.Succession

/-! # Who changes the settings

The settings are the store of the administration, the rules of voting and the caps on
durations. Whatever changes one of them is signed by the admin whom the succession names
at that moment, apart from the acceptance of a nomination and a pause in an emergency.
-/

namespace ProofOfHeart

open Checked Function Trace Handover

variable {host : Host} {tr : List Receipt} {cfg : Config} {s s' : State} {r : Receipt}
  {env : Env} {call : Call} {v : View} {seat : Office Address}

/-! ## The settings -/

@[ext]
structure Settings where
  admin : AdminStore
  minVotesQuorum : Option Nat
  approvalThresholdBps : Option Nat
  minVotingBalance : Int
  categoryThresholdBps : Category → Option Nat
  durationCap : Category → Option Nat

def State.settings (s : State) : Settings where
  admin := s.admin
  minVotesQuorum := s.voting.minVotesQuorum
  approvalThresholdBps := s.voting.approvalThresholdBps
  minVotingBalance := s.voting.minVotingBalance
  categoryThresholdBps := s.voting.categoryThresholdBps
  durationCap := s.campaigns.categoryDurationCap

/-- Everything but the signer of an emergency and the nominee answers to the admin. -/
inductive Receipt.GovernedBy (r : Receipt) (seat : Office Address) : Prop
  | admin (signed : r.signedBy seat.holder)
  | heir {heir : Address} (hcall : r.call = .acceptAdminTransfer)
      (nominated : seat.offered = some heir) (signed : r.signedBy heir)
  | emergency {caller : Address} (hcall : r.call = .emergencyPause caller)
      (signer : caller ∈ r.pre.admin.emergencyPauseSigners) (signed : r.signedBy caller)
      (only : r.post.settings =
        { r.pre.settings with admin := { r.pre.admin with paused := true } })

theorem View.ByAdmin.signs {caller : Address} (h : v.ByAdmin env caller)
    (hoffice : v.admin.office = some seat) : env.auth seat.holder = true := by
  obtain ⟨hadmin, -⟩ := AdminStore.office_eq_some.mp hoffice
  obtain rfl := Option.some.inj (hadmin.symm.trans h.1)
  exact h.2

/-! ## Every call -/

/-- The part of the settings that lies on the board. -/
def Board.rules (b : Board) (store : AdminStore) : Settings where
  admin := store
  minVotesQuorum := b.voting.minVotesQuorum
  approvalThresholdBps := b.voting.approvalThresholdBps
  minVotingBalance := b.voting.minVotingBalance
  categoryThresholdBps := b.voting.categoryThresholdBps
  durationCap := b.durationCap

theorem State.settings_eq : s.settings = (board s).rules s.admin := rfl

/-- Rules and caps are kept by every call that the admin has not signed. -/
theorem dispatch_rules_kept (hcall : call.deploys = false) (h : dispatch env s call = .ok s')
    (hoffice : s.admin.office = some seat) (unsigned : env.auth seat.holder = false)
    (store : AdminStore) : (board s').rules store = (board s).rules store := by
  have notByAdmin : ∀ {caller : Address}, ¬ (view s).ByAdmin env caller := fun byAdmin =>
    Bool.noConfusion (unsigned.symm.trans (byAdmin.signs hoffice))
  cases dispatch_posting hcall h with
  | votingRules hrule hboard =>
      have hstep := dispatch_rule hrule h
      rw [hboard] at hstep
      cases hstep with
      | params byAdmin | balance byAdmin | threshold byAdmin | noThreshold byAdmin =>
          exact absurd byAdmin notByAdmin
  | entries hentry hboard =>
      have hstep := dispatch_entry hentry h
      generalize board s' = b at hstep
      cases hstep with
      | capDuration byAdmin | uncapDuration byAdmin => exact absurd byAdmin notByAdmin
      | censure =>
          unfold Board.censure
          split <;> rfl
      | uncensure =>
          unfold Board.uncensure
          split <;> rfl
      | _ => rfl
  | describe _ hboard =>
      rw [hboard]
      split <;> rfl
  | purge _ _ hboard =>
      rw [hboard]
      dsimp only
      split <;> rfl
  | vote _ _ _ _ _ hboard =>
      rw [hboard]
      dsimp only [VotingStore.count]
      split <;> rfl
  | create _ _ hboard | handOver _ _ hboard | contribute _ hboard | batch hboard
  | refund hboard | cancel _ _ _ hboard | verify hboard | certify _ _ _ hboard
  | verifyBatch hboard | kept _ hboard =>
      exact (congrArg (fun b => Board.rules b store) hboard).trans rfl

theorem Receipt.Valid.governed (h : r.Valid host) (conf : (view r.pre).Configured)
    (hoffice : r.pre.admin.office = some seat) (hchanged : r.post.settings ≠ r.pre.settings)
    (hauto : r.pre.admin.autoPaused = false) : r.GovernedBy seat := by
  by_contra hnot
  have unsigned : r.env.auth seat.holder = false :=
    Bool.eq_false_of_not_eq_true fun signed => hnot (.admin signed)
  have notByAdmin : ∀ {caller : Address}, ¬ (view r.pre.clearMoved).ByAdmin r.env caller :=
    fun byAdmin => Bool.noConfusion (unsigned.symm.trans (byAdmin.signs hoffice))
  have hrules := dispatch_rules_kept (h.not_deploys conf) h.dispatched hoffice unsigned
  have hsettings : r.post.admin = r.pre.admin → False := fun hsame =>
    hchanged (by rw [State.settings_eq, hsame]; exact hrules r.pre.admin)
  rcases (h.effect conf).admin with hsame | ⟨store, hstep, hstore⟩
  · exact hsettings hsame
  · have hpost : r.post.admin = store := hstore
    generalize hcall : r.call = call at hstep
    cases hstep with
    | pause byAdmin | unpause byAdmin | signers byAdmin | creation byAdmin | allowToken byAdmin
    | fee byAdmin | contributionCap byAdmin | minGoal byAdmin | maxGoal byAdmin | vesting byAdmin
    | propose byAdmin | accept byAdmin | cancelToken byAdmin | tokenDelay byAdmin
    | nominate byAdmin | nominateStored byAdmin | withdrawNomination byAdmin | migrate byAdmin =>
        exact notByAdmin byAdmin
    | emergencyPause signer auth =>
        refine hnot (.emergency hcall signer auth ?_)
        rw [State.settings_eq, hpost]
        exact hrules _
    | handOver pending auth =>
        exact hnot (.heir hcall ((AdminStore.office_eq_some.mp hoffice).2.symm.trans pending) auth)
    | resume =>
        refine hsettings (hpost.trans ?_)
        change { r.pre.admin with autoPaused := false } = r.pre.admin
        rw [← hauto]

/-! ## The pause flags -/

/-- The calls that pause the contract. -/
def Call.pauses : Call → Bool
  | .pause | .emergencyPause _ => true
  | _ => false

theorem Effect.autoPaused {v' : View} (h : Effect env v call v')
    (hauto : v.admin.autoPaused = false) : v'.admin.autoPaused = false := by
  rcases h.admin with hsame | ⟨store, hstep, hstore⟩
  · rwa [hsame]
  · rw [hstore]
    cases hstep with
    | unpause | resume => rfl
    | _ => exact hauto

/-- The only calls that set the flag fail, and take it back. -/
theorem run_autoPaused (run : Run (machine host) tr cfg) :
    cfg.state.admin.autoPaused = false := by
  refine run.invariant (I := fun _ cfg => cfg.state.admin.autoPaused = false) ?_ ?_ ?_
  · intro r cfg hstart
    obtain ⟨-, -, -, -, -, -, hauto⟩ := start_admin hstart
    exact hauto
  · rintro tr cfg r cfg' run hauto ⟨hvalid, -, hpre, rfl⟩
    have conf := (run_sane run).toConfigured
    rw [← hpre] at hauto conf
    exact (hvalid.effect conf).autoPaused hauto
  · rintro tr cfg cfg' hauto ⟨tokens, -, rfl⟩
    exact hauto

/-- A call that pauses sets the flag, `unpause` takes it away, and the others keep it. -/
theorem dispatch_paused (hcall : call.deploys = false) (h : dispatch env s call = .ok s') :
    s'.admin.paused = true ↔
      call.pauses = true ∨ call ≠ .unpause ∧ s.admin.paused = true := by
  have hkept (hpauses : call.pauses = false) (hlifts : call ≠ .unpause) :
      s'.admin.paused = true ↔ call.pauses = true ∨ call ≠ .unpause ∧ s.admin.paused = true := by
    have hsame : s'.admin.paused = s.admin.paused := by
      rcases (dispatch_effect hcall h).admin with hsame | ⟨store, hstep, hstore⟩
      · exact congrArg AdminStore.paused hsame
      · refine (congrArg AdminStore.paused hstore).trans ?_
        cases hstep with
        | pause | emergencyPause => cases hpauses
        | unpause => exact absurd rfl hlifts
        | _ => rfl
    simp [hsame, hpauses, hlifts]
  cases call with
  | pause =>
      obtain ⟨store, hstep, hview⟩ := pause_spec h
      cases hstep
      have hpaused : s'.admin.paused = true := congrArg (fun v : View => v.admin.paused) hview
      simp [hpaused, Call.pauses]
  | emergencyPause caller =>
      obtain ⟨store, hstep, hview⟩ := emergencyPause_spec h
      cases hstep
      have hpaused : s'.admin.paused = true := congrArg (fun v : View => v.admin.paused) hview
      simp [hpaused, Call.pauses]
  | unpause =>
      obtain ⟨store, hstep, hview⟩ := unpause_spec h
      cases hstep
      have hlifted : s'.admin.paused = false := congrArg (fun v : View => v.admin.paused) hview
      simp [hlifted, Call.pauses]
  | _ => exact hkept rfl Call.noConfusion

/-! ## The laws -/

/-- Along a run every change of a setting is made by whom the succession entitles to it. -/
theorem settings_governed (run : Run (machine host) tr cfg) : ∃ first, DeployedBy first tr ∧
    AdminFollows first tr cfg.state ∧
    ∀ later r earlier, tr = later ++ r :: earlier → r.call.deploys = false →
      r.post.settings ≠ r.pre.settings → r.GovernedBy (adminRules.after first earlier) := by
  refine admin_invariant (P := fun first tr => ∀ later r earlier, tr = later ++ r :: earlier →
    r.call.deploys = false → r.post.settings ≠ r.pre.settings →
      r.GovernedBy (adminRules.after first earlier)) ?_ ?_ run
  · intro r first hdeploys
    refine forall_split_cons.mpr ⟨fun hnot => ?_, fun later x earlier heq => ?_⟩
    · cases hdeploys.symm.trans hnot
    · simp at heq
  · rintro tr cfg r first run hvalid hpre ⟨seat, hseat, follows⟩ ih
    refine forall_split_cons.mpr ⟨fun _ hchanged => ?_, ih⟩
    have conf := (run_sane run).toConfigured
    have hauto := run_autoPaused run
    rw [← hpre] at conf hauto
    rw [← follows.now]
    exact hvalid.governed conf hseat hchanged hauto

/-- The admin names a signer for emergencies, who pauses the contract. -/
def Sample.emergency : List Request :=
  [ask 1 admin (.setEmergencyPauseSigners admin [bob]), ask 2 bob (.emergencyPause bob)]

theorem settings_governed_sample : ∃ tr cfg, Run (machine Sample.host) tr cfg ∧
    ∃ r earlier first, tr = r :: earlier ∧ DeployedBy first tr ∧
      r.post.settings ≠ r.pre.settings ∧ r.GovernedBy (adminRules.after first earlier) := by
  have h : Sample.Ends 300 Sample.emergency fun tr _ => ∃ r ∈ tr.head?,
      r.call.deploys = false ∧ r.pre.admin.paused = false ∧ r.post.admin.paused = true := by
    decide +kernel
  obtain ⟨tr, cfg, run, r, hhead, hcall, hbefore, hafter⟩ := h.run
  obtain ⟨earlier, rfl⟩ := List.head?_eq_some_iff.mp hhead
  have hchanged : r.post.settings ≠ r.pre.settings := by
    intro heq
    have hpaused : r.post.admin.paused = r.pre.admin.paused :=
      congrArg (fun settings => settings.admin.paused) heq
    exact Bool.noConfusion (hafter.symm.trans (hpaused.trans hbefore))
  obtain ⟨first, hdeploys, -, hgoverned⟩ := settings_governed run
  exact ⟨_, cfg, run, r, earlier, first, rfl, hdeploys, hchanged,
    hgoverned [] r earlier rfl hcall hchanged⟩

/-- The contract is paused exactly while no `unpause` has followed the latest pause. The
flag of the automatic pause is never set, so that `resume_campaign` never succeeds. -/
theorem pause_history (run : Run (machine host) tr cfg) :
    (cfg.state.admin.paused = true ↔
      Since (fun r => r.call ≠ .unpause) (fun r => r.call.pauses = true) tr) ∧
    cfg.state.admin.autoPaused = false ∧
    ∀ env c caller s', invoke env cfg.state (.resumeCampaign c caller) ≠ .ok s' := by
  have hauto := run_autoPaused run
  refine ⟨?_, hauto, fun env c caller s' h => ?_⟩
  · refine run.invariant (I := fun tr cfg => (cfg.state.admin.paused = true ↔
      Since (fun r => r.call ≠ .unpause) (fun r => r.call.pauses = true) tr)) ?_ ?_ ?_
    · intro r cfg hstart
      obtain ⟨first, token, platformFee, hcall, -, hpaused, -⟩ := start_admin hstart
      rw [since_cons, hcall, hpaused]
      refine iff_of_false Bool.false_ne_true ?_
      rintro (hpauses | ⟨-, hsince⟩)
      · cases hpauses
      · cases hsince
    · rintro tr cfg r cfg' run ih ⟨hvalid, -, hpre, rfl⟩
      have conf := (run_sane run).toConfigured
      rw [← hpre] at conf ih
      rw [since_cons, ← ih]
      have hpaused := dispatch_paused (hvalid.not_deploys conf) hvalid.dispatched
      exact hpaused
    · rintro tr cfg cfg' ih ⟨tokens, -, rfl⟩
      exact ih
  · have hvalid : Receipt.Valid env.host ⟨env, .resumeCampaign c caller, cfg.state, s'⟩ := ⟨rfl, h⟩
    have hdispatch := hvalid.dispatched
    simp only [dispatch, resumeCampaign, bind_eq_ok, rejectIf_eq_ok] at hdispatch
    obtain ⟨_, -, _, hset, -⟩ := hdispatch
    exact hset hauto

/-- Paused in an emergency, released by the admin, and paused once more. -/
def Sample.pausedTwice : List Request :=
  emergency ++ [ask 3 admin .unpause, ask 4 admin .pause]

theorem pause_history_sample : ∃ tr cfg, Run (machine Sample.host) tr cfg ∧
    cfg.state.admin.paused = true ∧
    Since (fun r => r.call ≠ .unpause) (fun r => r.call.pauses = true) tr := by
  have h : Sample.Ends 300 Sample.pausedTwice fun _ cfg => cfg.state.admin.paused = true := by
    decide +kernel
  obtain ⟨tr, cfg, run, hpaused⟩ := h.run
  exact ⟨tr, cfg, run, hpaused, (pause_history run).1.mp hpaused⟩

end ProofOfHeart
