import ProofOfHeart.Laws.Authority
import ProofOfHeart.Laws.PlatformCounters
import ProofOfHeart.Laws.RefundOrder
import ProofOfHeart.Laws.Repayment
import ProofOfHeart.Laws.Sovereignty
import ProofOfHeart.Laws.Verification

/-! # A campaign can be wound down at any time

As long as nothing has been paid out to the creator, no contribution is stuck. The admin
lifts the pause and cancels, and then the contributors claim one by one. Nobody else has
to sign, and the ledger need not move on.
-/

namespace ProofOfHeart

open Checked Function Trace Handover

variable {host : Host} {tr : List Receipt} {cfg : Config} {c : Nat} {s s' : State}
  {r : Receipt} {env : Env} {a : Account} {v : View} {admin token who : Address}
  {campaign : Campaign} {order rest : List Address} {envs : Address → Env} {fees : Nat → Nat}
  {flag : Campaign → Bool} {reason : Text} {ledger : Ledger}

/-! ## Who has signed before -/

theorem run_admin_signed (run : Run (machine host) tr cfg)
    (hadmin : cfg.state.admin.admin = some admin) : ∃ r ∈ tr, r.signedBy admin := by
  obtain ⟨first, ⟨r, hr, token, platformFee, hcall⟩, ⟨seat, hseat, follows⟩, -⟩ :=
    admin_invariant (P := fun _ _ => True) (fun _ => trivial) (fun _ _ _ _ _ => trivial) run
  have hholder := (AdminStore.office_eq_some.mp hseat).1
  obtain rfl := Option.some.inj (hadmin.symm.trans hholder)
  rw [follows.now]
  rcases follows.lawful.holder with ⟨hsame, -⟩ | ⟨later, x, earlier, htr, -, -, hsigned, -⟩
  · have hsigned := run_receipts (P := fun r => r.call.authority.Signs r.env r.pre)
      (fun r cfg hstart => hstart.1.authorised) (fun _ hvalid _ => hvalid.authorised) run r hr
    rw [hcall] at hsigned
    rw [hsame]
    exact ⟨r, hr, hsigned⟩
  · exact ⟨x, htr ▸ List.mem_append_right _ List.mem_cons_self, hsigned⟩

/-- Whoever has contributed has signed a call. -/
theorem run_contributor_signed (run : Run (machine host) tr cfg) (c : Nat) (who : Address)
    (h : cfg.state.contributions.contribution c who ≠ 0) : ∃ r ∈ tr, r.signedBy who := by
  revert c who
  refine run.invariant (I := fun tr cfg => ∀ c who,
    cfg.state.contributions.contribution c who ≠ 0 → ∃ r ∈ tr, r.signedBy who) ?_ ?_ ?_
  · intro r cfg hstart c who h
    have hblank : cfg.state.contributions.contribution c who = 0 :=
      congrArg (fun f : Funds => f.contribution who) ((start_fresh hstart).funds c)
    exact absurd hblank h
  · rintro tr cfg r cfg' run ih ⟨hvalid, -, hpre, rfl⟩ c who h
    by_cases hauth : r.env.auth who = true
    · exact ⟨r, List.mem_cons_self, hauth⟩
    have sane := run_sane run
    rw [← hpre] at sane ih
    have hactor : ∀ c, (r.call.act c).actor ≠ some who := fun c hactor =>
      hauth (dispatch_signed (Call.wallet_of_actor hactor) _ hvalid.dispatched)
    have hsame : r.post.contributions.contribution c who =
        r.pre.contributions.contribution c who :=
      ((hvalid.stepped sane).sameEntries sane.toRegistered hactor c).contribution
    obtain ⟨x, hx, hsigned⟩ := ih c who (hsame ▸ h)
    exact ⟨x, List.mem_cons_of_mem _ hx, hsigned⟩
  · rintro tr cfg cfg' ih ⟨tokens, -, rfl⟩
    exact ih

/-! ## One more call -/

/-- A context in which a single address signs. -/
def Env.alone (host : Host) (ledger : Ledger) (who : Address) : Env where
  host := host
  ledger := ledger
  auth := fun address => address = who
  isTokenContract := fun _ => false

theorem Env.alone_auth : (Env.alone host ledger who).auth who = true := decide_eq_true rfl

/-- A call that neither pays nor deposits keeps the order, as long as it cancels nothing that
has been paid out in part. -/
theorem Orderly.cons (h : Orderly fees tr) (hcancels : ∀ c, r.CancelsUnclaimed c)
    (hquiet : ∀ c act, r.call.act c = act → act = .other ∨ act = .adminCancel) :
    Orderly fees (r :: tr) where
  cancels := List.forall_mem_cons.mpr ⟨hcancels, h.cancels⟩
  closes c := by
    rintro ⟨x, hx, hcloses⟩
    rcases List.mem_cons.mp hx with rfl | hx
    · obtain ⟨milestoneId, hact, -⟩ := hcloses
      rcases hquiet c _ hact with h | h
      all_goals cases h
    · refine List.forall_mem_cons.mpr ⟨fun hclaim => ?_, h.closes c ⟨x, hx, hcloses⟩⟩
      rcases hquiet c _ rfl with hact | hact
      all_goals
        rw [hact] at hclaim
        cases hclaim
  sweeps := by
    refine List.forall_mem_cons.mpr ⟨fun c who a hact => ?_, h.sweeps⟩
    rcases hquiet c _ hact with h | h
    all_goals cases h
  deposits := by
    refine List.forall_mem_cons.mpr ⟨fun c amount a hact => ?_, h.deposits⟩
    rcases hquiet c _ hact with h | h
    all_goals cases h

theorem Custodial.cons (h : Custodial token tr) (hdeploys : r.call.deploys = false)
    (hparty : r.env.auth contractAddress = false) (hmigrates : r.call.migrates = false) :
    Custodial token (r :: tr) where
  start := by
    refine List.forall_mem_cons.mpr ⟨fun hcall => ?_, h.start⟩
    cases hdeploys.symm.trans hcall
  party := List.forall_mem_cons.mpr ⟨hparty, h.party⟩
  migrates := by
    refine forall_split_cons.mpr ⟨fun admin hcall => ?_, h.migrates⟩
    rw [hcall] at hmigrates
    cases hmigrates

/-- A run that is in order and keeps what it holds in the token. -/
structure Sound (host : Host) (fees : Nat → Nat) (token : Address) (tr : List Receipt)
    (cfg : Config) : Prop where
  run : Run (machine host) tr cfg
  orderly : Orderly fees tr
  custody : Custodial token tr

theorem Sound.admin_ne (h : Sound host fees token tr cfg)
    (hadmin : cfg.state.admin.admin = some admin) : contractAddress ≠ admin := by
  rintro rfl
  obtain ⟨r, hr, hsigned⟩ := run_admin_signed h.run hadmin
  cases hsigned.symm.trans (h.custody.party r hr)

theorem Sound.contributor_ne (h : Sound host fees token tr cfg)
    (hcontributed : cfg.state.contributions.contribution c who ≠ 0) : contractAddress ≠ who := by
  rintro rfl
  obtain ⟨r, hr, hsigned⟩ := run_contributor_signed h.run c _ hcontributed
  cases hsigned.symm.trans (h.custody.party r hr)

/-- A call of the admin alone, at the time of the ledger. -/
def adminCall (host : Host) (cfg : Config) (admin : Address) (call : Call) (s' : State) : Receipt :=
  ⟨.alone host cfg.ledger admin, call, cfg.state, s'⟩

theorem Ledger.le_refl (ledger : Ledger) : ledger.le ledger := ⟨Nat.le_refl _, Nat.le_refl _⟩

theorem Sound.step {call : Call} (h : Sound host fees token tr cfg)
    (hadmin : cfg.state.admin.admin = some admin)
    (hinvoke : invoke (.alone host cfg.ledger admin) cfg.state call = .ok s')
    (hdeploys : call.deploys = false) (hmigrates : call.migrates = false)
    (hcancels : ∀ c, (adminCall host cfg admin call s').CancelsUnclaimed c)
    (hquiet : ∀ c act, call.act c = act → act = .other ∨ act = .adminCancel) :
    Sound host fees token (adminCall host cfg admin call s' :: tr) ⟨cfg.ledger, s'⟩ where
  run := h.run.step ⟨⟨rfl, hinvoke⟩, Ledger.le_refl _, rfl, rfl⟩
  orderly := h.orderly.cons hcancels hquiet
  custody := h.custody.cons hdeploys (decide_eq_false (h.admin_ne hadmin)) hmigrates

/-! ## The calls of the admin -/

theorem unpause_goes (hadmin : s.admin.admin = some admin) (hauth : env.auth admin = true) :
    unpause env s = .ok { s with admin.paused := false, admin.autoPaused := false } := by
  simp only [unpause, assertStoredAdmin, assertAdmin, getAdmin, requireAuth, bind_eq_ok, okOr_eq_ok,
    rejectIf_eq_ok, pure_eq_ok]
  exact ⟨(), ⟨admin, hadmin, admin, hadmin, (), not_not_intro rfl, by simp [hauth]⟩, trivial⟩

theorem incrementCancelledCampaignCount_of
    (hroom : s.campaigns.cancelledCampaignCount + 1 < 2 ^ 32) :
    ∃ s', incrementCancelledCampaignCount s = .ok s' := by
  simp only [incrementCancelledCampaignCount, bind_eq_ok, okOr_eq_ok, pure_eq_ok,
    Word.checkedAdd_eq_some]
  exact ⟨_, _, ⟨rfl, hroom⟩, rfl⟩

theorem decrementActiveCampaignCount_cancelled :
    (decrementActiveCampaignCount s).campaigns.cancelledCampaignCount =
      s.campaigns.cancelledCampaignCount := by
  unfold decrementActiveCampaignCount
  split <;> rfl

theorem transition_cancelled_of (notCancelled : campaign.isCancelled = false)
    (unpaid : campaign.fundsWithdrawn = false) :
    transition (.of campaign) .cancelled = .ok () := by
  rw [CampaignState.of, notCancelled, unpaid]
  cases campaign.isVerified with
  | true => rfl
  | false => rfl

/-- What the cancellation by the admin needs. -/
structure Cancellable (env : Env) (s : State) (admin : Address) (campaign : Campaign)
    (reason : Text) : Prop where
  stored : s.admin.admin = some admin
  signed : env.auth admin = true
  unpaused : s.admin.paused = false ∧ s.admin.autoPaused = false
  active : campaign.isActive = true
  notCancelled : campaign.isCancelled = false
  unpaid : campaign.fundsWithdrawn = false
  reason : 0 < reason.length ∧ reason.length ≤ campaignDescriptionMaxLen
  counted : I128.InRange (s.contributions.totalRaised - campaign.amountRaised)
  room : s.campaigns.cancelledCampaignCount + 1 < 2 ^ 32

theorem Cancellable.recorded (h : Cancellable env s admin campaign reason) (c : Nat) :
    ∃ s', recordCancellation s c campaign = .ok s' := by
  obtain ⟨t, ht, hcount⟩ : ∃ t, deductRaised s campaign = .ok t ∧
      t.campaigns.cancelledCampaignCount = s.campaigns.cancelledCampaignCount := by
    unfold deductRaised
    split
    next =>
        simp only [bind_eq_ok, okOr_eq_ok, I128.checkedSub_eq_some, pure_eq_ok]
        exact ⟨_, ⟨_, ⟨rfl, h.counted⟩, rfl⟩, rfl⟩
    next => exact ⟨s, rfl, rfl⟩
  simp only [recordCancellation, bind_eq_ok]
  rw [exists_comm]
  refine ⟨t, exists_and_left.mpr ⟨ht, incrementCancelledCampaignCount_of ?_⟩⟩
  rw [decrementActiveCampaignCount_cancelled]
  exact hcount ▸ h.room

theorem Cancellable.goes (h : Cancellable env s admin campaign reason)
    (hcampaign : s.campaigns.campaign c = some campaign) :
    ∃ s', adminCancelCampaign env s admin c reason = .ok s' := by
  obtain ⟨s', hs'⟩ := h.recorded c
  have hreason := h.reason
  refine ⟨s', ?_⟩
  simp only [adminCancelCampaign, assertAdmin, getAdmin, getCampaignOrError, requireAuth,
    bind_eq_ok, okOr_eq_ok, rejectIf_eq_ok, requireNotPaused_eq_ok, requireActiveCampaign_eq_ok]
  exact ⟨(), ⟨admin, h.stored, (), not_not_intro rfl, by simp [h.signed]⟩, (), h.unpaused, campaign,
    hcampaign, (), ⟨h.active, h.notCancelled⟩, (), by simp [h.unpaid], (), by omega, (),
    transition_cancelled_of h.notCancelled h.unpaid, hs'⟩

theorem View.ids_card : v.ids.card = v.campaignCount := by simp [View.ids]

/-- A campaign without the flag leaves room on the counter of the flag. -/
theorem View.Registered.census_lt (reg : v.Registered) (ha : v.account c = some a)
    (hflag : flag a.record = false) : v.census flag < v.campaignCount := by
  have hrecord := (View.account_eq_some.mp ha).1
  rw [← View.ids_card]
  refine Finset.card_lt_card (Finset.filter_ssubset.mpr ⟨c, reg.mem_ids ha, ?_⟩)
  rw [hrecord, Option.any_some, hflag]
  decide

theorem unpause_acts (c : Nat) (act : Act) (h : Call.unpause.act c = act) :
    act = .other ∨ act = .adminCancel := .inl h.symm

theorem adminCancel_acts {id : Nat} (c : Nat) (act : Act)
    (h : (Call.adminCancelCampaign admin id reason).act c = act) :
    act = .other ∨ act = .adminCancel := by
  unfold Call.act at h
  dsimp only at h
  split at h
  next => exact .inr h.symm
  next => exact .inl h.symm

/-- The pause is lifted, and nothing else happens. -/
theorem Sound.unpaused (h : Sound host fees token tr cfg)
    (hadmin : cfg.state.admin.admin = some admin) :
    ∃ s', Sound host fees token (adminCall host cfg admin .unpause s' :: tr) ⟨cfg.ledger, s'⟩ ∧
      s' = { cfg.state.clearMoved with admin.paused := false, admin.autoPaused := false } := by
  have typed : Call.unpause.WellTyped := trivial
  have hinvoke : invoke (.alone host cfg.ledger admin) cfg.state .unpause = .ok _ :=
    (invoke_eq typed).trans (unpause_goes hadmin Env.alone_auth)
  refine ⟨_, h.step hadmin hinvoke rfl rfl (fun c hact => ?_) unpause_acts, rfl⟩
  cases hact

/-- A campaign that is neither paid out nor cancelled can be cancelled by the admin. -/
theorem Sound.cancellable (h : Sound host fees token tr cfg)
    (hadmin : cfg.state.admin.admin = some admin)
    (unpaused : cfg.state.admin.paused = false ∧ cfg.state.admin.autoPaused = false)
    (hcampaign : cfg.state.campaigns.campaign c = some campaign)
    (live : campaign.isCancelled = false) (unpaid : campaign.fundsWithdrawn = false)
    (counted : I128.minValue ≤ cfg.state.contributions.totalRaised - campaign.amountRaised) :
    Cancellable (.alone host cfg.ledger admin) cfg.state.clearMoved admin campaign [0] := by
  have ha := View.account_of_campaign (v := view cfg.state) hcampaign
  have phase := run_phase h.run ha
  have books := (run_books h.run ha).1
  have htotal := (run_bounded h.run).totalRaised
  have hcount := run_count_lt h.run
  have hfew : _ < (view cfg.state).campaignCount :=
    (run_sane h.run).toRegistered.census_lt ha live
  have hraised : 0 ≤ campaign.amountRaised :=
    Int.le_trans books.effective_nonneg books.effective_le
  refine ⟨hadmin, Env.alone_auth, unpaused, ?_, live, unpaid, by decide, ?_, ?_⟩
  · by_contra hclosed
    rcases phase.closed.mp (Bool.eq_false_of_not_eq_true hclosed) with h | h
    · cases live.symm.trans h
    · cases unpaid.symm.trans h
  · exact ⟨counted, Int.le_trans (Int.sub_le_self _ hraised) htotal⟩
  · have hsame : cfg.state.campaigns.cancelledCampaignCount =
        (view cfg.state).census Campaign.isCancelled := (run_counts h.run).2
    change cfg.state.campaigns.cancelledCampaignCount + 1 < 2 ^ 32
    rw [hsame]
    omega

/-- What the contributors rely on. -/
structure Waiting (s : State) (c : Nat) (token : Address) (held : Address → Int) : Prop where
  cancelled : ∃ campaign, s.campaigns.campaign c = some campaign ∧ campaign.isCancelled = true
  held : s.contributions.contribution c = held
  currency : (view s).currency c = some token
  unpaused : s.admin.paused = false ∧ s.admin.autoPaused = false

/-- After the cancellation everybody still has what he has contributed. -/
theorem adminCancelCampaign_waiting (h : adminCancelCampaign env s admin c reason = .ok s')
    (currency : (view s).currency c = some token)
    (unpaused : s.admin.paused = false ∧ s.admin.autoPaused = false) :
    Waiting s' c token (s.contributions.contribution c) := by
  obtain ⟨b, hb, -, -, hview⟩ := adminCancelCampaign_spec h
  have hcampaign : (view s').campaign c = some b.cancel.record := by
    rw [hview]
    exact update_self ..
  have hfunds : (view s').funds c = (view s).funds c := by
    rw [hview]
    exact (update_self ..).trans (View.account_eq_some.mp hb).2.symm
  have hstore : s'.admin = s.admin := congrArg View.admin hview
  refine ⟨⟨_, hcampaign, rfl⟩, congrArg Funds.contribution hfunds, ?_, hstore ▸ unpaused⟩
  rw [← currency]
  exact View.currency_congr (congrArg Funds.token hfunds) (congrArg AdminStore.token hstore)

/-- The admin cancels, and the contributors can wait for their money. -/
theorem Sound.cancelled (h : Sound host fees token tr cfg)
    (hadmin : cfg.state.admin.admin = some admin)
    (unpaused : cfg.state.admin.paused = false ∧ cfg.state.admin.autoPaused = false)
    (hcampaign : cfg.state.campaigns.campaign c = some campaign)
    (currency : (view cfg.state).currency c = some token)
    (live : campaign.isCancelled = false) (unpaid : campaign.fundsWithdrawn = false)
    (unclaimed : ∀ milestoneId, cfg.state.campaigns.milestoneClaimed c milestoneId = false)
    (counted : I128.minValue ≤ cfg.state.contributions.totalRaised - campaign.amountRaised) :
    ∃ s', Sound host fees token
        (adminCall host cfg admin (.adminCancelCampaign admin c [0]) s' :: tr) ⟨cfg.ledger, s'⟩ ∧
      Waiting s' c token (cfg.state.contributions.contribution c) := by
  have ha := View.account_of_campaign (v := view cfg.state) hcampaign
  obtain ⟨s', hcancel⟩ :=
    (h.cancellable hadmin unpaused hcampaign live unpaid counted).goes (c := c) hcampaign
  have typed : (Call.adminCancelCampaign admin c [0]).WellTyped :=
    Nat.lt_of_le_of_lt ((run_sane h.run).exists_iff c |>.mp ⟨_, ha⟩).2 (run_count_lt h.run)
  have hinvoke : invoke (.alone host cfg.ledger admin) cfg.state
      (.adminCancelCampaign admin c [0]) = .ok s' := (invoke_eq typed).trans hcancel
  have hcancels (d : Nat) : (adminCall host cfg admin (.adminCancelCampaign admin c [0])
      s').CancelsUnclaimed d := by
    intro hact
    have hsame : d = c := by
      by_contra hne
      rw [adminCall, Call.act, if_neg hne] at hact
      cases hact
    exact hsame ▸ unclaimed
  have sound := h.step hadmin hinvoke rfl rfl hcancels adminCancel_acts
  have hcurrency : (view cfg.state.clearMoved).currency c = some token := currency
  have waiting := adminCancelCampaign_waiting hcancel hcurrency unpaused
  exact ⟨s', sound, waiting⟩

/-! ## The claims -/

theorem AccountStep.repaid {act : Act} {moves : List Transfer} {delta : Int} {a' : Account}
    (h : AccountStep env v c act moves delta a a') (hact : act = .refund who) :
    ∃ token, v.currency c = some token ∧
      moves = [⟨token, contractAddress, who, a.funds.contribution who⟩] := by
  cases h with
  | refunded refundable pos currency =>
      obtain rfl := Act.refund.inj hact
      exact ⟨_, currency, rfl⟩
  | _ => cases hact

theorem Receipt.Valid.repays (h : r.Valid host) (sane : (view r.pre).Sane)
    (hcall : r.call = .claimRefund c who) :
    r.Repays c who (r.pre.contributions.contribution c who) := by
  have hact : r.call.act c = .refund who := by rw [hcall, Call.act, if_pos rfl]
  have hstepped := h.stepped sane
  cases hc : (view r.pre).account c with
  | none => cases hact.symm.trans (hstepped.free c hc).1
  | some a =>
      obtain ⟨delta, -, hexisting⟩ := hstepped.existing
      obtain ⟨a', -, hstep⟩ := hexisting c a hc
      have hfunds : fundsOf r.pre c = a.funds := (View.account_eq_some.mp hc).2
      have hrepaid := hstep.repaid hact
      rw [← hfunds] at hrepaid
      exact hrepaid

theorem refunded_other (h : who ∉ order) : (s.refunded c token order).contributions.contribution c
    who = s.contributions.contribution c who :=
  (congrFun (update_self ..) who).trans (Table.wipe_of_notMem h)

/-- The contributors on the list claim one after another, each alone. By induction on the
list, as in `Refunding.loop`. -/
theorem Refunding.onward (run : Run (machine host) tr ⟨ledger, s⟩)
    (h : Refunding (.alone host ledger) s c token campaign order) :
    ∃ later s', Run (machine host) (later ++ tr) ⟨ledger, s'⟩ ∧
      s'.clearMoved = s.refunded c token order ∧
      (∀ r ∈ later, ∃ who ∈ order, r.env = .alone host ledger who ∧ r.call = .claimRefund c who) ∧
      ∀ who ∈ order, ∃ r ∈ later, r.call = .claimRefund c who ∧
        r.Repays c who (s.contributions.contribution c who) := by
  induction order generalizing s campaign tr with
  | nil =>
      exact ⟨[], s, run, State.refunded_nil.symm, (fun _ hr => nomatch hr),
        fun _ hwho => nomatch hwho⟩
  | cons who rest ih =>
      obtain ⟨s1, hs1⟩ := h.goes
      have hwho : who ≠ contractAddress := fun heq => h.party (heq ▸ List.mem_cons_self)
      obtain ⟨hnot, -⟩ := List.nodup_cons.mp h.distinct
      have hvalid : Receipt.Valid host ⟨.alone host ledger who, .claimRefund c who, s, s1⟩ :=
        ⟨rfl, hs1⟩
      have hone : s1.clearMoved = s.refunded c token [who] :=
        claimRefund_refunded (s := s.clearMoved) h.currency hwho hvalid.dispatched
      have run1 := run.step (e := ⟨.alone host ledger who, .claimRefund c who, s, s1⟩)
        ⟨hvalid, Ledger.le_refl _, rfl, rfl⟩
      obtain ⟨later, s', hrun, hs', hclaims, hrepaid⟩ := ih run1 (hone ▸ h.next).of_clearMoved
      refine ⟨later ++ [⟨.alone host ledger who, .claimRefund c who, s, s1⟩], s', ?_, ?_, ?_, ?_⟩
      · rwa [List.append_assoc, List.singleton_append]
      · have hcleared : s1.refunded c token rest = s1.clearMoved.refunded c token rest := rfl
        rw [hs', hcleared, hone, State.refunded_cons hwho hnot]
      · refine List.forall_mem_append.mpr ⟨fun r hr => ?_, List.forall_mem_singleton.mpr ?_⟩
        · obtain ⟨other, hother, hasked⟩ := hclaims r hr
          exact ⟨other, List.mem_cons_of_mem _ hother, hasked⟩
        · exact ⟨who, List.mem_cons_self, rfl, rfl⟩
      · refine List.forall_mem_cons.mpr ⟨?_, fun other hother => ?_⟩
        · exact ⟨_, List.mem_append_right _ List.mem_cons_self, rfl,
            hvalid.repays (run_sane run) rfl⟩
        · obtain ⟨r, hr, hcall, hrepays⟩ := hrepaid other hother
          have hkept : s1.clearMoved.contributions.contribution c other =
              s.contributions.contribution c other := by
            rw [hone]
            exact refunded_other fun hmem => hnot (List.mem_singleton.mp hmem ▸ hother)
          exact ⟨r, List.mem_append_left _ hr, hcall, hkept ▸ hrepays⟩

/-- All that have contributed claim, and nothing is left. -/
theorem Sound.emptied {held : Address → Int} (h : Sound host fees token tr ⟨ledger, s⟩)
    (waiting : Waiting s c token held) :
    ∃ later s', Run (machine host) (later ++ tr) ⟨ledger, s'⟩ ∧ s'.Emptied c ∧
      (∀ r ∈ later, ∃ who, held who ≠ 0 ∧ r.env = .alone host ledger who ∧
        r.call = .claimRefund c who) ∧
      ∀ who, held who ≠ 0 → ∃ r ∈ later, r.call = .claimRefund c who ∧
        r.Repays c who (held who) := by
  obtain ⟨⟨campaign, hcampaign, hcancelled⟩, rfl, currency, unpaused⟩ := waiting
  have books := (run_books h.run (View.account_of_campaign (v := view s) hcampaign)).1
  have hfinite : {who | s.contributions.contribution c who ≠ 0}.Finite := books.contribution_finite
  generalize horder : hfinite.toFinset.toList = order
  have hall (who : Address) : who ∈ order ↔ s.contributions.contribution c who ≠ 0 := by
    rw [← horder, Finset.mem_toList, Set.Finite.mem_toFinset, Set.mem_ofPred_eq]
  have distinct : order.Nodup := horder ▸ Finset.nodup_toList _
  have emptied : (s.refunded c token order).Emptied c := run_emptied h.run hcampaign distinct hall
  have hclaims : ∃ later s', Run (machine host) (later ++ tr) ⟨ledger, s'⟩ ∧
      s'.clearMoved = s.refunded c token order ∧
      (∀ r ∈ later, ∃ who ∈ order, r.env = .alone host ledger who ∧ r.call = .claimRefund c who) ∧
      ∀ who ∈ order, ∃ r ∈ later, r.call = .claimRefund c who ∧
        r.Repays c who (s.contributions.contribution c who) := by
    by_cases hsome : order = []
    · subst hsome
      exact ⟨[], s, h.run, State.refunded_nil.symm, (fun _ hr => nomatch hr),
        fun _ hwho => nomatch hwho⟩
    · have hparty : contractAddress ∉ order := fun hmem => h.contributor_ne ((hall _).mp hmem) rfl
      refine Refunding.onward h.run (run_refunding h.run h.orderly h.custody hcampaign currency
        unpaused distinct hparty (fun who _ => Env.alone_auth) (fun _ _ => .inl hcancelled)
        (fun who => (hall who).mp) (fun hlive => ?_) hsome)
      cases hlive.symm.trans hcancelled
  obtain ⟨later, s', hrun, hs', hasked, hrepaid⟩ := hclaims
  rw [← hs'] at emptied
  refine ⟨later, s', hrun, ⟨emptied.contribution, emptied.contributorCount, emptied.effective⟩,
    fun r hr => ?_, fun who hwho => hrepaid who ((hall who).mpr hwho)⟩
  obtain ⟨who, hwho, hcall⟩ := hasked r hr
  exact ⟨who, (hall who).mp hwho, hcall⟩

/-! ## The law -/

/-- The admin's part of a wind-down, and a contributor's. Nobody else signs. -/
inductive Receipt.WindsDown (cfg : Config) (c : Nat) (r : Receipt) : Prop
  | admin {admin : Address} (hadmin : cfg.state.admin.admin = some admin)
      (alone : ∀ address, r.signedBy address ↔ address = admin)
      (hcall : r.call = .unpause ∨ ∃ reason, r.call = .adminCancelCampaign admin c reason)
  | contributor {who : Address} (contributed : cfg.state.contributions.contribution c who ≠ 0)
      (alone : ∀ address, r.signedBy address ↔ address = who) (hcall : r.call = .claimRefund c who)

/-- Nothing has gone to the creator, and the global counter can bear the cancellation. -/
structure State.Open (s : State) (c : Nat) (campaign : Campaign) : Prop where
  unpaid : campaign.fundsWithdrawn = false
  unclaimed : ∀ milestoneId, s.campaigns.milestoneClaimed c milestoneId = false
  counted : I128.minValue ≤ s.contributions.totalRaised - campaign.amountRaised

theorem Env.alone_signed {call : Call} {post : State} (address : Address) :
    (Receipt.mk (.alone host ledger who) call s post).signedBy address ↔ address = who :=
  decide_eq_true_iff

theorem adminCall_windsDown {asked : Config} {call : Call}
    (hadmin : cfg.state.admin.admin = some admin)
    (hcall : call = .unpause ∨ ∃ reason, call = .adminCancelCampaign admin c reason) :
    (adminCall host asked admin call s').WindsDown cfg c := .admin hadmin Env.alone_signed hcall

/-- The admin brings about that the contributors can claim. -/
theorem Sound.waiting (h : Sound host fees token tr cfg)
    (hcampaign : cfg.state.campaigns.campaign c = some campaign)
    (currency : (view cfg.state).currency c = some token)
    (hopen : campaign.isCancelled = true ∨ cfg.state.Open c campaign) :
    ∃ asked s', Sound host fees token (asked ++ tr) ⟨cfg.ledger, s'⟩ ∧
      Waiting s' c token (cfg.state.contributions.contribution c) ∧
      ∀ r ∈ asked, r.WindsDown cfg c := by
  obtain ⟨admin, hadmin⟩ := (run_sane h.run).administered
  obtain ⟨s1, sound1, hs1⟩ := h.unpaused hadmin
  have lifts : (adminCall host cfg admin .unpause s1).WindsDown cfg c :=
    adminCall_windsDown hadmin (.inl rfl)
  have hrecord : s1.campaigns.campaign c = some campaign := by rw [hs1]; exact hcampaign
  have hcurrency : (view s1).currency c = some token := by rw [hs1]; exact currency
  have unpaused : s1.admin.paused = false ∧ s1.admin.autoPaused = false := by
    rw [hs1]
    exact ⟨rfl, rfl⟩
  have hheld : s1.contributions.contribution c = cfg.state.contributions.contribution c := by
    rw [hs1]
    rfl
  cases hlive : campaign.isCancelled with
  | true =>
      exact ⟨[_], s1, sound1, ⟨⟨campaign, hrecord, hlive⟩, hheld, hcurrency, unpaused⟩,
        List.forall_mem_singleton.mpr lifts⟩
  | false =>
      obtain ⟨unpaid, unclaimed, counted⟩ := hopen.resolve_left (Bool.eq_false_iff.mp hlive)
      have hstored : s1.admin.admin = some admin := by rw [hs1]; exact hadmin
      obtain ⟨s2, sound2, waiting⟩ := sound1.cancelled hstored unpaused hrecord hcurrency hlive
        unpaid (by rw [hs1]; exact unclaimed) (by rw [hs1]; exact counted)
      refine ⟨[_, _], s2, sound2, hheld ▸ waiting, List.forall_mem_cons.mpr ⟨?_,
        List.forall_mem_singleton.mpr lifts⟩⟩
      exact adminCall_windsDown hadmin (.inr ⟨_, rfl⟩)

/-- The contributions to a campaign that has not been paid out can be got back at any time.
From every state the admin alone and then each contributor alone can take the steps that
pay everybody back and leave nothing. -/
theorem contributions_recoverable (run : Run (machine host) tr cfg) (orderly : Orderly fees tr)
    (custody : Custodial token tr) (hcampaign : cfg.state.campaigns.campaign c = some campaign)
    (currency : (view cfg.state).currency c = some token)
    (hopen : campaign.isCancelled = true ∨ cfg.state.Open c campaign) :
    ∃ later s', Run (machine host) (later ++ tr) ⟨cfg.ledger, s'⟩ ∧ s'.Emptied c ∧
      (∀ r ∈ later, r.WindsDown cfg c) ∧
      ∀ who, cfg.state.contributions.contribution c who ≠ 0 → ∃ r ∈ later,
        r.call = .claimRefund c who ∧
        r.Repays c who (cfg.state.contributions.contribution c who) := by
  have sound : Sound host fees token tr cfg := ⟨run, orderly, custody⟩
  obtain ⟨asked, s1, ready, waiting, hasked⟩ := sound.waiting hcampaign currency hopen
  obtain ⟨claims, s', hrun, emptied, hclaims, hrepaid⟩ := ready.emptied waiting
  refine ⟨claims ++ asked, s', ?_, emptied, ?_, fun who hwho => ?_⟩
  · rwa [List.append_assoc]
  · refine List.forall_mem_append.mpr ⟨fun r hr => ?_, hasked⟩
    obtain ⟨who, hwho, henv, hcall⟩ := hclaims r hr
    refine .contributor hwho (fun address => ?_) hcall
    rw [Receipt.signedBy, henv]
    exact decide_eq_true_iff
  · obtain ⟨r, hr, hrepays⟩ := hrepaid who hwho
    exact ⟨r, List.mem_append_left _ hr, hrepays⟩

/-- The contract is paused while two contributors have money in a campaign. -/
def Sample.halted : List Request := failed ++ [ask 2 Sample.admin .pause]

theorem contributions_recoverable_sample :
    ∃ tr cfg, Run (machine Sample.host) tr cfg ∧ cfg.state.admin.paused = true ∧
      ∃ later s', Run (machine Sample.host) (later ++ tr) ⟨cfg.ledger, s'⟩ ∧ s'.Emptied 1 ∧
        ∃ r ∈ later, r.call = .claimRefund 1 Sample.bob ∧ r.Repays 1 Sample.bob 20000 := by
  have h : Sample.Ends 0 Sample.halted fun tr cfg =>
      (∀ r ∈ tr, r.call.deploys = true → 0 ≤ r.pre.tokens.held Sample.token) ∧
      (∀ r ∈ tr, r.env.auth contractAddress = false) ∧
      (∀ r ∈ tr, r.call.migrates = false) ∧ (∀ r ∈ tr, r.call.mayOverdraw = false) ∧
      (view cfg.state).currency 1 = some Sample.token ∧ cfg.state.admin.paused = true ∧
      cfg.state.contributions.contribution 1 Sample.bob = 20000 ∧
      cfg.state.campaigns.campaignMilestones 1 = [] ∧
      ∃ campaign ∈ cfg.state.campaigns.campaign 1, campaign.fundsWithdrawn = false ∧
        I128.minValue ≤ cfg.state.contributions.totalRaised - campaign.amountRaised := by
    decide +kernel
  obtain ⟨tr, cfg, run, hstart, hparty, hmigrates, hplain, currency, paused, hbob, noPlan,
    campaign, hcampaign, unpaid, counted⟩ := h.run
  have custody : Custodial Sample.token tr := ⟨hstart, hparty, migratesEmpty_of_none hmigrates⟩
  have orderly : Orderly (fun _ => 0) tr := orderly_of_none hplain
  have unclaimed : ∀ milestoneId, cfg.state.campaigns.milestoneClaimed 1 milestoneId = false := by
    rcases run_planned run (View.account_of_campaign (v := view cfg.state) hcampaign) with
      ⟨-, hnone⟩ | ⟨hplan, -⟩
    · exact hnone
    · exact absurd noPlan hplan
  obtain ⟨later, s', hlater, emptied, -, hrepaid⟩ := contributions_recoverable run orderly custody
    hcampaign currency (.inr ⟨unpaid, unclaimed, counted⟩)
  have hsome : cfg.state.contributions.contribution 1 Sample.bob ≠ 0 := by
    rw [hbob]
    decide
  exact ⟨tr, cfg, run, paused, later, s', hlater, emptied, hbob ▸ hrepaid Sample.bob hsome⟩

end ProofOfHeart
