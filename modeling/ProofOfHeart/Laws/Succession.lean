import ProofOfHeart.Account.Terms
import ProofOfHeart.Account.Turn
import ProofOfHeart.Lib.Handover

/-! # Who is the admin and who owns a campaign

Both the office of the admin and every campaign are handed over in two steps. The
stored holder and the stored nominee are what the history of the calls makes of the
office of the first holder, and each of these calls was signed by whom it takes.
-/

namespace ProofOfHeart

open Checked Function Trace Handover

variable {host : Host} {tr : List Receipt} {cfg : Config} {c : Nat} {s s' : State}
  {r : Receipt} {env : Env} {call : Call} {v v' : View} {a : Account} {record : Campaign}
  {seat : Office Address}

/-- An address signs the call of a receipt. -/
def Receipt.signedBy (r : Receipt) (who : Address) : Prop := r.env.auth who = true

/-! ## The admin -/

def Call.adminMove : Call → Move Address
  | .initiateAdminTransfer _ heir | .updateAdmin heir => .offer heir
  | .acceptAdminTransfer => .accept
  | .cancelAdminTransfer _ => .withdraw
  | _ => .other

/-- A nomination replaces the one before. -/
def adminRules : Rules Address Receipt where
  move r := r.call.adminMove
  signs := Receipt.signedBy
  exclusive := false

def AdminStore.office (store : AdminStore) : Option (Office Address) :=
  store.admin.map fun admin => ⟨admin, store.pendingAdmin⟩

theorem AdminStore.office_eq_some {store : AdminStore} : store.office = some seat ↔
    store.admin = some seat.holder ∧ store.pendingAdmin = seat.offered := by
  unfold AdminStore.office
  cases store.admin with
  | none => simp
  | some admin => simp [Office.ext_iff]

/-- Every other call keeps the admin and the nominee. -/
theorem Effect.adminOffice_kept (h : Effect env v call v') (hmove : call.adminMove = .other) :
    v'.admin.office = v.admin.office := by
  rcases h.admin with hsame | ⟨store, hstep, hstore⟩
  · rw [hsame]
  · rw [hstore]
    cases hstep with
    | nominate | nominateStored | handOver | withdrawNomination => cases hmove
    | _ => rfl

theorem initiateAdminTransfer_moves {admin heir : Address}
    (hoffice : s.admin.office = some seat)
    (h : initiateAdminTransfer env s admin heir = .ok s') :
    env.auth seat.holder = true ∧ heir ≠ seat.holder ∧
      s'.admin.office = some (seat.move (.offer heir)) := by
  obtain ⟨hadmin, -⟩ := AdminStore.office_eq_some.mp hoffice
  simp only [initiateAdminTransfer, getAdmin, bind_eq_ok, okOr_eq_ok, rejectIf_eq_ok,
    pure_eq_ok] at h
  obtain ⟨_, hassert, current, hcurrent, _, hother, rfl⟩ := h
  obtain ⟨hstored, hauth⟩ := assertAdmin_spec hassert
  obtain rfl := Option.some.inj (hadmin.symm.trans hcurrent)
  obtain rfl := Option.some.inj (hadmin.symm.trans hstored)
  exact ⟨hauth, hother, AdminStore.office_eq_some.mpr ⟨hadmin, rfl⟩⟩

theorem Receipt.Valid.adminMoves (h : r.Valid host) (conf : (view r.pre).Configured)
    (hoffice : r.pre.admin.office = some seat) :
    adminRules.Allowed seat r r.call.adminMove ∧
      r.post.admin.office = some (seat.move r.call.adminMove) := by
  obtain ⟨hadmin, hpending⟩ := AdminStore.office_eq_some.mp hoffice
  have heffect := h.effect conf
  have hdispatch := h.dispatched
  have hcleared : r.pre.clearMoved.admin.office = some seat := hoffice
  generalize hcall : r.call = call at heffect hdispatch ⊢
  cases call with
  | initiateAdminTransfer admin heir =>
      obtain ⟨hauth, hother, hpost⟩ := initiateAdminTransfer_moves hcleared hdispatch
      exact ⟨.offer hauth hother Bool.noConfusion, hpost⟩
  | updateAdmin heir =>
      obtain ⟨admin, -, hnominate⟩ := bind_eq_ok.mp hdispatch
      obtain ⟨hauth, hother, hpost⟩ := initiateAdminTransfer_moves hcleared hnominate
      exact ⟨.offer hauth hother Bool.noConfusion, hpost⟩
  | acceptAdminTransfer =>
      simp only [dispatch, acceptAdminTransfer, requireAuth, bind_eq_ok, okOr_eq_ok,
        rejectIf_eq_ok, pure_eq_ok, Bool.not_eq_false] at hdispatch
      obtain ⟨heir, hheir, _, hauth, _, -, hpost⟩ := hdispatch
      have standing : seat.offered = some heir := hpending.symm.trans hheir
      refine ⟨.accept standing hauth, ?_⟩
      rw [← hpost, Call.adminMove, Office.move, standing]
      rfl
  | cancelAdminTransfer admin =>
      simp only [dispatch, cancelAdminTransfer, bind_eq_ok, rejectIf_eq_ok, pure_eq_ok] at hdispatch
      obtain ⟨_, hassert, _, hsome, hpost⟩ := hdispatch
      obtain ⟨hstored, hauth⟩ := assertAdmin_spec hassert
      obtain rfl := Option.some.inj (hadmin.symm.trans hstored)
      refine ⟨.withdraw (fun hnone => hsome (hpending.trans hnone)) hauth, ?_⟩
      rw [← hpost]
      exact AdminStore.office_eq_some.mpr ⟨hadmin, rfl⟩
  | _ => exact ⟨.other, (heffect.adminOffice_kept rfl).trans hoffice⟩

/-- The contract was set up with this admin. -/
def DeployedBy (first : Address) (tr : List Receipt) : Prop :=
  ∃ r ∈ tr, ∃ token platformFee, r.call = .init first token platformFee

/-- The stored admin and nominee are what the history makes of the office of `first`. -/
def AdminFollows (first : Address) (tr : List Receipt) (s : State) : Prop :=
  ∃ seat, s.admin.office = some seat ∧ adminRules.Follows first tr seat

/-- What `init` makes of the administration. -/
theorem start_admin (h : (machine host).Start r cfg) : ∃ first token platformFee,
    r.call = .init first token platformFee ∧ cfg.state.admin.office = some ⟨first, none⟩ ∧
      cfg.state.admin.paused = false ∧ cfg.state.admin.autoPaused = false := by
  obtain ⟨hvalid, ⟨tokens, hpre⟩, ⟨first, token, platformFee, hcall⟩, rfl⟩ := h
  have hinit := hvalid.dispatched
  rw [hcall] at hinit
  simp only [dispatch, init, bind_eq_ok, pure_eq_ok] at hinit
  obtain ⟨_, -, _, -, _, -, _, -, _, -, hpost⟩ := hinit
  refine ⟨first, token, platformFee, hcall, ?_⟩
  rw [← hpost, hpre]
  exact ⟨rfl, rfl, rfl⟩

theorem start_adminFollows (h : (machine host).Start r cfg) :
    ∃ first, DeployedBy first [r] ∧ AdminFollows first [r] cfg.state := by
  obtain ⟨first, token, platformFee, hcall, hoffice, -⟩ := start_admin h
  exact ⟨first, ⟨r, List.mem_singleton_self r, token, platformFee, hcall⟩, ⟨first, none⟩, hoffice,
    .idle (List.forall_mem_singleton.mpr (congrArg Call.adminMove hcall))⟩

theorem Receipt.Valid.adminFollows {first : Address} (h : r.Valid host)
    (conf : (view r.pre).Configured) (hfollows : AdminFollows first tr r.pre) :
    AdminFollows first (r :: tr) r.post := by
  obtain ⟨seat, hseat, follows⟩ := hfollows
  obtain ⟨hallowed, hpost⟩ := h.adminMoves conf hseat
  exact ⟨_, hpost, follows.step hallowed⟩

/-- The induction rule for what is said of the office of the admin along a run. -/
theorem admin_invariant {P : Address → List Receipt → Prop}
    (start : ∀ {r : Receipt} {first : Address}, r.call.deploys = true → P first [r])
    (step : ∀ {tr : List Receipt} {cfg : Config} {r : Receipt} {first : Address},
      Run (machine host) tr cfg → r.Valid host → r.pre = cfg.state →
      AdminFollows first tr r.pre → P first tr → P first (r :: tr))
    (run : Run (machine host) tr cfg) :
    ∃ first, DeployedBy first tr ∧ AdminFollows first tr cfg.state ∧ P first tr := by
  refine run.invariant (I := fun tr cfg =>
    ∃ first, DeployedBy first tr ∧ AdminFollows first tr cfg.state ∧ P first tr) ?_ ?_ ?_
  · intro r cfg hstart
    obtain ⟨first, hdeploys, hfollows⟩ := start_adminFollows hstart
    obtain ⟨-, -, ⟨admin, token, platformFee, hcall⟩, -⟩ := hstart
    exact ⟨first, hdeploys, hfollows, start (congrArg Call.deploys hcall)⟩
  · rintro tr cfg r cfg' run ⟨first, ⟨x, hx, hdeploys⟩, hfollows, hP⟩ ⟨hvalid, -, hpre, rfl⟩
    have conf := (run_sane run).toConfigured
    rw [← hpre] at conf hfollows
    exact ⟨first, ⟨x, List.mem_cons_of_mem r hx, hdeploys⟩, hvalid.adminFollows conf hfollows,
      step run hvalid hpre hfollows hP⟩
  · rintro tr cfg cfg' hall ⟨tokens, -, rfl⟩
    exact hall

theorem Call.adminMove_eq_accept : call.adminMove = .accept ↔ call = .acceptAdminTransfer := by
  cases call <;> simp [Call.adminMove]

/-- The admin and the nominee are what the history makes of the first admin's office. The
present admin is the first one, or was nominated by the admin before and has accepted,
and nobody else has accepted since. -/
theorem admin_succession (run : Run (machine host) tr cfg) : ∃ first, DeployedBy first tr ∧
    AdminFollows first tr cfg.state ∧ ∀ admin, cfg.state.admin.admin = some admin →
      admin = first ∧ (∀ r ∈ tr, r.call ≠ .acceptAdminTransfer) ∨
      ∃ later r earlier, tr = later ++ r :: earlier ∧
        (∀ x ∈ later, x.call ≠ .acceptAdminTransfer) ∧
        adminRules.HandsOver first admin r earlier := by
  obtain ⟨first, hdeploys, ⟨seat, hseat, follows⟩, -⟩ :=
    admin_invariant (P := fun _ _ => True) (fun _ => trivial) (fun _ _ _ _ _ => trivial) run
  refine ⟨first, hdeploys, ⟨seat, hseat, follows⟩, fun admin hadmin => ?_⟩
  have hholder := (AdminStore.office_eq_some.mp hseat).1
  obtain rfl := Option.some.inj (hadmin.symm.trans hholder)
  have haccepts : ∀ {x : Receipt}, adminRules.move x ≠ .accept → x.call ≠ .acceptAdminTransfer :=
    fun hnot heq => hnot (Call.adminMove_eq_accept.mpr heq)
  rw [follows.now]
  rcases follows.lawful.holder with ⟨hsame, hnone⟩ | ⟨later, r, earlier, htr, hlater, hands⟩
  · exact .inl ⟨hsame, fun x hx => haccepts (hnone x hx)⟩
  · exact .inr ⟨later, r, earlier, htr, fun x hx => haccepts (hlater x hx), hands⟩

/-- The admin nominates twice, and the second heir accepts. -/
def Sample.succeeded : List Request :=
  [ask 1 admin (.initiateAdminTransfer admin bob), ask 2 admin (.updateAdmin heir),
    ask 3 heir .acceptAdminTransfer]

theorem admin_succession_sample : ∃ tr cfg, Run (machine Sample.host) tr cfg ∧
    cfg.state.admin.admin = some Sample.heir ∧
    ∃ first seat, DeployedBy first tr ∧ adminRules.Follows first tr seat ∧
      seat.holder = Sample.heir := by
  have h : Sample.Ends 300 Sample.succeeded fun _ cfg =>
      cfg.state.admin.admin = some Sample.heir := by
    decide +kernel
  obtain ⟨tr, cfg, run, hadmin⟩ := h.run
  obtain ⟨first, hdeploys, ⟨seat, hseat, follows⟩, -⟩ := admin_succession run
  have hholder := (AdminStore.office_eq_some.mp hseat).1
  exact ⟨tr, cfg, run, hadmin, first, seat, hdeploys, follows,
    (Option.some.inj (hadmin.symm.trans hholder)).symm⟩

/-! ## The owner of a campaign -/

def Call.ownerMove (c : Nat) : Call → Move Address
  | .initiateCampaignTransfer id heir => if c = id then .offer heir else .other
  | .acceptCampaignTransfer id => if c = id then .accept else .other
  | .cancelCampaignTransfer id => if c = id then .withdraw else .other
  | _ => .other

/-- A second nomination has to wait. -/
def ownerRules (c : Nat) : Rules Address Receipt where
  move r := r.call.ownerMove c
  signs := Receipt.signedBy
  exclusive := true

def Campaign.office (record : Campaign) : Office Address := ⟨record.creator, record.pendingCreator⟩

/-- What an effect does to one account, while it leaves the others. -/
theorem View.single {R : Account → Account → Prop} {id : Nat} {b b' : Account}
    (hb : v.account id = some b) (hsame : v'.account c = (v.setAccount id b').account c)
    (hchange : c = id → R b b') (hkept : R a a) (ha : v.account c = some a) :
    ∃ a', v'.account c = some a' ∧ R a a' := by
  by_cases hc : c = id
  · subst hc
    obtain rfl := Option.some.inj (ha.symm.trans hb)
    exact ⟨b', hsame.trans View.setAccount_account_self, hchange rfl⟩
  · exact ⟨a, hsame.trans ((View.setAccount_account_of_ne hc).trans ha), hkept⟩

/-- Every other call keeps the owner and the nominee. -/
theorem Effect.ownerOffice_kept (h : Effect env v call v') (reg : v.Registered)
    (ha : v.account c = some a) (hmove : call.ownerMove c = .other) :
    ∃ a', v'.account c = some a' ∧ a'.record.office = a.record.office := by
  have single {id : Nat} {b b' : Account} (hb : v.account id = some b)
      (hsame : v'.account c = (v.setAccount id b').account c)
      (hchange : c = id → b'.record.office = b.record.office) :
      ∃ a', v'.account c = some a' ∧ a'.record.office = a.record.office :=
    View.single (R := fun a a' => a'.record.office = a.record.office) hb hsame hchange rfl ha
  cases h with
  | create =>
      have hc : c ≠ v.campaignCount + 1 := by
        rintro rfl
        rw [reg.next_none] at ha
        cases ha
      exact ⟨a, (View.setAccount_account_of_ne hc).trans ha, rfl⟩
  | batch batched =>
      refine ⟨_, (batched.account c).trans (by rw [ha]; rfl), ?_⟩
      rw [Account.contributeAll_record]
      rfl
  | claimMilestone hb =>
      refine single hb rfl fun _ => ?_
      rw [Account.claimMilestone_record]
      rfl
  | edit hb hedit notAccept =>
      refine single hb rfl ?_
      rintro rfl
      cases hedit with
      | nominate | withdrawNomination | handOver => simp [Call.ownerMove] at hmove
      | _ => rfl
  | handOver hb =>
      refine single hb rfl ?_
      rintro rfl
      simp [Call.ownerMove] at hmove
  | verifications h =>
      rcases h.account c with hsame | ⟨b, hb, verifiable, hmem, hb'⟩
      · exact ⟨a, hsame.trans ha, rfl⟩
      · obtain rfl := Option.some.inj (ha.symm.trans hb)
        exact ⟨_, hb', rfl⟩
  | administer h =>
      obtain ⟨store, hstep, rfl⟩ := h
      exact ⟨a, ha, rfl⟩
  | outside => exact ⟨a, ha, rfl⟩
  | contribute hb | refund hb | withdraw hb | release hb | plan hb | verifyMilestone hb | cancel hb
  | adminCancel hb | deposit hb | claimRevenue hb | claimCreatorRevenue hb =>
      exact single hb rfl fun _ => rfl

/-- What a move demands and makes of the record it finds. -/
def OwnerMoves (s s' : State) (c : Nat) (P : Office Address → Prop) (move : Move Address) :
    Prop :=
  ∃ old new, s.campaigns.campaign c = some old ∧ P old.office ∧
    s'.campaigns.campaign c = some new ∧ new.office = old.office.move move

theorem creator_signed {record : Campaign} (h : getCreatorCampaign env s c = .ok record) :
    s.campaigns.campaign c = some record ∧ env.auth record.office.holder = true := by
  simp only [getCreatorCampaign, getCampaignOrError, assertCreator, requireAuth, bind_eq_ok,
    okOr_eq_ok, rejectIf_eq_ok, pure_eq_ok, Bool.not_eq_false] at h
  obtain ⟨_, hrecord, _, hauth, rfl⟩ := h
  exact ⟨hrecord, hauth⟩

theorem initiateCampaignTransfer_moves {heir : Address}
    (h : initiateCampaignTransfer env s c heir = .ok s') :
    OwnerMoves s s' c (fun seat => env.auth seat.holder = true ∧ heir ≠ seat.holder ∧
      seat.offered = none) (.offer heir) := by
  simp only [initiateCampaignTransfer, bind_eq_ok, rejectIf_eq_ok, pure_eq_ok, not_not] at h
  obtain ⟨record, hcreator, _, -, _, -, _, -, _, hother, _, hfree, rfl⟩ := h
  obtain ⟨hrecord, hauth⟩ := creator_signed hcreator
  exact ⟨record, _, hrecord, ⟨hauth, hother, hfree⟩, update_self .., rfl⟩

theorem cancelCampaignTransfer_moves (h : cancelCampaignTransfer env s c = .ok s') :
    OwnerMoves s s' c (fun seat => env.auth seat.holder = true ∧ seat.offered ≠ none)
      .withdraw := by
  simp only [cancelCampaignTransfer, bind_eq_ok, rejectIf_eq_ok, pure_eq_ok] at h
  obtain ⟨record, hcreator, _, -, _, hstanding, rfl⟩ := h
  obtain ⟨hrecord, hauth⟩ := creator_signed hcreator
  exact ⟨record, _, hrecord, ⟨hauth, hstanding⟩, update_self .., rfl⟩

theorem acceptCampaignTransfer_moves (h : acceptCampaignTransfer env s c = .ok s') :
    OwnerMoves s s' c (fun seat => ∃ heir, seat.offered = some heir ∧ env.auth heir = true)
      .accept := by
  simp only [acceptCampaignTransfer, getCampaignOrError, requireAuth, bind_eq_ok, okOr_eq_ok,
    rejectIf_eq_ok, pure_eq_ok, Bool.not_eq_false] at h
  obtain ⟨record, hrecord, _, -, _, -, heir, hheir, _, hauth, _, -, s1, -, s2, -, rfl⟩ := h
  refine ⟨record, _, hrecord, ⟨heir, hheir, hauth⟩, update_self .., ?_⟩
  simp [Campaign.office, Office.move, hheir]

theorem Receipt.Valid.ownerMove_spec (h : r.Valid host) (hmove : r.call.ownerMove c ≠ .other) :
    OwnerMoves r.pre r.post c (fun seat => (ownerRules c).Allowed seat r (r.call.ownerMove c))
      (r.call.ownerMove c) := by
  have hdispatch := h.dispatched
  generalize r.call = call at hdispatch hmove ⊢
  cases call with
  | initiateCampaignTransfer id heir =>
      obtain rfl : c = id := by
        by_contra hid
        exact hmove (if_neg hid)
      rw [Call.ownerMove, if_pos rfl]
      obtain ⟨old, new, hold, ⟨hauth, hother, hfree⟩, hnew⟩ :=
        initiateCampaignTransfer_moves hdispatch
      exact ⟨old, new, hold, .offer hauth hother fun _ => hfree, hnew⟩
  | cancelCampaignTransfer id =>
      obtain rfl : c = id := by
        by_contra hid
        exact hmove (if_neg hid)
      rw [Call.ownerMove, if_pos rfl]
      obtain ⟨old, new, hold, ⟨hauth, hstanding⟩, hnew⟩ := cancelCampaignTransfer_moves hdispatch
      exact ⟨old, new, hold, .withdraw hstanding hauth, hnew⟩
  | acceptCampaignTransfer id =>
      obtain rfl : c = id := by
        by_contra hid
        exact hmove (if_neg hid)
      rw [Call.ownerMove, if_pos rfl]
      obtain ⟨old, new, hold, ⟨heir, standing, hauth⟩, hnew⟩ :=
        acceptCampaignTransfer_moves hdispatch
      exact ⟨old, new, hold, .accept standing hauth, hnew⟩
  | _ => exact absurd rfl hmove

theorem Receipt.Valid.ownerMoves (h : r.Valid host) (sane : (view r.pre).Sane)
    (hrecord : r.pre.campaigns.campaign c = some record) :
    ∃ new, r.post.campaigns.campaign c = some new ∧ new.firstCreator = record.firstCreator ∧
      (ownerRules c).Allowed record.office r (r.call.ownerMove c) ∧
      new.office = record.office.move (r.call.ownerMove c) := by
  have ha : (view r.pre).account c = some ⟨record, fundsOf r.pre c⟩ :=
    View.account_of_campaign hrecord
  obtain ⟨a', ha', hterms⟩ := h.terms sane ha
  have hnew := (View.account_eq_some.mp ha').1
  refine ⟨a'.record, hnew, congrArg Terms.firstCreator hterms, ?_⟩
  by_cases hmove : r.call.ownerMove c = .other
  · obtain ⟨b, hb, hoffice⟩ := (h.effect sane.toConfigured).ownerOffice_kept
      ⟨sane.exists_iff, sane.blank⟩ ha hmove
    obtain rfl := Option.some.inj (ha'.symm.trans hb)
    rw [hmove]
    exact ⟨.other, hoffice⟩
  · obtain ⟨old, new, hold, hallowed, hpost, hoffice⟩ := h.ownerMove_spec hmove
    obtain rfl := Option.some.inj (hrecord.symm.trans hold)
    obtain rfl := Option.some.inj (hpost.symm.trans hnew)
    exact ⟨hallowed, hoffice⟩

/-- The owner and the nominee of a campaign, or nothing has happened to it. -/
theorem run_ownerFollows (run : Run (machine host) tr cfg) (c : Nat) :
    (cfg.state.campaigns.campaign c = none → ∀ r ∈ tr, r.call.ownerMove c = .other) ∧
    ∀ record, cfg.state.campaigns.campaign c = some record →
      (ownerRules c).Follows record.firstCreator tr record.office := by
  refine run.invariant (I := fun tr cfg =>
    (cfg.state.campaigns.campaign c = none → ∀ r ∈ tr, r.call.ownerMove c = .other) ∧
    ∀ record, cfg.state.campaigns.campaign c = some record →
      (ownerRules c).Follows record.firstCreator tr record.office) ?_ ?_ ?_
  · intro r cfg hstart
    have hnone : cfg.state.campaigns.campaign c = none := (start_fresh hstart).campaign c
    obtain ⟨-, -, ⟨admin, token, platformFee, hcall⟩, -⟩ := hstart
    refine ⟨fun _ => List.forall_mem_singleton.mpr (congrArg (Call.ownerMove c) hcall), ?_⟩
    intro record hrecord
    cases hnone.symm.trans hrecord
  · rintro tr cfg r cfg' run ⟨habsent, hfollows⟩ ⟨hvalid, -, hpre, rfl⟩
    have sane := run_sane run
    rw [← hpre] at sane habsent hfollows
    cases hc : r.pre.campaigns.campaign c with
    | some old =>
        obtain ⟨new, hnew, hfirst, hallowed, hoffice⟩ := hvalid.ownerMoves sane hc
        constructor
        · intro hnone
          cases hnone.symm.trans hnew
        · intro record hrecord
          obtain rfl := Option.some.inj (hnew.symm.trans hrecord)
          rw [hfirst, hoffice]
          exact (hfollows old hc).step hallowed
    | none =>
        have hidle : ∀ x ∈ r :: tr, x.call.ownerMove c = .other := by
          refine List.forall_mem_cons.mpr ⟨?_, habsent hc⟩
          by_contra hmove
          obtain ⟨old, -, hold, -⟩ := hvalid.ownerMove_spec hmove
          cases hc.symm.trans hold
        refine ⟨fun _ => hidle, fun record hrecord => ?_⟩
        obtain ⟨-, params, deadline, -, rfl⟩ := hvalid.created sane hc hrecord
        exact .idle hidle
  · rintro tr cfg cfg' hfollows ⟨tokens, -, rfl⟩
    exact hfollows

/-- The owner and the nominee of a campaign are what the history makes of the office of its
first creator. The present owner is the first creator, or was nominated by the owner
before and has accepted, and nobody has accepted since. -/
theorem campaign_succession (run : Run (machine host) tr cfg)
    (hrecord : cfg.state.campaigns.campaign c = some record) :
    (ownerRules c).Follows record.firstCreator tr record.office ∧
    (record.creator = record.firstCreator ∧ (∀ r ∈ tr, r.call ≠ .acceptCampaignTransfer c) ∨
      ∃ later r earlier, tr = later ++ r :: earlier ∧
        (∀ x ∈ later, x.call ≠ .acceptCampaignTransfer c) ∧
        (ownerRules c).HandsOver record.firstCreator record.creator r earlier) := by
  have follows := (run_ownerFollows run c).2 record hrecord
  have haccepts : ∀ {x : Receipt}, (ownerRules c).move x ≠ .accept →
      x.call ≠ .acceptCampaignTransfer c := by
    intro x hnot heq
    refine hnot ((congrArg (Call.ownerMove c) heq).trans (if_pos rfl))
  refine ⟨follows, ?_⟩
  have hcreator : record.creator = ((ownerRules c).after record.firstCreator tr).holder :=
    congrArg Office.holder follows.now
  rw [hcreator]
  rcases follows.lawful.holder with ⟨hsame, hnone⟩ | ⟨later, r, earlier, htr, hlater, hands⟩
  · exact .inl ⟨hsame, fun x hx => haccepts (hnone x hx)⟩
  · exact .inr ⟨later, r, earlier, htr, fun x hx => haccepts (hlater x hx), hands⟩

/-- A campaign goes to an heir, who nominates the first creator in turn. -/
def Sample.passedOn : List Request :=
  opened 0 ++ [ask 1 creator (.initiateCampaignTransfer 1 bob),
    ask 2 creator (.cancelCampaignTransfer 1), ask 3 creator (.initiateCampaignTransfer 1 heir),
    ask 4 heir (.acceptCampaignTransfer 1), ask 5 heir (.initiateCampaignTransfer 1 creator)]

theorem campaign_succession_sample : ∃ tr cfg, Run (machine Sample.host) tr cfg ∧
    ∃ record, cfg.state.campaigns.campaign 1 = some record ∧ record.creator = Sample.heir ∧
      (ownerRules 1).Follows Sample.creator tr ⟨Sample.heir, some Sample.creator⟩ := by
  have h : Sample.Ends 300 Sample.passedOn fun _ cfg =>
      ∃ record ∈ cfg.state.campaigns.campaign 1, record.creator = Sample.heir ∧
        record.pendingCreator = some Sample.creator ∧ record.firstCreator = Sample.creator := by
    decide +kernel
  obtain ⟨tr, cfg, run, record, hrecord, hcreator, hpending, hfirst⟩ := h.run
  have follows := (campaign_succession run hrecord).1
  rw [Campaign.office, hcreator, hpending, hfirst] at follows
  exact ⟨tr, cfg, run, record, hrecord, hcreator, follows⟩

end ProofOfHeart
