import ProofOfHeart.Laws.Succession

/-! # Who has to sign a call

Every entry point that writes has one authority: an office, a party that the call
names, or nobody. The holder of the authority signs the call, and along a run the
holder of an office is the one whom the history of its transfers names.
-/

namespace ProofOfHeart

open Checked Function Trace Handover

variable {host : Host} {tr earlier : List Receipt} {cfg : Config} {c : Nat} {s : State}
  {r : Receipt} {env : Env} {call : Call} {record : Campaign} {first caller : Address}

/-! ## The matrix -/

inductive Authority
  | admin
  | pendingAdmin
  | creator (campaignId : Nat)
  | pendingCreator (campaignId : Nat)
  | pauseSigner (caller : Address)
  | party (who : Address)
  | anyone

def Call.authority : Call → Authority
  | .init admin _ _ => .party admin
  | .createCampaign params | .createCampaignWithToken params _ => .party params.creator
  | .contribute _ who _ | .batchContribute who _ | .claimRefund _ who | .claimRevenue _ who
  | .setPersonalCap _ who _ | .removePersonalCap _ who | .voteOnCampaign _ who _
  | .saveCampaign who _ | .removeSavedCampaign who _ | .batchSaveCampaigns who _
  | .clearSavedCampaigns who | .resumeCampaign _ who => .party who
  | .withdrawFunds c | .withdrawReserve c | .setMilestones c _ | .claimMilestone c _
  | .cancelCampaign c | .updateCampaign c _ _ | .updateCampaignDescription c _
  | .extendCampaignDeadline c _ | .initiateCampaignTransfer c _ | .cancelCampaignTransfer c
  | .depositRevenue c _ | .claimCreatorRevenue c => .creator c
  | .acceptCampaignTransfer c => .pendingCreator c
  | .acceptAdminTransfer => .pendingAdmin
  | .emergencyPause caller => .pauseSigner caller
  | .verifyCampaignWithVotes _ => .anyone
  | _ => .admin

/-- The holder of the authority, as the store has it, signs. -/
def Authority.Signs (env : Env) (s : State) : Authority → Prop
  | .admin => ∃ admin, s.admin.admin = some admin ∧ env.auth admin = true
  | .pendingAdmin => ∃ heir, s.admin.pendingAdmin = some heir ∧ env.auth heir = true
  | .creator c =>
      ∃ record, s.campaigns.campaign c = some record ∧ env.auth record.creator = true
  | .pendingCreator c => ∃ record heir, s.campaigns.campaign c = some record ∧
      record.pendingCreator = some heir ∧ env.auth heir = true
  | .pauseSigner caller =>
      caller ∈ s.admin.emergencyPauseSigners ∧ env.auth caller = true
  | .party who => env.auth who = true
  | .anyone => True

/-! ## Every call is signed -/

theorem assertAdmin_demands :
    Demands (Authority.admin.Signs env s) (assertAdmin env s caller) := by
  intro u h
  obtain ⟨hadmin, hauth⟩ := assertAdmin_spec h
  exact ⟨caller, hadmin, hauth⟩

theorem assertStoredAdmin_demands :
    Demands (Authority.admin.Signs env s) (assertStoredAdmin env s) :=
  .later fun _ => assertAdmin_demands

theorem party_demands : Demands ((Authority.party caller).Signs env s) (requireAuth env caller) :=
  .of_rejectIf Bool.eq_true_of_not_eq_false

theorem getCreatorCampaign_demands :
    Demands ((Authority.creator c).Signs env s) (getCreatorCampaign env s c) := by
  intro record h
  obtain ⟨hrecord, hauth⟩ := creator_signed h
  exact ⟨record, hrecord, hauth⟩

/-- The check of the creator, once the record has been read. -/
theorem assertCreator_demands (hrecord : getCampaignOrError s c = .ok record) :
    Demands ((Authority.creator c).Signs env s) (assertCreator env record) := fun u h =>
  ⟨record, okOr_eq_ok.mp hrecord, party_demands (s := s) u h⟩

theorem emergencyPause_demands :
    Demands ((Authority.pauseSigner caller).Signs env s) (emergencyPause env s caller) := by
  intro s' h
  simp only [emergencyPause, bind_eq_ok, rejectIf_eq_ok, not_not] at h
  obtain ⟨u, hauth, _, -, _, hsigner, -⟩ := h
  exact ⟨hsigner, party_demands (s := s) u hauth⟩

theorem acceptAdminTransfer_demands :
    Demands (Authority.pendingAdmin.Signs env s) (acceptAdminTransfer env s) :=
  .after fun heir hheir => .first fun u hauth =>
    ⟨heir, okOr_eq_ok.mp hheir, party_demands (s := s) u hauth⟩

theorem acceptCampaignTransfer_demands :
    Demands ((Authority.pendingCreator c).Signs env s) (acceptCampaignTransfer env s c) :=
  .after fun record hrecord => .later fun _ => .later fun _ => .after fun heir hheir =>
    .first fun u hauth =>
      ⟨record, heir, okOr_eq_ok.mp hrecord, okOr_eq_ok.mp hheir, party_demands (s := s) u hauth⟩

/-- Each entry point asks its authority, at the place the source has it. -/
theorem dispatch_authorised : Demands (call.authority.Signs env s) (dispatch env s call) := by
  cases call with
  | init => exact .later fun _ => .first party_demands
  | createCampaign | createCampaignWithToken => exact .first (.first (.first party_demands))
  | contribute | batchContribute | claimRefund | claimRevenue | setPersonalCap
  | removePersonalCap | saveCampaign | removeSavedCampaign | batchSaveCampaigns
  | clearSavedCampaigns | resumeCampaign => exact .first party_demands
  | voteOnCampaign => exact .later fun _ => .first party_demands
  | withdrawFunds | cancelCampaign | updateCampaign | updateCampaignDescription
  | extendCampaignDeadline | initiateCampaignTransfer | cancelCampaignTransfer
  | depositRevenue | claimCreatorRevenue => exact .first getCreatorCampaign_demands
  | setMilestones | claimMilestone =>
      exact .after fun _ hrecord => .first (assertCreator_demands hrecord)
  | withdrawReserve =>
      exact .later fun _ => .later fun _ => .later fun _ => .later fun _ => .after fun _ hrecord =>
        .later fun _ => .first (assertCreator_demands hrecord)
  | acceptCampaignTransfer => exact acceptCampaignTransfer_demands
  | acceptAdminTransfer => exact acceptAdminTransfer_demands
  | emergencyPause => exact emergencyPause_demands
  | verifyCampaignWithVotes => exact fun _ _ => trivial
  | pause | unpause | setCreationDisabled | setTokenAllowed | updatePlatformFee
  | purgeVotingState => exact .first assertStoredAdmin_demands
  | verifyCampaign | censureComment | uncensureComment =>
      exact .later fun _ => .first assertAdmin_demands
  | updateAdmin => exact .later fun _ => .first assertAdmin_demands
  | verifyCampaigns => exact .first (.later fun _ => .first assertAdmin_demands)
  | _ => exact .first assertAdmin_demands

/-! ## Along a run -/

/-- The holder of the authority, as the history has it, signs. -/
def Authority.Holds (first : Address) (earlier : List Receipt) (r : Receipt) : Authority → Prop
  | .admin => r.signedBy (adminRules.after first earlier).holder
  | .pendingAdmin =>
      ∃ heir, (adminRules.after first earlier).offered = some heir ∧ r.signedBy heir
  | .creator c => ∃ record, r.pre.campaigns.campaign c = some record ∧
      r.signedBy ((ownerRules c).after record.firstCreator earlier).holder
  | .pendingCreator c => ∃ record heir, r.pre.campaigns.campaign c = some record ∧
      ((ownerRules c).after record.firstCreator earlier).offered = some heir ∧ r.signedBy heir
  | .pauseSigner caller => caller ∈ r.pre.admin.emergencyPauseSigners ∧ r.signedBy caller
  | .party who => r.signedBy who
  | .anyone => True

theorem Receipt.Valid.authorised (h : r.Valid host) : r.call.authority.Signs r.env r.pre :=
  dispatch_authorised (s := r.pre.clearMoved) _ h.dispatched

/-- The stored holders are those of the history. -/
theorem Authority.Signs.holds {authority : Authority} (h : authority.Signs r.env r.pre)
    (hadmin : AdminFollows first earlier r.pre)
    (howner : ∀ c record, r.pre.campaigns.campaign c = some record →
      (ownerRules c).Follows record.firstCreator earlier record.office) :
    authority.Holds first earlier r := by
  obtain ⟨_, hseat, -, rfl⟩ := hadmin
  obtain ⟨hholder, hoffered⟩ := AdminStore.office_eq_some.mp hseat
  cases authority with
  | admin =>
      obtain ⟨admin, hstored, hauth⟩ := h
      obtain rfl := Option.some.inj (hholder.symm.trans hstored)
      exact hauth
  | pendingAdmin =>
      obtain ⟨heir, hstored, hauth⟩ := h
      exact ⟨heir, hoffered.symm.trans hstored, hauth⟩
  | creator c =>
      obtain ⟨record, hrecord, hauth⟩ := h
      have hnow := (howner c record hrecord).now
      exact ⟨record, hrecord, hnow ▸ hauth⟩
  | pendingCreator c =>
      obtain ⟨record, heir, hrecord, hpending, hauth⟩ := h
      have hnow := (howner c record hrecord).now
      exact ⟨record, heir, hrecord, hnow ▸ hpending, hauth⟩
  | pauseSigner | party | anyone => exact h

/-- After the deployment the history names the holders. -/
theorem run_holds (run : Run (machine host) tr cfg) : ∃ first, DeployedBy first tr ∧
    AdminFollows first tr cfg.state ∧ ∀ later r earlier, tr = later ++ r :: earlier →
      r.call.deploys = false → r.call.authority.Holds first earlier r := by
  refine admin_invariant (P := fun first tr => ∀ later r earlier, tr = later ++ r :: earlier →
    r.call.deploys = false → r.call.authority.Holds first earlier r) ?_ ?_ run
  · intro r first hdeploys
    refine forall_split_cons.mpr ⟨fun hnot => ?_, fun later x earlier heq => ?_⟩
    · cases hdeploys.symm.trans hnot
    · simp at heq
  · intro tr cfg r first run hvalid hpre hadmin ih
    refine forall_split_cons.mpr ⟨fun _ => ?_, ih⟩
    refine hvalid.authorised.holds hadmin fun c record hrecord => ?_
    exact (run_ownerFollows run c).2 record (hpre ▸ hrecord)

/-- Every call of a run was signed by its authority: the admin, the creator of the campaign
and their nominees are at each moment those whom the history of the transfers names, and a
call that spends, caps, votes or bookmarks is signed by the party it names. -/
theorem calls_authorised (run : Run (machine host) tr cfg) : ∃ first, DeployedBy first tr ∧
    ∀ later r earlier, tr = later ++ r :: earlier → r.call.authority.Holds first earlier r := by
  obtain ⟨first, hdeploys, -, hlater⟩ := run_holds run
  refine ⟨first, hdeploys, fun later r earlier htr => ?_⟩
  cases hcall : r.call.deploys with
  | false => exact hlater later r earlier htr hcall
  | true =>
      have hsigned := run_receipts (P := fun r => r.call.authority.Signs r.env r.pre)
        (fun r cfg hstart => hstart.1.authorised) (fun _ hvalid _ => hvalid.authorised) run r
        (htr ▸ List.mem_append_right _ List.mem_cons_self)
      generalize r.call = call at hcall hsigned ⊢
      cases call with
      | init => exact hsigned
      | _ => cases hcall

/-- The campaign passes to an heir, who updates it after the admin has been replaced. -/
def Sample.underHeirs : List Request :=
  succeeded ++ [ask 4 creator (.createCampaign (params [1] 0)),
    ask 5 creator (.initiateCampaignTransfer 1 bob), ask 6 bob (.acceptCampaignTransfer 1),
    ask 7 heir (.updatePlatformFee 100), ask 8 bob (.updateCampaign 1 [2] [3])]

theorem calls_authorised_sample : ∃ tr cfg, Run (machine Sample.host) tr cfg ∧
    ∃ r earlier, tr = r :: earlier ∧ ∃ record, r.pre.campaigns.campaign 1 = some record ∧
      r.signedBy ((ownerRules 1).after record.firstCreator earlier).holder ∧
      r.call = .updateCampaign 1 [2] [3] := by
  have h : Sample.Ends 300 Sample.underHeirs fun tr _ =>
      ∃ r ∈ tr.head?, r.call = .updateCampaign 1 [2] [3] := by
    decide +kernel
  obtain ⟨tr, cfg, run, r, hhead, hcall⟩ := h.run
  obtain ⟨earlier, rfl⟩ := List.head?_eq_some_iff.mp hhead
  obtain ⟨first, -, hholds⟩ := calls_authorised run
  have hsigned := hholds [] r earlier rfl
  rw [hcall] at hsigned
  obtain ⟨record, hrecord, hauth⟩ := hsigned
  exact ⟨_, cfg, run, r, earlier, rfl, record, hrecord, hauth, hcall⟩

end ProofOfHeart
