import ProofOfHeart.Account.History

/-! # What a call does to the face and the flags of a campaign

The face of a campaign is its text and its owner. `Turn` lists the ways in which a
call changes the face or the flags of one record; every other change of a record is
`kept`. Laws about the lifecycle, the titles and the votes are read off this list.
-/

namespace ProofOfHeart

open Checked Function Trace

@[ext]
structure Flags where
  isActive : Bool
  isCancelled : Bool
  fundsWithdrawn : Bool
  isVerified : Bool

@[ext]
structure Face where
  title : Text
  description : Text
  creator : Address

def Campaign.flags (record : Campaign) : Flags :=
  ⟨record.isActive, record.isCancelled, record.fundsWithdrawn, record.isVerified⟩

def Campaign.face (record : Campaign) : Face := ⟨record.title, record.description, record.creator⟩

inductive Turn (c : Nat) (old new : Campaign) : Call → Prop
  | kept {call : Call} (flags : new.flags = old.flags) (face : new.face = old.face) :
      Turn c old new call
  | retitled {title description : Text} (active : old.isActive = true)
      (unverified : old.isVerified = false) (flags : new.flags = old.flags)
      (face : new.face = ⟨title, description, old.creator⟩) :
      Turn c old new (.updateCampaign c title description)
  | described {description : Text} (active : old.isActive = true)
      (flags : new.flags = { old.flags with isVerified := false })
      (face : new.face = ⟨old.title, description, old.creator⟩) :
      Turn c old new (.updateCampaignDescription c description)
  | handedOver {heir : Address} (pending : old.pendingCreator = some heir)
      (other : heir ≠ old.creator) (flags : new.flags = old.flags)
      (face : new.face = ⟨old.title, old.description, heir⟩) :
      Turn c old new (.acceptCampaignTransfer c)
  | verified {call : Call} (hcall : call = .verifyCampaign c ∨ call = .verifyCampaignWithVotes c ∨
        ∃ ids, c ∈ ids ∧ call = .verifyCampaigns ids)
      (active : old.isActive = true) (unverified : old.isVerified = false)
      (flags : new.flags = { old.flags with isVerified := true }) (face : new.face = old.face) :
      Turn c old new call
  | cancelled {call : Call} (hcall : call = .cancelCampaign c ∨
        ∃ admin reason, call = .adminCancelCampaign admin c reason)
      (active : old.isActive = true)
      (flags : new.flags = { old.flags with isActive := false, isCancelled := true })
      (face : new.face = old.face) : Turn c old new call
  | withdrawn {call : Call} (hcall : call = .withdrawFunds c ∨
        ∃ milestoneId, call = .claimMilestone c milestoneId) (verified : old.isVerified = true)
      (notCancelled : old.isCancelled = false) (unpaid : old.fundsWithdrawn = false)
      (flags : new.flags = { old.flags with isActive := false, fundsWithdrawn := true })
      (face : new.face = old.face) : Turn c old new call

variable {env : Env} {v v' : View} {call : Call} {c : Nat} {a : Account} {old new : Campaign}

/-- An open campaign was open before. -/
theorem Turn.open_before (h : Turn c old new call) (unpaid : new.fundsWithdrawn = false)
    (live : new.isCancelled = false) : old.fundsWithdrawn = false ∧ old.isCancelled = false := by
  cases h with
  | kept flags | retitled active unverified flags | described active flags
  | handedOver pending other flags | verified hcall active unverified flags =>
      have hpaid : new.fundsWithdrawn = old.fundsWithdrawn := congrArg Flags.fundsWithdrawn flags
      have hcancelled : new.isCancelled = old.isCancelled := congrArg Flags.isCancelled flags
      exact ⟨hpaid ▸ unpaid, hcancelled ▸ live⟩
  | cancelled hcall active flags =>
      have hcancelled : new.isCancelled = true := congrArg Flags.isCancelled flags
      rw [live] at hcancelled
      cases hcancelled
  | withdrawn hcall verified notCancelled notPaid => exact ⟨notPaid, notCancelled⟩

theorem Turn.refl {record : Campaign} : Turn c record record call := .kept rfl rfl

/-- The turn of one campaign, while the others stay. -/
theorem Turn.single {id : Nat} {b b' : Account} (hb : v.account id = some b)
    (hsame : ∀ other, v'.account other = (v.setAccount id b').account other)
    (hturn : Turn id b.record b'.record call) (ha : v.account c = some a) :
    ∃ a', v'.account c = some a' ∧ Turn c a.record a'.record call := by
  by_cases hc : c = id
  · subst hc
    obtain rfl := Option.some.inj (ha.symm.trans hb)
    exact ⟨b', (hsame c).trans View.setAccount_account_self, hturn⟩
  · exact ⟨a, (hsame c).trans ((View.setAccount_account_of_ne hc).trans ha), .refl⟩

theorem Account.Edit.turn {now : Nat} {record : Campaign} (h : a.Edit c now call record) :
    Turn c a.record record call := by
  cases h with
  | update live unverified => exact .retitled live.active unverified rfl rfl
  | describe live => exact .described live.active rfl rfl
  | handOver live pending other => exact .handedOver pending other rfl rfl
  | verify verifiable hcall => exact .verified hcall verifiable.active verifiable.unverified rfl rfl
  | _ => exact .kept rfl rfl

theorem Effect.turn (h : Effect env v call v') (reg : v.Registered)
    (ha : v.account c = some a) :
    ∃ a', v'.account c = some a' ∧ Turn c a.record a'.record call := by
  cases h with
  | create =>
      have hc : c ≠ v.campaignCount + 1 := by
        rintro rfl
        rw [reg.next_none] at ha
        cases ha
      exact ⟨a, (View.setAccount_account_of_ne hc).trans ha, .refl⟩
  | batch batched =>
      refine ⟨_, (batched.account c).trans (by rw [ha]; rfl), .kept ?_ ?_⟩
      all_goals
        rw [Account.contributeAll_record]
        rfl
  | withdraw hb payable =>
      exact Turn.single hb (fun _ => rfl) (.withdrawn (.inl rfl) payable.verified
        payable.notCancelled payable.notWithdrawn rfl rfl) ha
  | @claimMilestone id b token admin milestone hb payable =>
      refine Turn.single hb (fun _ => rfl) ?_ ha
      unfold Account.claimMilestone
      split
      next =>
          exact .withdrawn (.inr ⟨_, rfl⟩) payable.verified payable.notCancelled
            payable.notWithdrawn rfl rfl
      next => exact .kept rfl rfl
  | cancel hb live =>
      exact Turn.single hb (fun _ => rfl) (.cancelled (.inl rfl) live.active rfl rfl) ha
  | adminCancel hb live =>
      exact Turn.single hb (fun _ => rfl) (.cancelled (.inr ⟨_, _, rfl⟩) live.active rfl rfl) ha
  | edit hb hedit => exact Turn.single hb (fun _ => rfl) hedit.turn ha
  | handOver hb live pending other =>
      exact Turn.single hb (fun _ => rfl) (.handedOver pending other rfl rfl) ha
  | verifications h =>
      rcases h.account c with hsame | ⟨b, hb, verifiable, hmem, hb'⟩
      · exact ⟨a, hsame.trans ha, .refl⟩
      · obtain rfl := Option.some.inj (ha.symm.trans hb)
        exact ⟨_, hb', .verified (.inr (.inr ⟨_, hmem, rfl⟩)) verifiable.active
          verifiable.unverified rfl rfl⟩
  | administer h =>
      obtain ⟨store, hstep, rfl⟩ := h
      exact ⟨a, ha, .refl⟩
  | outside => exact ⟨a, ha, .refl⟩
  | contribute hb => exact Turn.single hb (fun _ => rfl) (.kept rfl rfl) ha
  | refund hb => exact Turn.single hb (fun _ => rfl) (.kept rfl rfl) ha
  | release hb => exact Turn.single hb (fun _ => rfl) (.kept rfl rfl) ha
  | plan hb => exact Turn.single hb (fun _ => rfl) (.kept rfl rfl) ha
  | verifyMilestone hb => exact Turn.single hb (fun _ => rfl) (.kept rfl rfl) ha
  | deposit hb => exact Turn.single hb (fun _ => rfl) (.kept rfl rfl) ha
  | claimRevenue hb => exact Turn.single hb (fun _ => rfl) (.kept rfl rfl) ha
  | claimCreatorRevenue hb => exact Turn.single hb (fun _ => rfl) (.kept rfl rfl) ha

/-! ## Along a run -/

variable {host : Host} {tr : List Receipt} {cfg : Config} {r : Receipt} {record : Campaign}

theorem Receipt.Valid.turn (h : r.Valid host) (sane : (view r.pre).Sane)
    (hrecord : r.pre.campaigns.campaign c = some record) :
    ∃ record', r.post.campaigns.campaign c = some record' ∧ Turn c record record' r.call := by
  have ha : (view r.pre.clearMoved).account c = some ⟨record, fundsOf r.pre c⟩ :=
    View.account_of_campaign hrecord
  obtain ⟨a', ha', hturn⟩ := (h.effect sane.toConfigured).turn ⟨sane.exists_iff, sane.blank⟩ ha
  exact ⟨a'.record, (View.account_eq_some.mp ha').1, hturn⟩

/-- A record that was not there is that of a campaign just created. -/
theorem Receipt.Valid.created (h : r.Valid host) (sane : (view r.pre).Sane)
    (hnone : r.pre.campaigns.campaign c = none)
    (hrecord : r.post.campaigns.campaign c = some record) :
    c = r.pre.campaigns.campaignCount + 1 ∧ ∃ params deadline,
      (r.call = .createCampaign params ∨ ∃ token, r.call = .createCampaignWithToken params token) ∧
      record = params.campaign c deadline := by
  have hfree : (view r.pre).account c = none := by
    rw [View.account, ← campaign_view, hnone]
    rfl
  rcases ((h.stepped sane).free c hfree).2 with ⟨hstill, -⟩ | ⟨-, a, ha, hborn⟩
  · rw [View.account_of_campaign hrecord] at hstill
    cases hstill
  · obtain rfl := Option.some.inj (hrecord.symm.trans (View.account_eq_some.mp ha).1)
    cases hborn with
    | born hcall =>
        refine ⟨rfl, _, _, ?_, rfl⟩
        rcases hcall with ⟨hcall, -⟩ | ⟨token, hcall, -⟩
        · exact .inl hcall
        · exact .inr ⟨token, hcall⟩

/-- What the first call and every later one satisfy holds of every receipt. -/
theorem run_receipts {P : Receipt → Prop} (start : ∀ r cfg, (machine host).Start r cfg → P r)
    (step : ∀ {tr : List Receipt} {cfg : Config} {r : Receipt}, Run (machine host) tr cfg →
      r.Valid host → r.pre = cfg.state → P r)
    (run : Run (machine host) tr cfg) : ∀ r ∈ tr, P r := by
  refine run.invariant (I := fun tr _ => ∀ r ∈ tr, P r) ?_ ?_ ?_
  · intro r cfg hstart
    exact List.forall_mem_singleton.mpr (start r cfg hstart)
  · rintro tr cfg r cfg' run ih ⟨hvalid, -, hpre, -⟩
    exact List.forall_mem_cons.mpr ⟨step run hvalid hpre, ih⟩
  · rintro tr cfg cfg' ih -
    exact ih

/-- The induction rule for the face and the flags of one campaign. -/
theorem record_invariant {I : List Receipt → Campaign → Prop}
    (born : ∀ {tr : List Receipt} {cfg : Config} {r : Receipt} {params : CreateCampaignParams}
      {deadline : Nat}, Run (machine host) tr cfg → r.pre = cfg.state →
      r.pre.campaigns.campaign c = none → I (r :: tr) (params.campaign c deadline))
    (step : ∀ {tr : List Receipt} {cfg : Config} {r : Receipt} {old new : Campaign},
      Run (machine host) tr cfg → r.Valid host → r.pre = cfg.state →
      r.pre.campaigns.campaign c = some old → Turn c old new r.call → I tr old → I (r :: tr) new)
    (run : Run (machine host) tr cfg) (hrecord : cfg.state.campaigns.campaign c = some record) :
    I tr record := by
  suffices h : ∀ record, cfg.state.campaigns.campaign c = some record → I tr record from
    h record hrecord
  refine run.invariant (I := fun tr cfg => ∀ record,
    cfg.state.campaigns.campaign c = some record → I tr record) ?_ ?_ ?_
  · intro r cfg hstart record hrecord
    have hnone : (view cfg.state).campaign c = none := (start_fresh hstart).campaign c
    rw [← campaign_view, hrecord] at hnone
    cases hnone
  · rintro tr cfg r cfg' run ih ⟨hvalid, -, hpre, rfl⟩ record hrecord
    have sane := run_sane run
    rw [← hpre] at sane ih
    cases hc : r.pre.campaigns.campaign c with
    | none =>
        obtain ⟨-, params, deadline, -, rfl⟩ := hvalid.created sane hc hrecord
        exact born run hpre hc
    | some old =>
        obtain ⟨new, hnew, hturn⟩ := hvalid.turn sane hc
        obtain rfl := Option.some.inj (hrecord.symm.trans hnew)
        exact step run hvalid hpre hc hturn (ih old hc)
  · rintro tr cfg cfg' ih ⟨tokens, -, rfl⟩
    exact ih

end ProofOfHeart
