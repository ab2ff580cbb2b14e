import ProofOfHeart.Laws.CreatorIndex
import ProofOfHeart.Laws.Sovereignty

/-! # Nobody funds a campaign of their own

A contribution is refused to the creator of the campaign. The creator changes by a
transfer, which does not look at what the heir has contributed; this is the one way in
which a campaign comes to hold a contribution of its own creator.
-/

namespace ProofOfHeart

open Checked Function Trace

variable {host : Host} {tr : List Receipt} {cfg : Config} {r : Receipt} {c : Nat} {a a' : Account}
  {env : Env} {v v' : View} {act : Act} {moves : List Transfer} {delta : Int} {s : State}
  {call : Call} {who heir : Address}

/-- No campaign holds a contribution of its present creator. -/
def SelfFree (s : State) : Prop :=
  ∀ c record, s.campaigns.campaign c = some record →
    s.contributions.contribution c record.creator ≤ 0

/-- The creator of a campaign draws a refund or a contributor's revenue from it. -/
def Receipt.PaysOwner (r : Receipt) : Prop :=
  ∃ c record, r.pre.campaigns.campaign c = some record ∧
    (r.call = .claimRefund c record.creator ∨ r.call = .claimRevenue c record.creator)

/-- What the nominated heir of a campaign holds in it. -/
def heirContribution (s : State) (c : Nat) : Int :=
  match (s.campaigns.campaign c).bind Campaign.pendingCreator with
  | some heir => s.contributions.contribution c heir
  | none => 0

/-- A campaign is handed over only to somebody who holds no contribution to it. -/
def Receipt.HandsToOutsider (r : Receipt) : Prop :=
  ∀ c, r.call.handsOver = some c → heirContribution r.pre c = 0

instance (r : Receipt) : Decidable r.HandsToOutsider :=
  inferInstanceAs (Decidable (∀ c, r.call.handsOver = some c → _))

/-! ## One step -/

/-- While the creator stays, the creator's entry does not grow. -/
theorem AccountStep.ownEntry_le (h : AccountStep env v c act moves delta a a')
    (hfree : a.funds.contribution a.record.creator ≤ 0) :
    a'.funds.contribution a.record.creator ≤ 0 := by
  by_cases hactor : act.actor = some a.record.creator
  · cases h with
    | contributed nonempty pos accepts => exact absurd (Option.some.inj hactor) accepts.notCreator
    | refunded =>
        rw [Option.some.inj hactor]
        simp [Account.refund]
    | claimedRevenue => exact hfree
    | _ => cases hactor
  · rw [(h.sameEntries hactor).contribution]
    exact hfree

/-- Refunds and shares of the revenue go to contributors. -/
theorem AccountStep.draws (h : AccountStep env v c act moves delta a a')
    (hact : act = .refund who ∨ act = .claimRevenue who) : a.funds.contribution who ≠ 0 := by
  rcases hact with rfl | rfl
  · cases h with
    | refunded refundable pos => exact ne_of_gt pos
  · cases h with
    | claimedRevenue shares contributed => exact contributed

theorem selfFree_iff : SelfFree s ↔
    ∀ c who, (view s).owner c = some who → s.contributions.contribution c who ≤ 0 := by
  constructor
  · intro h c who howner
    obtain ⟨record, hrecord, rfl⟩ := Option.map_eq_some_iff.mp howner
    exact h c record hrecord
  · intro h c record hrecord
    exact h c record.creator (Option.map_eq_some_iff.mpr ⟨record, hrecord, rfl⟩)

theorem Stepped.ownEntry_le (h : Stepped env v call v') (howner : v.owner c = some who)
    (hfree : (v.funds c).contribution who ≤ 0) : (v'.funds c).contribution who ≤ 0 := by
  obtain ⟨record, hrecord, rfl⟩ := Option.map_eq_some_iff.mp howner
  obtain ⟨delta, -, hexisting⟩ := h.existing
  obtain ⟨a', ha', hstep⟩ := hexisting c _ (View.account_of_campaign hrecord)
  rw [(View.account_eq_some.mp ha').2]
  exact hstep.ownEntry_le hfree

/-- A hand-over puts the heir's entry in the place of the creator's. -/
theorem Receipt.Valid.handOver_selfFree (h : r.Valid host) (sane : (view r.pre).Sane)
    (free : SelfFree r.pre) (hcall : r.call = .acceptCampaignTransfer c) :
    SelfFree r.post ↔ heirContribution r.pre c ≤ 0 := by
  have heffect := h.effect sane.toConfigured
  have hstepped := h.stepped sane
  rw [hcall] at heffect hstepped
  obtain ⟨record, heir, hrecord, hpending, howner⟩ := heffect.owner_handOver
  have hstored : r.pre.campaigns.campaign c = some record := hrecord
  have hheir : heirContribution r.pre c = r.pre.contributions.contribution c heir := by
    rw [heirContribution, hstored, Option.bind_some, hpending]
  have hsame : ∀ other who, r.post.contributions.contribution other who =
      r.pre.contributions.contribution other who := fun other who =>
    (hstepped.sameEntries sane.toRegistered (fun _ heq => by cases heq) other).contribution
  rw [hheir, selfFree_iff]
  constructor
  · intro hfree
    rw [← hsame]
    exact hfree c heir (by rw [howner, update_self])
  · intro hfree other who hwho
    rw [hsame]
    rw [howner] at hwho
    by_cases hother : other = c
    · subst hother
      rw [update_self] at hwho
      rwa [← Option.some.inj hwho]
    · rw [update_of_ne hother] at hwho
      exact selfFree_iff.mp free other who hwho

/-- Whatever else happens, no creator comes to hold a contribution of their own. -/
theorem Receipt.Valid.selfFree (h : r.Valid host) (sane : (view r.pre).Sane)
    (free : SelfFree r.pre) (hkeeps : r.call.handsOver = none) : SelfFree r.post := by
  have heffect := h.effect sane.toConfigured
  have hstepped := h.stepped sane
  rw [selfFree_iff] at free ⊢
  intro c who howner
  cases hcreates : r.call.creates with
  | none =>
      rw [heffect.owner_kept hcreates hkeeps] at howner
      exact hstepped.ownEntry_le howner (free c who howner)
  | some creator =>
      have hcall : ∃ params, r.call = .createCampaign params ∨
          ∃ token, r.call = .createCampaignWithToken params token := by
        generalize r.call = call at hcreates
        cases call with
        | createCampaign params => exact ⟨params, .inl rfl⟩
        | createCampaignWithToken params token => exact ⟨params, .inr ⟨token, rfl⟩⟩
        | _ => cases hcreates
      obtain ⟨params, hcall⟩ := hcall
      by_cases hnext : c = r.pre.campaigns.campaignCount + 1
      · have hquiet : ∀ d, (r.call.act d).actor ≠ some who := by
          rcases hcall with hcall | ⟨token, hcall⟩
          all_goals
            rw [hcall]
            exact fun _ heq => by cases heq
        have hsame := (hstepped.sameEntries sane.toRegistered hquiet c).contribution
        have hblank : (view r.pre).funds c = .blank := by
          rw [hnext]
          exact sane.blank _ sane.next_none
        rw [hblank] at hsame
        exact Int.le_of_eq hsame
      · rw [heffect.owner_create hcall] at howner
        have hold : (view r.pre).owner c = some who := (update_of_ne hnext _ _).symm.trans howner
        exact hstepped.ownEntry_le hold (free c who hold)

/-- Given what the campaigns hold before, no creator draws on an entry of their own. -/
theorem Receipt.Valid.not_paysOwner (h : r.Valid host) (sane : (view r.pre).Sane)
    (books : ∀ c a, (view r.pre).account c = some a → a.Books) (free : SelfFree r.pre) :
    ¬ r.PaysOwner := by
  rintro ⟨c, record, hrecord, hcall⟩
  have heffect := h.effect sane.toConfigured
  have hstepped := h.stepped sane
  have ha := View.account_of_campaign (v := view r.pre) hrecord
  obtain ⟨delta, -, hexisting⟩ := hstepped.existing
  obtain ⟨a', -, hstep⟩ := hexisting c _ ha
  have hnonneg := (books c _ ha).contribution_nonneg record.creator
  have hle := free c record hrecord
  have hact : r.call.act c = .refund record.creator ∨
      r.call.act c = .claimRevenue record.creator := by
    rcases hcall with hcall | hcall
    all_goals rw [hcall, Call.act, if_pos rfl]
    · exact .inl rfl
    · exact .inr rfl
  have hdraws := hstep.draws hact
  exact hdraws (Int.le_antisymm hle hnonneg)

/-! ## The law -/

theorem run_contributions_nonneg (run : Run (machine host) tr cfg) (c : Nat) (who : Address) :
    0 ≤ cfg.state.contributions.contribution c who := by
  cases hc : (view cfg.state).account c with
  | some a =>
      have hnonneg := (run_books run hc).1.contribution_nonneg who
      rwa [← (View.account_eq_some.mp hc).2] at hnonneg
  | none =>
      rw [contribution_view, (run_sane run).blank c hc]
      exact Int.le_refl 0

theorem run_selfFree (run : Run (machine host) tr cfg) (houtsiders : ∀ r ∈ tr, r.HandsToOutsider) :
    SelfFree cfg.state := by
  refine run.guarded (C := Receipt.HandsToOutsider) (I := fun _ cfg => SelfFree cfg.state) ?_ ?_ ?_
    houtsiders
  · intro r cfg hstart _ c record hrecord
    have hnone : (view cfg.state).campaign c = none := (start_fresh hstart).campaign c
    rw [← campaign_view, hrecord] at hnone
    cases hnone
  · rintro tr cfg r cfg' run - free houtsider ⟨hvalid, -, hpre, rfl⟩
    have sane := run_sane run
    rw [← hpre] at sane free
    cases hover : r.call.handsOver with
    | none => exact hvalid.selfFree sane free hover
    | some c =>
        refine (hvalid.handOver_selfFree sane free (Call.handsOver_eq_some.mp hover)).mpr ?_
        exact Int.le_of_eq (houtsider c hover)
  · rintro tr cfg cfg' free ⟨tokens, -, rfl⟩
    exact free

theorem heirContribution_nonneg (run : Run (machine host) tr cfg) :
    0 ≤ heirContribution cfg.state c := by
  unfold heirContribution
  split
  next => exact run_contributions_nonneg run _ _
  next => exact Int.le_refl 0

/-- No campaign ever holds a contribution of its own creator, and none pays its own creator
as a contributor, exactly in the runs that hand campaigns only to outsiders. -/
theorem selfFunding_excluded (run : Run (machine host) tr cfg) :
    (∀ r ∈ tr, SelfFree r.post ∧ ¬ r.PaysOwner) ↔ ∀ r ∈ tr, r.HandsToOutsider := by
  rw [← forall_split_iff]
  refine run.exactly (C := Receipt.HandsToOutsider)
    (P := fun r _ => SelfFree r.post ∧ ¬ r.PaysOwner) ?_ ?_
  · intro r cfg hstart
    obtain ⟨-, ⟨tokens, hpre⟩, ⟨admin, token, platformFee, hcall⟩, hcfg⟩ := id hstart
    have houtsider : r.HandsToOutsider := fun c hover => by
      rw [hcall] at hover
      cases hover
    have free := run_selfFree (.start hstart) fun x hx => List.mem_singleton.mp hx ▸ houtsider
    rw [hcfg] at free
    refine iff_of_true ⟨free, ?_⟩ houtsider
    rintro ⟨c, record, hrecord, -⟩
    rw [hpre] at hrecord
    cases hrecord
  · rintro tr cfg r cfg' run hearlier ⟨hvalid, -, hpre, -⟩
    have sane := run_sane run
    have free := run_selfFree run hearlier
    have books := fun c a => run_books run (c := c) (a := a)
    have hnonneg := fun c => heirContribution_nonneg run (c := c)
    rw [← hpre] at sane free books hnonneg
    have hpays := hvalid.not_paysOwner sane (fun c a ha => (books c a ha).1) free
    constructor
    · rintro ⟨hpost, -⟩ c hover
      have hle := (hvalid.handOver_selfFree sane free (Call.handsOver_eq_some.mp hover)).mp hpost
      exact Int.le_antisymm hle (hnonneg c)
    · intro houtsider
      refine ⟨?_, hpays⟩
      cases hover : r.call.handsOver with
      | none => exact hvalid.selfFree sane free hover
      | some c =>
          refine (hvalid.handOver_selfFree sane free (Call.handsOver_eq_some.mp hover)).mpr ?_
          exact Int.le_of_eq (houtsider c hover)

/-- Alice contributes, and the campaign passes to `next`. -/
def Sample.passed (next : Address) : List Request :=
  opened 0 ++
    [ask 1 alice (.contribute 1 alice 30000), ask 2 creator (.initiateCampaignTransfer 1 next),
      ask 3 next (.acceptCampaignTransfer 1)]

theorem selfFunding_sample :
    ∃ tr cfg, Run (machine Sample.host) tr cfg ∧
      (cfg.state.campaigns.campaign 1).map Campaign.creator = some Sample.heir ∧
      ∀ r ∈ tr, SelfFree r.post ∧ ¬ r.PaysOwner := by
  have h : Sample.Ends 0 (Sample.passed Sample.heir) fun tr cfg =>
      (cfg.state.campaigns.campaign 1).map Campaign.creator = some Sample.heir ∧
        ∀ r ∈ tr, r.HandsToOutsider := by
    decide +kernel
  obtain ⟨tr, cfg, run, hcreator, houtsiders⟩ := h.run
  exact ⟨tr, cfg, run, hcreator, (selfFunding_excluded run).mpr houtsiders⟩

/-- Alice becomes the creator of the campaign that she has contributed to, and draws the
refund when it fails. -/
theorem selfFunding_included :
    ∃ tr cfg, Run (machine Sample.host) tr cfg ∧ (∃ r ∈ tr, ¬ SelfFree r.post) ∧
      ∃ r ∈ tr, r.PaysOwner := by
  have h : Sample.Ends 0 (Sample.passed Sample.alice ++
      [Sample.ask 900000 Sample.alice (.claimRefund 1 Sample.alice)]) fun tr _ =>
      (∃ r ∈ tr, (r.post.campaigns.campaign 1).map Campaign.creator = some Sample.alice ∧
        0 < r.post.contributions.contribution 1 Sample.alice) ∧
      ∃ r ∈ tr, (r.pre.campaigns.campaign 1).map Campaign.creator = some Sample.alice ∧
        r.call = .claimRefund 1 Sample.alice := by
    decide +kernel
  obtain ⟨tr, cfg, run, ⟨r, hr, hcreator, hpos⟩, x, hx, hdrawer, hcall⟩ := h.run
  refine ⟨tr, cfg, run, ⟨r, hr, fun hfree => ?_⟩, x, hx, ?_⟩
  · obtain ⟨record, hrecord, hcreator⟩ := Option.map_eq_some_iff.mp hcreator
    have hle := hfree 1 record hrecord
    rw [hcreator] at hle
    exact absurd hpos (Int.not_lt.mpr hle)
  · obtain ⟨record, hrecord, hdrawer⟩ := Option.map_eq_some_iff.mp hdrawer
    exact ⟨1, record, hrecord, .inl (hdrawer ▸ hcall)⟩

end ProofOfHeart
