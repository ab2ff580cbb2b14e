import ProofOfHeart.Account.Terms
import ProofOfHeart.Account.Turn
import ProofOfHeart.Lib.UniqueIndex
import ProofOfHeart.Laws.PlatformCounters

/-! # Titles of a creator

A creation enters the creator and the hash of the title in an index and refuses a pair
that is already there. A rename and a hand-over change the pair of a campaign behind the
index, which then refuses a title that no campaign of its creator bears.
-/

namespace ProofOfHeart

open Checked Function Table Trace UniqueIndex

variable {host : Host} {tr : List Receipt} {cfg : Config} {c : Nat} {call : Call}
  {env : Env} {s s' : State} {r : Receipt} {old new : Campaign}

/-! ## The duplicate check -/

/-- What `create_campaign` asks of the index. -/
def creatorHasTitle (s : State) (creator : Address) (titleHash : Digest) : Bool :=
  (s.campaigns.creatorCampaignTitleIndex creator titleHash).isSome

def State.forgetTitles (s : State) : State :=
  { s with campaigns.creatorCampaignTitleIndex := fun _ _ => none }

/-- A title that the index does not have is never refused as a duplicate: the checks are
those of a contract that has no titles yet. -/
theorem checkCreateParams_of_free {params : CreateCampaignParams}
    (h : creatorHasTitle s params.creator (env.host.sha256 params.title) = false) :
    checkCreateParams env s params = checkCreateParams env s.forgetTitles params := by
  have hnone : s.campaigns.creatorCampaignTitleIndex params.creator
      (env.host.sha256 params.title) = none := Option.isNone_iff_eq_none.mp
    (Option.isSome_eq_false_iff.mp h)
  simp only [checkCreateParams, hashText, State.forgetTitles, getMinCampaignFundingGoal,
    getMaxCampaignFundingGoal, bind_assoc, pure_bind, hnone]
  rfl

/-- A title that the index has is always refused. -/
theorem checkCreateParams_of_taken {params : CreateCampaignParams} {titleHash : Digest}
    (h : creatorHasTitle s params.creator (env.host.sha256 params.title) = true) :
    checkCreateParams env s params ≠ .ok titleHash := by
  intro hok
  simp only [checkCreateParams, hashText, bind_eq_ok, rejectIf_eq_ok, pure_eq_ok, not_not] at hok
  obtain ⟨_, -, _, -, _, -, _, -, _, -, _, ⟨_, -, rfl⟩, _, hfree, -⟩ := hok
  rw [creatorHasTitle, hfree] at h
  cases h

/-! ## Keys of campaigns -/

/-- What the index files a campaign under. -/
def titleKey (host : Host) (s : State) (c : Nat) : Option (Address × Digest) :=
  (s.campaigns.campaign c).map fun record => (record.creator, host.sha256 record.title)

def titleIndex (s : State) (key : Address × Digest) : Option Nat :=
  s.campaigns.creatorCampaignTitleIndex key.1 key.2

theorem titleIndex_congr (h : (board s').titles = (board s).titles) :
    titleIndex s' = titleIndex s := by
  funext key
  exact congrFun (congrFun h key.1) key.2

/-- No two campaigns of one creator bear the same title, and a title that no campaign of
a creator bears is free for that creator. -/
structure TitlesUnique (host : Host) (s : State) : Prop where
  unique : ∀ c c' record record', s.campaigns.campaign c = some record →
    s.campaigns.campaign c' = some record' → record.creator = record'.creator →
    record.title = record'.title → c = c'
  free : ∀ creator title, (∀ c record, s.campaigns.campaign c = some record →
    record.creator = creator → record.title ≠ title) →
    creatorHasTitle s creator (host.sha256 title) = false

/-- The call changes no title and no owner behind the index. -/
def Receipt.KeepsTitles (r : Receipt) : Prop :=
  match r.call with
  | .updateCampaign c title _ =>
      ∀ record, r.pre.campaigns.campaign c = some record → record.title = title
  | .acceptCampaignTransfer _ => False
  | _ => True

instance (r : Receipt) : Decidable r.KeepsTitles := by
  obtain ⟨env, call, pre, post⟩ := r
  apply @Call.casesOn (fun call => Decidable (Receipt.KeepsTitles ⟨env, call, pre, post⟩)) call
  all_goals
    intros
    dsimp only [Receipt.KeepsTitles]
    infer_instance

theorem titleKey_eq_some {creator : Address} {titleHash : Digest} :
    titleKey host s c = some (creator, titleHash) ↔ ∃ record,
      s.campaigns.campaign c = some record ∧ record.creator = creator ∧
        host.sha256 record.title = titleHash := by
  simp [titleKey]

/-- An exact index keeps titles unique. -/
theorem titlesUnique_of_indexes (hinj : Function.Injective host.sha256)
    (h : Indexes (titleKey host s) (titleIndex s)) : TitlesUnique host s where
  unique c c' record record' hrecord hrecord' hcreator htitle := by
    have hkey : titleKey host s c = some (record.creator, host.sha256 record.title) :=
      titleKey_eq_some.mpr ⟨record, hrecord, rfl, rfl⟩
    have hkey' : titleKey host s c' = some (record.creator, host.sha256 record.title) :=
      titleKey_eq_some.mpr ⟨record', hrecord', hcreator.symm, by rw [htitle]⟩
    exact h.unique hkey hkey'
  free creator title hfree := by
    have hnone : titleIndex s (creator, host.sha256 title) = none := h.free fun c hkey => by
      obtain ⟨record, hrecord, hcreator, htitle⟩ := titleKey_eq_some.mp hkey
      exact hfree c record hrecord hcreator (hinj htitle)
    exact Option.isSome_eq_false_iff.mpr (Option.isNone_iff_eq_none.mpr hnone)

/-! ## One call -/

theorem Turn.titleKey_kept (h : Turn c old new r.call) (hkeeps : r.KeepsTitles)
    (hold : r.pre.campaigns.campaign c = some old)
    (hnew : r.post.campaigns.campaign c = some new) :
    titleKey host r.post c = titleKey host r.pre c := by
  have hsame : new.creator = old.creator ∧ new.title = old.title := by
    unfold Receipt.KeepsTitles at hkeeps
    generalize hcall : r.call = call at h hkeeps
    cases h with
    | kept _ face | verified _ _ _ _ face | cancelled _ _ _ face | withdrawn _ _ _ _ _ face =>
        exact ⟨congrArg Face.creator face, congrArg Face.title face⟩
    | described _ _ face => exact ⟨congrArg Face.creator face, congrArg Face.title face⟩
    | retitled _ _ _ face =>
        exact ⟨congrArg Face.creator face, (congrArg Face.title face).trans (hkeeps old hold).symm⟩
    | handedOver => exact absurd hkeeps id
  rw [titleKey, titleKey, hold, hnew, Option.map_some, Option.map_some, hsame.1, hsame.2]

/-- What a call does to the index. -/
theorem Posting.titles (h : Posting env s s' call) :
    (titleIndex s' = titleIndex s ∧ call.creates = none) ∨
    ∃ params, (call = .createCampaign params ∨
        ∃ token, call = .createCampaignWithToken params token) ∧
      titleIndex s (params.creator, env.host.sha256 params.title) = none ∧
      titleIndex s' = update (titleIndex s) (params.creator, env.host.sha256 params.title)
        (some (s.campaigns.campaignCount + 1)) := by
  cases h with
  | create hcall fresh h =>
      refine .inr ⟨_, hcall, fresh, ?_⟩
      funext key
      have htitles : titleIndex s' key = put (board s).titles _ _ _ key.1 key.2 :=
        congrArg (fun b : Board => b.titles key.1 key.2) h
      rw [htitles, put_apply, update_apply]
      simp only [Prod.ext_iff]
      rfl
  | cancel hcall _ _ h =>
      refine .inl ⟨titleIndex_congr (by rw [h]), ?_⟩
      rcases hcall with rfl | ⟨_, _, rfl⟩ <;> rfl
  | describe _ h =>
      refine .inl ⟨?_, rfl⟩
      have htitles : (board s').titles = (board s).titles := by
        rw [h]
        split <;> rfl
      exact titleIndex_congr htitles
  | votingRules hcall h | entries hcall h | kept hcall h =>
      refine .inl ⟨titleIndex_congr (by rw [h]), ?_⟩
      cases call <;> first | rfl | cases hcall
  | handOver _ _ h | contribute _ h | batch h | refund h | verify h | certify _ _ _ h
  | verifyBatch h | vote _ _ _ _ _ h | purge _ _ h =>
      exact .inl ⟨titleIndex_congr (by rw [h]), rfl⟩

theorem titleKey_of_none (h : s.campaigns.campaign c = none) : titleKey host s c = none := by
  rw [titleKey, h]
  rfl

/-- A call that creates no campaign and keeps titles and owners keeps every key. -/
theorem Receipt.Valid.titleKey_kept (hvalid : r.Valid host) (sane : (view r.pre).Sane)
    (hkeeps : r.KeepsTitles) (hcreates : r.call.creates = none) :
    titleKey host r.post = titleKey host r.pre := by
  funext c
  cases hold : r.pre.campaigns.campaign c with
  | some old =>
      obtain ⟨new, hnew, hturn⟩ := hvalid.turn sane hold
      exact hturn.titleKey_kept hkeeps hold hnew
  | none =>
      cases hnew : r.post.campaigns.campaign c with
      | none => rw [titleKey_of_none hold, titleKey_of_none hnew]
      | some new =>
          obtain ⟨-, params, deadline, hcall, -⟩ := hvalid.created sane hold hnew
          rcases hcall with hcall | ⟨token, hcall⟩
          all_goals
            rw [hcall] at hcreates
            cases hcreates

/-- A creation files the next campaign. -/
theorem Receipt.Valid.titleKey_create (hvalid : r.Valid host) (sane : (view r.pre).Sane)
    {params : CreateCampaignParams} (hcall : r.call = .createCampaign params ∨
      ∃ token, r.call = .createCampaignWithToken params token) :
    titleKey host r.post = update (titleKey host r.pre) (r.pre.campaigns.campaignCount + 1)
      (some (params.creator, host.sha256 params.title)) := by
  funext c
  by_cases hc : c = r.pre.campaigns.campaignCount + 1
  · subst hc
    obtain ⟨-, deadline, hnew⟩ := hvalid.creation hcall
    rw [update_self]
    exact titleKey_eq_some.mpr ⟨_, hnew, rfl, rfl⟩
  · rw [update_of_ne hc]
    cases hold : r.pre.campaigns.campaign c with
    | some old =>
        obtain ⟨new, hnew, hturn⟩ := hvalid.turn sane hold
        refine hturn.titleKey_kept ?_ hold hnew
        unfold Receipt.KeepsTitles
        rcases hcall with hcall | ⟨token, hcall⟩
        all_goals
          rw [hcall]
          trivial
    | none =>
        cases hnew : r.post.campaigns.campaign c with
        | none => rw [titleKey_of_none hold, titleKey_of_none hnew]
        | some new => exact absurd (hvalid.created sane hold hnew).1 hc

theorem Receipt.Valid.indexes (hvalid : r.Valid host) (sane : (view r.pre).Sane)
    (hkeeps : r.KeepsTitles) (h : Indexes (titleKey host r.pre) (titleIndex r.pre)) :
    Indexes (titleKey host r.post) (titleIndex r.post) := by
  rcases (hvalid.posting sane.toConfigured).titles with ⟨hindex, hcreates⟩ |
    ⟨params, hcall, hfree, hindex⟩
  · rw [hindex, hvalid.titleKey_kept sane hkeeps hcreates]
    exact h
  · have hnext : titleKey host r.pre (r.pre.campaigns.campaignCount + 1) = none :=
      titleKey_of_none sane.next_campaign
    rw [hvalid.1] at hfree hindex
    rw [hindex, hvalid.titleKey_create sane hcall]
    exact h.insert hnext hfree

/-- A call that changes a title or an owner leaves a title that is refused for nothing. -/
theorem Receipt.Valid.stale (hinj : Function.Injective host.sha256) (hvalid : r.Valid host)
    (sane : (view r.pre).Sane) (hchanges : ¬ r.KeepsTitles)
    (h : Indexes (titleKey host r.pre) (titleIndex r.pre)) : ¬ TitlesUnique host r.post := by
  -- the campaign that changed, while the index and every other campaign stay
  obtain ⟨c, old, new, hold, hcampaign, hother, hindex⟩ : ∃ c old new,
      r.pre.campaigns.campaign c = some old ∧
      (view r.post).campaign = update (view r.pre).campaign c (some new) ∧
      (new.creator ≠ old.creator ∨ new.title ≠ old.title) ∧
      titleIndex r.post = titleIndex r.pre := by
    have hdispatch := hvalid.dispatched
    have hposting := hvalid.posting sane.toConfigured
    unfold Receipt.KeepsTitles at hchanges
    generalize hcall : r.call = call at hdispatch hposting hchanges
    cases call with
    | updateCampaign c title description =>
        simp only [not_forall] at hchanges
        obtain ⟨old, hold, htitle⟩ := hchanges
        obtain ⟨a, record, ha, hedit, hview⟩ := updateCampaign_spec hdispatch
        obtain rfl : a.record = old :=
          Option.some.inj ((View.account_eq_some.mp ha).1.symm.trans hold)
        refine ⟨c, a.record, record, hold, by rw [hview]; rfl, .inr ?_, ?_⟩
        · cases hedit with
          | update => exact Ne.symm htitle
          | verify _ hverify => rcases hverify with h | h | ⟨ids, -, h⟩ <;> cases h
        · rcases hposting.titles with ⟨hsame, -⟩ | ⟨params, hcreate, -⟩
          · exact hsame
          · rcases hcreate with h | ⟨token, h⟩ <;> cases h
    | acceptCampaignTransfer c =>
        obtain ⟨a, heir, b, slot, last, ha, -, -, hheir, -, -, -, hview⟩ :=
          acceptCampaignTransfer_spec hdispatch
        refine ⟨c, a.record, _, (View.account_eq_some.mp ha).1, by rw [hview]; rfl, .inl hheir, ?_⟩
        rcases hposting.titles with ⟨hsame, -⟩ | ⟨params, hcreate, -⟩
        · exact hsame
        · rcases hcreate with h | ⟨token, h⟩ <;> cases h
    | _ => exact absurd trivial hchanges
  intro unique
  have hkey : titleKey host r.pre c = some (old.creator, host.sha256 old.title) :=
    titleKey_eq_some.mpr ⟨old, hold, rfl, rfl⟩
  have hnew : r.post.campaigns.campaign c = some new := by
    rw [campaign_view, hcampaign, update_self]
  have hkey' : titleKey host r.post c ≠ some (old.creator, host.sha256 old.title) := fun hkey => by
    obtain ⟨record, hrecord, hcreator, htitle⟩ := titleKey_eq_some.mp hkey
    obtain rfl := Option.some.inj (hnew.symm.trans hrecord)
    rcases hother with hother | hother
    · exact hother hcreator
    · exact hother (hinj htitle)
  have hothers : ∀ d, d ≠ c → titleKey host r.post d = titleKey host r.pre d := fun d hd => by
    rw [titleKey, titleKey, campaign_view, hcampaign, update_of_ne hd]
    rfl
  obtain ⟨htaken, hnobody⟩ := h.stale hkey hkey' hothers
  have hfree := unique.free old.creator old.title fun d record hrecord hcreator htitle =>
    hnobody d (titleKey_eq_some.mpr ⟨record, hrecord, hcreator, by rw [htitle]⟩)
  rw [← hindex] at htaken
  exact htaken (Option.isNone_iff_eq_none.mp (Option.isSome_eq_false_iff.mp hfree))

/-! ## The law -/

theorem run_indexes (run : Run (machine host) tr cfg) (hkeeps : ∀ r ∈ tr, r.KeepsTitles) :
    Indexes (titleKey host cfg.state) (titleIndex cfg.state) := by
  refine run.guarded (C := Receipt.KeepsTitles)
    (I := fun _ cfg => Indexes (titleKey host cfg.state) (titleIndex cfg.state)) ?_ ?_ ?_ hkeeps
  · intro r cfg hstart _
    have hkey : titleKey host cfg.state = fun _ => none :=
      funext fun c => titleKey_of_none ((start_fresh hstart).campaign c)
    have hindex : titleIndex cfg.state = fun _ => none := by
      funext key
      exact congrFun (congrFun (congrArg Board.titles (start_board hstart)) key.1) key.2
    rw [hkey, hindex]
    exact .empty
  · rintro tr cfg r cfg' run - ih hkeeps ⟨hvalid, -, hpre, rfl⟩
    have sane := run_sane run
    rw [← hpre] at sane ih
    exact hvalid.indexes sane hkeeps ih
  · rintro tr cfg cfg' ih ⟨tokens, -, rfl⟩
    exact ih

/-- Titles stay unique, and no free title is refused, exactly in the runs that rename no
campaign and hand none over. -/
theorem titles_unique_iff (hinj : Function.Injective host.sha256)
    (run : Run (machine host) tr cfg) :
    (∀ r ∈ tr, TitlesUnique host r.post) ↔ ∀ r ∈ tr, r.KeepsTitles := by
  rw [← forall_split_iff]
  refine run.exactly (C := Receipt.KeepsTitles) (P := fun r _ => TitlesUnique host r.post) ?_ ?_
  · intro r cfg hstart
    obtain ⟨-, -, ⟨admin, token, platformFee, hcall⟩, hcfg⟩ := id hstart
    have hkeeps : r.KeepsTitles := by
      unfold Receipt.KeepsTitles
      rw [hcall]
      trivial
    have hindexes := run_indexes (.start hstart) fun x hx => List.mem_singleton.mp hx ▸ hkeeps
    rw [hcfg] at hindexes
    exact iff_of_true (titlesUnique_of_indexes hinj hindexes) hkeeps
  · rintro tr cfg r cfg' run hearlier ⟨hvalid, -, hpre, -⟩
    have sane := run_sane run
    have hindexes := run_indexes run hearlier
    rw [← hpre] at sane hindexes
    constructor
    · intro hunique
      by_contra hchanges
      exact hvalid.stale hinj sane hchanges hindexes hunique
    · intro hkeeps
      exact titlesUnique_of_indexes hinj (hvalid.indexes sane hkeeps hindexes)

/-- The digests of the two titles of the sample are those of SHA-256, and no other text
shares them. -/
def Sample.digest (text : Text) : Digest :=
  if text = [0] then
    [110, 52, 11, 156, 255, 179, 122, 152, 156, 165, 68, 230, 187, 120, 10, 44, 120, 144, 29,
      63, 179, 55, 56, 118, 133, 17, 163, 6, 23, 175, 160, 29]
  else if text = [1] then
    [75, 245, 18, 47, 52, 69, 84, 197, 59, 222, 46, 187, 140, 210, 183, 227, 209, 96, 10, 214,
      49, 195, 133, 165, 215, 204, 226, 60, 119, 133, 69, 154]
  else 0 :: text

theorem Sample.digest_injective : Function.Injective Sample.digest := by
  intro text text' h
  unfold Sample.digest at h
  split_ifs at h <;> simp_all

def Sample.hashing : Host := ⟨Sample.digest⟩

/-- Two campaigns of one creator under two titles. -/
def Sample.titled : List Request :=
  [ask 0 creator (.createCampaign (params [0] 0)), ask 1 creator (.createCampaign (params [1] 0))]

/-- The script goes through under real digests, and `P` holds of its run. -/
theorem Sample.hashed (script : List Request) (P : List Receipt → Config → Bool)
    (h : (deploy hashing [token, newToken] tokens (ledger 0) admin token 300 script).any
      (fun ends => P ends.1 ends.2) = true) :
    ∃ tr cfg, Run (machine hashing) tr cfg ∧ P tr cfg = true := by
  obtain ⟨ends, hends, hP⟩ := (Option.any_eq_true _ _).mp h
  exact ⟨ends.1, ends.2, deploy_run hends, hP⟩

theorem titles_sample : ∃ tr cfg, Run (machine Sample.hashing) tr cfg ∧
    cfg.state.campaigns.campaignCount = 2 ∧ ∀ r ∈ tr, TitlesUnique Sample.hashing r.post := by
  obtain ⟨tr, cfg, run, h⟩ := Sample.hashed Sample.titled
    (fun tr cfg => decide ((∀ r ∈ tr, r.KeepsTitles) ∧ cfg.state.campaigns.campaignCount = 2))
    (by decide +kernel)
  obtain ⟨hkeeps, hcount⟩ := of_decide_eq_true h
  exact ⟨tr, cfg, run, hcount, (titles_unique_iff Sample.digest_injective run).mpr hkeeps⟩

/-- A creator renames a campaign to the title of another. -/
theorem titles_collide : ∃ tr cfg, Run (machine Sample.hashing) tr cfg ∧
    ¬ TitlesUnique Sample.hashing cfg.state := by
  obtain ⟨tr, cfg, run, h⟩ := Sample.hashed
    (Sample.titled ++ [Sample.ask 2 Sample.creator (.updateCampaign 1 [1] [0])])
    (fun _ cfg => decide (∃ one ∈ cfg.state.campaigns.campaign 1,
      ∃ two ∈ cfg.state.campaigns.campaign 2, one.creator = two.creator ∧ one.title = two.title))
    (by decide +kernel)
  obtain ⟨one, hone, two, htwo, hcreator, htitle⟩ := of_decide_eq_true h
  refine ⟨tr, cfg, run, fun unique => ?_⟩
  have hsame := unique.unique 1 2 one two hone htwo hcreator htitle
  cases hsame

end ProofOfHeart
