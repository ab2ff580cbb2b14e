import ProofOfHeart.Account.Failure
import ProofOfHeart.Laws.Listings
import ProofOfHeart.Tags

/-! # The index of the tags

Under every digest the index lists the campaigns in the order in which they got a tag
with this digest. As long as no other tag in use has the digest of a tag, paging through
the index therefore meets every campaign that carries the tag exactly once.
-/

namespace ProofOfHeart

open Checked Function Trace Buckets

variable {host : Host} {tr : List TagEvent} {cfg : TagConfig} {env : Env} {s : State}
  {t t' : TagStore} {c : Nat} {tag : Text} {d : Digest} {adds : List (Nat × Text)}

/-! ## The history of the tags -/

def TagEvent.receipt : TagEvent → Option Receipt
  | .called r => some r
  | .tagged .. => none

def TagEvent.addition : TagEvent → Option (Nat × Text)
  | .called _ => none
  | .tagged _ c tag => some (c, tag)

/-- The tags that were added, oldest first. -/
def additions (tr : List TagEvent) : List (Nat × Text) := tr.reverse.filterMap TagEvent.addition

theorem additions_called {r : Receipt} : additions (.called r :: tr) = additions tr := by
  simp [additions, TagEvent.addition]

theorem additions_tagged : additions (.tagged env c tag :: tr) = additions tr ++ [(c, tag)] := by
  simp [additions, TagEvent.addition]

/-- Without the tags a run is a run of the contract. -/
theorem run_calls (run : Run (tagMachine host) tr cfg) :
    Run (machine host) (tr.filterMap TagEvent.receipt) cfg.config := by
  refine run.invariant (I := fun tr cfg =>
    Run (machine host) (tr.filterMap TagEvent.receipt) cfg.config) ?_ ?_ ?_
  · rintro e cfg ⟨r, rfl, hstart, -⟩
    exact .start hstart
  · rintro tr cfg e cfg' - ih (⟨r, rfl, hstep, -⟩ | ⟨env, c, tag, rfl, -, -, hsame⟩)
    · exact .step ih hstep
    · rw [hsame]
      exact ih
  · rintro tr cfg cfg' ih ⟨hdrift, -⟩
    exact .drift ih hdrift

/-- The tags of one campaign, in order. -/
def tagsOf (adds : List (Nat × Text)) (c : Nat) : List Text :=
  (adds.filter fun add => add.1 = c).map Prod.snd

/-- The campaigns that got a tag with the digest, in order. -/
def listedUnder (host : Host) (adds : List (Nat × Text)) (d : Digest) : List Nat :=
  (adds.filter fun add => host.sha256 add.2 = d).map Prod.fst

theorem tagsOf_append {other : Nat} : tagsOf (adds ++ [(c, tag)]) other =
    if other = c then tagsOf adds c ++ [tag] else tagsOf adds other := by
  unfold tagsOf
  rw [List.filter_append, List.map_append]
  split
  next h => simp [h]
  next h => simp [Ne.symm h]

theorem listedUnder_append : listedUnder host (adds ++ [(c, tag)]) d =
    if d = host.sha256 tag then listedUnder host adds d ++ [c] else listedUnder host adds d := by
  unfold listedUnder
  rw [List.filter_append, List.map_append]
  split
  next h => simp [h]
  next h => simp [Ne.symm h]

theorem mem_tagsOf : tag ∈ tagsOf adds c ↔ (c, tag) ∈ adds := by
  simp [tagsOf]

theorem mem_listedUnder :
    c ∈ listedUnder host adds d ↔ ∃ tag, (c, tag) ∈ adds ∧ host.sha256 tag = d := by
  simp [listedUnder]

/-! ## One more tag -/

/-- What an added tag has passed, and the store it leaves. -/
structure Tagging (env : Env) (s : State) (t : TagStore) (c : Nat) (tag : Text) (t' : TagStore) :
    Prop where
  creator : ∃ record, s.campaigns.campaign c = some record ∧ env.auth record.creator = true ∧
    record.isActive = true ∧ record.isCancelled = false
  length : campaignTagMinLen ≤ tag.length ∧ tag.length ≤ campaignTagMaxLen
  room : (t.campaignTags c).length < maxTagsPerCampaign
  new : tag ∉ t.campaignTags c
  counted : t.tagCampaignCount (env.host.sha256 tag) + 1 < 2 ^ 32
  tags : t'.campaignTags = update t.campaignTags c (t.campaignTags c ++ [tag])
  count : t'.tagCampaignCount = update t.tagCampaignCount (env.host.sha256 tag)
    (t.tagCampaignCount (env.host.sha256 tag) + 1)
  bucket : t'.tagCampaignsBucket = update t.tagCampaignsBucket (env.host.sha256 tag)
    (update (t.tagCampaignsBucket (env.host.sha256 tag))
      (t.tagCampaignCount (env.host.sha256 tag) / tagCampaignsBucketSize)
      (t.tagCampaignsBucket (env.host.sha256 tag)
        (t.tagCampaignCount (env.host.sha256 tag) / tagCampaignsBucketSize) ++ [c]))

theorem addCampaignTag_spec (h : addCampaignTag env s t c tag = .ok t') :
    Tagging env s t c tag t' := by
  simp only [addCampaignTag, appendCampaignToTag, hashText, getCreatorCampaign, assertCreator,
    getCampaignOrError, requireActiveCampaign, bind_eq_ok, rejectIf_eq_ok, okOr_eq_ok, pure_eq_ok,
    requireAuth_eq_ok, Word.checkedAdd_eq_some] at h
  obtain ⟨record, ⟨_, hrecord, _, hsigned, rfl⟩, _, -, _, hactive, _, hlength, _, hroom, _, hnew,
    _, ⟨_, -, rfl⟩, _, ⟨_, ⟨rfl, hcounted⟩, rfl⟩, rfl⟩ := h
  refine ⟨⟨_, hrecord, hsigned, ?_, ?_⟩, by omega, Nat.lt_of_not_le hroom, hnew, hcounted, rfl,
    rfl, rfl⟩
  · simpa using (not_or.mp hactive).2
  · simpa using (not_or.mp hactive).1

/-- The store holds exactly the tags that were added. -/
structure TagIndexed (host : Host) (adds : List (Nat × Text)) (t : TagStore) : Prop where
  tags : ∀ c, t.campaignTags c = tagsOf adds c
  count : ∀ d, t.tagCampaignCount d = (listedUnder host adds d).length
  small : ∀ d, (listedUnder host adds d).length < 2 ^ 32
  chunks : ∀ d, Chunks tagCampaignsBucketSize (t.tagCampaignsBucket d) (listedUnder host adds d)
  nodup : adds.Nodup
  room : ∀ c, (tagsOf adds c).length ≤ maxTagsPerCampaign
  length : ∀ add ∈ adds, campaignTagMinLen ≤ add.2.length ∧ add.2.length ≤ campaignTagMaxLen

theorem indexed_empty : TagIndexed host [] emptyTags where
  tags _ := rfl
  count _ := rfl
  small _ := Nat.two_pow_pos 32
  chunks _ := Chunks.nil
  nodup := List.nodup_nil
  room _ := Nat.zero_le _
  length _ hadd := nomatch hadd

theorem TagIndexed.add (indexed : TagIndexed host adds t) (hhost : env.host = host)
    (tagging : Tagging env s t c tag t') : TagIndexed host (adds ++ [(c, tag)]) t' := by
  subst hhost
  constructor
  case tags =>
    intro other
    rw [tagging.tags, tagsOf_append]
    by_cases hother : other = c
    · subst hother
      rw [update_self, if_pos rfl, indexed.tags]
    · rw [update_of_ne hother, if_neg hother, indexed.tags]
  case count =>
    intro d
    rw [tagging.count, listedUnder_append]
    by_cases hd : d = env.host.sha256 tag
    · subst hd
      rw [update_self, if_pos rfl, indexed.count, List.length_append, List.length_singleton]
    · rw [update_of_ne hd, if_neg hd, indexed.count]
  case small =>
    intro d
    rw [listedUnder_append]
    split
    next hd =>
        have hcounted := tagging.counted
        rw [indexed.count] at hcounted
        rwa [hd, List.length_append, List.length_singleton]
    next => exact indexed.small d
  case chunks =>
    intro d
    rw [tagging.bucket, listedUnder_append]
    by_cases hd : d = env.host.sha256 tag
    · subst hd
      rw [update_self, if_pos rfl, indexed.count]
      exact (indexed.chunks _).append (by decide) c
    · rw [update_of_ne hd, if_neg hd]
      exact indexed.chunks d
  case nodup =>
    refine List.nodup_append.mpr ⟨indexed.nodup, List.nodup_singleton _, ?_⟩
    rintro add hadd other hother rfl
    rw [List.mem_singleton.mp hother, ← mem_tagsOf, ← indexed.tags] at hadd
    exact tagging.new hadd
  case room =>
    intro other
    rw [tagsOf_append]
    split
    next =>
        have hroom := tagging.room
        rw [indexed.tags] at hroom
        rwa [List.length_append, List.length_singleton]
    next => exact indexed.room other
  case length =>
    intro add hadd
    rcases List.mem_append.mp hadd with hadd | hadd
    · exact indexed.length add hadd
    · rw [List.mem_singleton.mp hadd]
      exact tagging.length

theorem run_indexed (run : Run (tagMachine host) tr cfg) :
    TagIndexed host (additions tr) cfg.tags := by
  refine run.invariant (I := fun tr cfg => TagIndexed host (additions tr) cfg.tags) ?_ ?_ ?_
  · rintro e cfg ⟨r, rfl, -, hempty⟩
    rw [additions_called, hempty]
    exact indexed_empty
  · rintro tr cfg e cfg' - indexed (⟨r, rfl, -, hsame⟩ | ⟨env, c, tag, rfl, hhost, hadd, -⟩)
    · rw [additions_called, hsame]
      exact indexed
    · rw [additions_tagged]
      exact indexed.add hhost (addCampaignTag_spec hadd)
  · rintro tr cfg cfg' indexed ⟨-, hsame⟩
    rw [hsame]
    exact indexed

/-- A campaign carries few tags of moderate length, and none of them twice. -/
theorem run_tags (run : Run (tagMachine host) tr cfg) (c : Nat) :
    (cfg.tags.campaignTags c).Nodup ∧ (cfg.tags.campaignTags c).length ≤ maxTagsPerCampaign ∧
      ∀ tag ∈ cfg.tags.campaignTags c,
        campaignTagMinLen ≤ tag.length ∧ tag.length ≤ campaignTagMaxLen := by
  have indexed := run_indexed run
  rw [indexed.tags]
  refine ⟨(indexed.nodup.filter _).map_on fun add hadd other hother heq => ?_, indexed.room c,
    fun tag htag => indexed.length (c, tag) (mem_tagsOf.mp htag)⟩
  have hsame : ∀ x ∈ (additions tr).filter fun add => add.1 = c, x.1 = c :=
    fun x hx => of_decide_eq_true (List.mem_filter.mp hx).2
  exact Prod.ext ((hsame add hadd).trans (hsame other hother).symm) heq

/-- A stored campaign stays stored. -/
theorem Receipt.Valid.stored {r : Receipt} (h : r.Valid host) (sane : (view r.pre).Sane)
    (hstored : ∃ a, (view r.pre).account c = some a) : ∃ a, (view r.post).account c = some a := by
  obtain ⟨a, ha⟩ := hstored
  obtain ⟨delta, -, hexisting⟩ := (h.stepped sane).existing
  obtain ⟨a', ha', -⟩ := hexisting c a ha
  exact ⟨a', ha'⟩

theorem run_taggedStored (run : Run (tagMachine host) tr cfg) :
    ∀ add ∈ additions tr, ∃ a, (view cfg.config.state).account add.1 = some a := by
  refine run.invariant (I := fun tr cfg =>
    ∀ add ∈ additions tr, ∃ a, (view cfg.config.state).account add.1 = some a) ?_ ?_ ?_
  · rintro e cfg ⟨r, rfl, -, -⟩ add hadd
    cases hadd
  · rintro tr cfg e cfg' run ih (⟨r, rfl, ⟨hvalid, -, hpre, hpost⟩, -⟩ |
      ⟨env, c, tag, rfl, -, hadd, hsame⟩) add hmem
    · rw [additions_called] at hmem
      have sane := run_sane (run_calls run)
      have hstored := ih add hmem
      rw [← hpre] at sane hstored
      rw [hpost]
      exact hvalid.stored sane hstored
    · rw [hsame]
      rw [additions_tagged] at hmem
      rcases List.mem_append.mp hmem with hmem | hmem
      · exact ih add hmem
      · obtain ⟨record, hrecord, -⟩ := (addCampaignTag_spec hadd).creator
        rw [List.mem_singleton.mp hmem]
        exact ⟨_, View.account_of_campaign hrecord⟩
  · rintro tr cfg cfg' ih ⟨⟨tokens, -, hdrift⟩, -⟩
    rw [hdrift]
    exact ih

/-! ## The law -/

/-- The call returns the page, whatever further turns the loop is allowed. -/
def ReturnsTagPage (env : Env) (s : State) (t : TagStore) (tag : Text) (offset limit : Nat)
    (page : List Campaign) : Prop :=
  ∃ turns, ∀ fuel ≥ turns, getCampaignsByTag env s t tag offset limit fuel = .ok (some page)

theorem TagIndexed.returnsPage (indexed : TagIndexed host adds t) (hhost : env.host = host)
    (hmin : campaignTagMinLen ≤ tag.length) (hmax : tag.length ≤ campaignTagMaxLen)
    (offset limit : Nat) : ReturnsTagPage env s t tag offset limit (storedCampaigns s
      (((listedUnder host adds (host.sha256 tag)).drop offset).take (min limit listMaxLimit))) := by
  subst hhost
  have hhash : hashText env tag = .ok (env.host.sha256 tag) := by
    have htitle : campaignTagMaxLen ≤ campaignTitleMaxLen := by decide
    rw [hashText, rejectIf, if_neg (by omega)]
    rfl
  refine ⟨min limit listMaxLimit, fun fuel hfuel => ?_⟩
  rw [getCampaignsByTag, if_neg (by omega), hhash]
  refine congrArg Except.ok ?_
  rw [indexed.count]
  exact getCampaignsFromBuckets_page (indexed.chunks _) (by decide)
    (indexed.small (env.host.sha256 tag)) hfuel

/-- No other tag of a campaign has the digest of this one. -/
def DigestUnique (host : Host) (t : TagStore) (tag : Text) : Prop :=
  ∀ c, ∀ other ∈ t.campaignTags c, host.sha256 other = host.sha256 tag → other = tag

theorem TagIndexed.mem_iff (indexed : TagIndexed host adds t) (unique : DigestUnique host t tag) :
    c ∈ listedUnder host adds (host.sha256 tag) ↔ tag ∈ t.campaignTags c := by
  rw [mem_listedUnder, indexed.tags, mem_tagsOf]
  constructor
  · rintro ⟨other, hadd, hdigest⟩
    have hother : other ∈ t.campaignTags c := by rwa [indexed.tags, mem_tagsOf]
    rwa [← unique c other hother hdigest]
  · exact fun hadd => ⟨tag, hadd, rfl⟩

theorem TagIndexed.nodup_listed (indexed : TagIndexed host adds t)
    (unique : DigestUnique host t tag) : (listedUnder host adds (host.sha256 tag)).Nodup := by
  refine (indexed.nodup.filter _).map_on fun add hadd other hother heq => ?_
  have htag : ∀ x ∈ adds.filter fun add => host.sha256 add.2 = host.sha256 tag, x.2 = tag := by
    intro x hx
    obtain ⟨hmem, hdigest⟩ := List.mem_filter.mp hx
    exact unique x.1 x.2 (by rwa [indexed.tags, mem_tagsOf]) (of_decide_eq_true hdigest)
  exact Prod.ext heq ((htag add hadd).trans (htag other hother).symm)

theorem run_taggedRecords (run : Run (tagMachine host) tr cfg) (d : Digest) :
    AllStored cfg.config.state (listedUnder host (additions tr) d) := by
  intro c hc
  obtain ⟨tag, hadd, -⟩ := mem_listedUnder.mp hc
  obtain ⟨a, ha⟩ := run_taggedStored run (c, tag) hadd
  exact ⟨a.record, (View.account_eq_some.mp ha).1, run_recordId (run_calls run) ha⟩

/-- The pages of a tag are the segments of one list, which holds each campaign that
carries the tag exactly once. -/
theorem tagListing_paged (run : Run (tagMachine host) tr cfg) (hhost : env.host = host)
    (hmin : campaignTagMinLen ≤ tag.length) (hmax : tag.length ≤ campaignTagMaxLen)
    (unique : DigestUnique host cfg.tags tag) :
    ∃ campaigns : List Campaign, campaigns.Nodup ∧
      (∀ record, record ∈ campaigns ↔ ∃ c,
        cfg.config.state.campaigns.campaign c = some record ∧ tag ∈ cfg.tags.campaignTags c) ∧
      (∀ offset limit, ReturnsTagPage env cfg.config.state cfg.tags tag offset limit
        ((campaigns.drop offset).take (min limit listMaxLimit))) ∧
      ∀ limit, 1 ≤ limit → limit ≤ listMaxLimit → ∃ pages : Nat → List Campaign,
        (∀ n, ReturnsTagPage env cfg.config.state cfg.tags tag (n * limit) limit (pages n)) ∧
        (List.range (pageCount campaigns.length limit)).flatMap pages = campaigns := by
  have indexed := run_indexed run
  have hstored := run_taggedRecords run (host.sha256 tag)
  have hreturns : ∀ offset limit, ReturnsTagPage env cfg.config.state cfg.tags tag offset limit
      (((storedCampaigns cfg.config.state (listedUnder host (additions tr)
        (host.sha256 tag))).drop offset).take (min limit listMaxLimit)) := fun offset limit => by
    rw [← hstored.segment]
    exact indexed.returnsPage hhost hmin hmax offset limit
  refine ⟨_, ?_, fun record => ?_, hreturns, fun limit hpos hle => ⟨_, fun n =>
    hreturns (n * limit) limit, ?_⟩⟩
  · refine List.Nodup.of_map Campaign.id ?_
    rw [hstored.map_id]
    exact indexed.nodup_listed unique
  · rw [storedCampaigns, List.mem_filterMap]
    constructor
    · rintro ⟨c, hc, hrecord⟩
      exact ⟨c, hrecord, (indexed.mem_iff unique).mp hc⟩
    · rintro ⟨c, hrecord, htag⟩
      exact ⟨c, (indexed.mem_iff unique).mpr htag, hrecord⟩
  · rw [Nat.min_eq_left hle]
    exact flatMap_pages_all _ hpos

theorem run_untagged {tr : List Receipt} {config : Config} (run : Run (machine host) tr config) :
    Run (tagMachine host) (tr.map .called) ⟨config, emptyTags⟩ := by
  refine run.invariant (I := fun tr config =>
    Run (tagMachine host) (tr.map .called) ⟨config, emptyTags⟩) ?_ ?_ ?_
  · exact fun r config hstart => .start ⟨r, rfl, hstart, rfl⟩
  · exact fun tr config r config' _ ih hstep => .step ih (.inl ⟨r, rfl, hstep, rfl⟩)
  · exact fun tr config config' ih hdrift => .drift ih ⟨hdrift, rfl⟩

theorem tagListing_sample :
    ∃ tr cfg, Run (tagMachine Sample.host) tr cfg ∧
      ∃ (campaigns : List Campaign) (record : Campaign), record ∈ campaigns ∧
        cfg.config.state.campaigns.campaign 1 = some record ∧
        ReturnsTagPage (Sample.env 2 Sample.alice) cfg.config.state cfg.tags [7] 0 50
          (campaigns.take 50) := by
  have h : Sample.Ends 300 (Sample.opened 0) fun _ cfg =>
      (cfg.state.campaigns.campaign 1).isSome ∧
        ∃ t ∈ (addCampaignTag (Sample.env 1 Sample.creator) cfg.state emptyTags 1 [7]).toOption,
          [7] ∈ t.campaignTags 1 := by
    decide +kernel
  obtain ⟨tr, config, run, hrecord, t, ht, htag⟩ := h.run
  obtain ⟨record, hrecord⟩ := Option.isSome_iff_exists.mp hrecord
  have hadd : addCampaignTag (Sample.env 1 Sample.creator) config.state emptyTags 1 [7] = .ok t :=
    by
      cases hresult : addCampaignTag (Sample.env 1 Sample.creator) config.state emptyTags 1 [7] with
      | ok t' => rw [hresult] at ht; exact congrArg _ (Option.some.inj ht)
      | error e => rw [hresult] at ht; cases ht
  have tagged : Run (tagMachine Sample.host)
      (.tagged (Sample.env 1 Sample.creator) 1 [7] :: tr.map .called) ⟨config, t⟩ :=
    .step (run_untagged run) (.inr ⟨_, _, _, rfl, rfl, hadd, rfl⟩)
  have hhost : (Sample.env 2 Sample.alice).host = Sample.host := rfl
  have hmin : campaignTagMinLen ≤ ([7] : Text).length := by decide
  have hmax : ([7] : Text).length ≤ campaignTagMaxLen := by decide
  obtain ⟨campaigns, -, hmem, hpages, -⟩ :=
    tagListing_paged tagged hhost hmin hmax fun _ _ _ hdigest => hdigest
  exact ⟨_, _, tagged, campaigns, record, (hmem record).mpr ⟨1, hrecord, htag⟩, hrecord,
    hpages 0 50⟩

end ProofOfHeart
