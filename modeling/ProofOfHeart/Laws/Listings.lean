import ProofOfHeart.Account.Terms
import ProofOfHeart.Account.Turn
import ProofOfHeart.Board.Posting
import ProofOfHeart.Laws.CreatorPaging

/-! # Listing the campaigns

The buckets of a category hold its campaigns in the order of their creation, since a
category is never changed. A caller who lists all campaigns page by page takes a page
shorter than the limit for the last one, and no page is longer than fifty.
-/

namespace ProofOfHeart

open Checked Function Table Trace Buckets

variable {host : Host} {tr : List Receipt} {cfg : Config} {s s' : State} {r : Receipt}
  {call : Call} {c : Nat} {category : Category}

/-! ## Lists of stored campaigns -/

/-- Every number of the list is that of a campaign, which bears it. -/
def AllStored (s : State) (ids : List Nat) : Prop :=
  ∀ c ∈ ids, ∃ record, s.campaigns.campaign c = some record ∧ record.id = c

section Stored

variable {ids : List Nat}

theorem AllStored.map_id (h : AllStored s ids) : (storedCampaigns s ids).map Campaign.id = ids := by
  have hsame : ∀ c ∈ ids, (s.campaigns.campaign c).map Campaign.id = some c := fun c hc => by
    obtain ⟨record, hrecord, hid⟩ := h c hc
    rw [hrecord, Option.map_some, hid]
  rw [storedCampaigns, List.map_filterMap, List.filterMap_congr hsame, List.filterMap_some]

theorem AllStored.records (h : AllStored s ids) :
    (storedCampaigns s ids).map some = ids.map s.campaigns.campaign := by
  induction ids with
  | nil => rfl
  | cons c rest ih =>
      obtain ⟨record, hrecord, -⟩ := h c List.mem_cons_self
      have hrest := ih fun c hc => h c (List.mem_cons_of_mem _ hc)
      rw [storedCampaigns, List.filterMap_cons_some hrecord, List.map_cons, List.map_cons, hrecord]
      exact congrArg (some record :: ·) hrest

theorem AllStored.sublist {some : List Nat} (h : AllStored s ids) (hsub : some.Sublist ids) :
    AllStored s some := fun c hc => h c (hsub.subset hc)

theorem AllStored.segment (h : AllStored s ids) (offset n : Nat) :
    storedCampaigns s ((ids.drop offset).take n) =
      ((storedCampaigns s ids).drop offset).take n := by
  have hpart : AllStored s ((ids.drop offset).take n) :=
    h.sublist ((List.take_sublist ..).trans (List.drop_sublist ..))
  apply List.map_injective_iff.mpr (Option.some_injective Campaign)
  rw [hpart.records, List.map_take, List.map_drop, List.map_take, List.map_drop, h.records]

/-- In every state of a run the numbers up to the count are stored. -/
theorem run_allStored (run : Run (machine host) tr cfg) :
    AllStored cfg.state (List.range' 1 cfg.state.campaigns.campaignCount) := by
  intro c hc
  have hid := List.mem_range'_1.mp hc
  obtain ⟨a, ha⟩ := ((run_sane run).exists_iff c).mpr ⟨hid.1, by rw [← campaignCount_view]; omega⟩
  exact ⟨a.record, (View.account_eq_some.mp ha).1, run_recordId run ha⟩

end Stored

/-! ## The campaigns of a category -/

def inCategory (s : State) (category : Category) (c : Nat) : Bool :=
  (s.campaigns.campaign c).any fun record => record.category = category

/-- The campaigns of a category in the order of their creation. -/
def categoryIds (s : State) (category : Category) : List Nat :=
  (List.range' 1 s.campaigns.campaignCount).filter (inCategory s category)

/-- Counts and buckets of the categories are those of the lists. -/
def Filed (s : State) : Prop :=
  ∀ category, s.campaigns.categoryCampaignCount category = (categoryIds s category).length ∧
    Chunks categoryCampaignsBucketSize (s.campaigns.categoryCampaignsBucket category)
      (categoryIds s category)

/-- What a call does to the category index. -/
theorem Posting.filing {env : Env} (h : Posting env s s' call) :
    ((board s').categoryBucket = (board s).categoryBucket ∧
      (board s').categoryCount = (board s).categoryCount ∧ call.creates = none) ∨
    ∃ params, (call = .createCampaign params ∨
        ∃ token, call = .createCampaignWithToken params token) ∧
      (board s').categoryBucket = put (board s).categoryBucket params.category
        ((board s).categoryCount params.category / categoryCampaignsBucketSize)
        ((board s).categoryBucket params.category
          ((board s).categoryCount params.category / categoryCampaignsBucketSize) ++
            [s.campaigns.campaignCount + 1]) ∧
      (board s').categoryCount = update (board s).categoryCount params.category
        ((board s).categoryCount params.category + 1) := by
  cases h with
  | create hcall fresh h => exact .inr ⟨_, hcall, by rw [h], by rw [h]⟩
  | cancel hcall _ _ h =>
      refine .inl ⟨by rw [h], by rw [h], ?_⟩
      rcases hcall with rfl | ⟨_, _, rfl⟩ <;> rfl
  | describe _ h =>
      refine .inl ?_
      rw [h]
      split <;> exact ⟨rfl, rfl, rfl⟩
  | votingRules hcall h | entries hcall h | kept hcall h =>
      refine .inl ⟨by rw [h], by rw [h], ?_⟩
      cases call <;> first | rfl | cases hcall
  | handOver _ _ h | contribute _ h | batch h | refund h | verify h | certify _ _ _ h
  | verifyBatch h | vote _ _ _ _ _ h | purge _ _ h => exact .inl ⟨by rw [h], by rw [h], rfl⟩

theorem Receipt.Valid.inCategory_kept (h : r.Valid host) (sane : (view r.pre).Sane)
    (hc : c ∈ List.range' 1 r.pre.campaigns.campaignCount) :
    inCategory r.post category c = inCategory r.pre category c := by
  have hid := List.mem_range'_1.mp hc
  obtain ⟨a, ha⟩ := (sane.exists_iff c).mpr ⟨hid.1, by rw [← campaignCount_view]; omega⟩
  obtain ⟨a', ha', hterms⟩ := h.terms sane ha
  have hcategory : a'.record.category = a.record.category := congrArg Terms.category hterms
  unfold inCategory
  rw [campaign_view, campaign_view, (View.account_eq_some.mp ha).1,
    (View.account_eq_some.mp ha').1, Option.any_some, Option.any_some, hcategory]

/-- The list keeps its entries, and the next campaign is the only one it can get. -/
theorem Receipt.Valid.categoryIds_succ (h : r.Valid host) (sane : (view r.pre).Sane)
    (hcount : r.post.campaigns.campaignCount = r.pre.campaigns.campaignCount + 1) :
    categoryIds r.post category = categoryIds r.pre category ++
      if inCategory r.post category (r.pre.campaigns.campaignCount + 1) then
        [r.pre.campaigns.campaignCount + 1] else [] := by
  rw [categoryIds, hcount, List.range'_1_concat, List.filter_append, Nat.add_comm 1,
    List.filter_congr fun c hc => h.inCategory_kept sane hc, List.filter_singleton,
    Bool.cond_eq_ite]
  rfl

theorem Receipt.Valid.categoryIds_kept (h : r.Valid host) (sane : (view r.pre).Sane)
    (hcreates : r.call.creates = none) :
    categoryIds r.post category = categoryIds r.pre category := by
  have hcount : r.post.campaigns.campaignCount = r.pre.campaigns.campaignCount := by
    rcases (h.stepped sane).count with hcount | ⟨-, a, ha⟩
    · exact hcount
    · obtain ⟨-, params, deadline, hcall, -⟩ :=
        h.created sane sane.next_campaign (View.account_eq_some.mp ha).1
      rcases hcall with hcall | ⟨token, hcall⟩
      all_goals
        rw [hcall] at hcreates
        cases hcreates
  rw [categoryIds, hcount]
  exact List.filter_congr fun c hc => h.inCategory_kept sane hc

theorem Receipt.Valid.inCategory_next (h : r.Valid host) {params : CreateCampaignParams}
    (hcall : r.call = .createCampaign params ∨
      ∃ token, r.call = .createCampaignWithToken params token) :
    inCategory r.post category (r.pre.campaigns.campaignCount + 1) =
      decide (params.category = category) := by
  obtain ⟨-, deadline, hrecord⟩ := h.creation hcall
  rw [inCategory, hrecord, Option.any_some]
  rfl

theorem Receipt.Valid.filed (h : r.Valid host) (sane : (view r.pre).Sane)
    (filed : Filed r.pre) : Filed r.post := by
  intro category
  obtain ⟨hcount, hchunks⟩ := filed category
  rcases (h.posting sane.toConfigured).filing with ⟨hbucket, htotal, hcreates⟩ |
    ⟨params, hcall, hbucket, htotal⟩
  · rw [h.categoryIds_kept sane hcreates]
    have hsame : r.post.campaigns.categoryCampaignsBucket category =
        r.pre.campaigns.categoryCampaignsBucket category := congrFun hbucket category
    rw [hsame]
    exact ⟨(congrFun htotal category).trans hcount, hchunks⟩
  · have hnext := h.creation hcall
    have htotal : r.post.campaigns.categoryCampaignCount = update
      r.pre.campaigns.categoryCampaignCount params.category
        (r.pre.campaigns.categoryCampaignCount params.category + 1) := htotal
    have hbucket : r.post.campaigns.categoryCampaignsBucket = put
      r.pre.campaigns.categoryCampaignsBucket params.category
        (r.pre.campaigns.categoryCampaignCount params.category / categoryCampaignsBucketSize)
        (r.pre.campaigns.categoryCampaignsBucket params.category
          (r.pre.campaigns.categoryCampaignCount params.category / categoryCampaignsBucketSize) ++
            [r.pre.campaigns.campaignCount + 1]) := hbucket
    rw [h.categoryIds_succ sane hnext.1, h.inCategory_next hcall, htotal, hbucket]
    by_cases hcategory : params.category = category
    · subst hcategory
      rw [decide_eq_true rfl, if_pos rfl, update_self, hcount, List.length_append]
      refine ⟨rfl, ?_⟩
      rw [put_row_self]
      exact hchunks.append (by decide) _
    · rw [decide_eq_false hcategory, if_neg Bool.false_ne_true, List.append_nil,
        update_of_ne (Ne.symm hcategory)]
      refine ⟨hcount, ?_⟩
      rw [put_row_of_ne (Ne.symm hcategory)]
      exact hchunks

theorem run_filed (run : Run (machine host) tr cfg) : Filed cfg.state := by
  refine run.invariant (I := fun _ cfg => Filed cfg.state) ?_ ?_ ?_
  · intro r cfg hstart category
    have hboard := start_board hstart
    have hcount : cfg.state.campaigns.campaignCount = 0 := (start_fresh hstart).campaignCount
    have htotal : cfg.state.campaigns.categoryCampaignCount = _ :=
      congrArg Board.categoryCount hboard
    have hbucket : cfg.state.campaigns.categoryCampaignsBucket = _ :=
      congrArg Board.categoryBucket hboard
    rw [htotal, hbucket, categoryIds, hcount]
    exact ⟨rfl, Chunks.nil⟩
  · rintro tr cfg r cfg' run filed ⟨hvalid, -, hpre, rfl⟩
    have sane := run_sane run
    rw [← hpre] at sane filed
    exact hvalid.filed sane filed
  · rintro tr cfg cfg' filed ⟨tokens, -, rfl⟩
    exact filed

/-- The campaign of the category that a call creates, if it does. -/
def Receipt.creation (category : Category) (r : Receipt) : Option Nat :=
  match r.call with
  | .createCampaign params | .createCampaignWithToken params _ =>
      if params.category = category then some (r.pre.campaigns.campaignCount + 1) else none
  | _ => none

/-- The campaigns of the category in the order in which the run has created them. -/
def creations (category : Category) (tr : List Receipt) : List Nat :=
  tr.reverse.filterMap (Receipt.creation category)

theorem creations_cons : creations category (r :: tr) =
    creations category tr ++ (r.creation category).toList := by
  rw [creations, List.reverse_cons, List.filterMap_append, List.filterMap_cons,
    List.filterMap_nil]
  cases r.creation category <;> rfl

/-- The numbers come in the order of the creations. -/
theorem run_creations (run : Run (machine host) tr cfg) :
    categoryIds cfg.state category = creations category tr := by
  refine run.invariant (I := fun tr cfg => categoryIds cfg.state category = creations category tr)
    ?_ ?_ ?_
  · intro r cfg hstart
    have hcount : cfg.state.campaigns.campaignCount = 0 := (start_fresh hstart).campaignCount
    obtain ⟨-, -, ⟨admin, token, platformFee, hcall⟩, -⟩ := hstart
    rw [categoryIds, hcount, creations_cons, Receipt.creation, hcall]
    rfl
  · rintro tr cfg r cfg' run ih ⟨hvalid, -, hpre, rfl⟩
    have sane := run_sane run
    rw [← hpre] at sane ih
    rw [creations_cons, ← ih]
    cases hcreates : r.call.creates with
    | none =>
        have hquiet : r.creation category = none := by
          unfold Receipt.creation
          generalize r.call = call at hcreates
          cases call with
          | createCampaign | createCampaignWithToken => cases hcreates
          | _ => rfl
        rw [hvalid.categoryIds_kept sane hcreates, hquiet, Option.toList_none, List.append_nil]
    | some creator =>
        obtain ⟨params, hcall, hcreation⟩ : ∃ params, (r.call = .createCampaign params ∨
            ∃ token, r.call = .createCampaignWithToken params token) ∧
            r.creation category = if params.category = category then
              some (r.pre.campaigns.campaignCount + 1) else none := by
          unfold Receipt.creation
          generalize r.call = call at hcreates
          cases call with
          | createCampaign params => exact ⟨params, .inl rfl, rfl⟩
          | createCampaignWithToken params token => exact ⟨params, .inr ⟨token, rfl⟩, rfl⟩
          | _ => cases hcreates
        have hnext := hvalid.creation hcall
        rw [hvalid.categoryIds_succ sane hnext.1, hvalid.inCategory_next hcall, hcreation]
        by_cases hcategory : params.category = category
        · simp [hcategory]
        · simp [hcategory]
  · rintro tr cfg cfg' ih ⟨tokens, -, rfl⟩
    exact ih

/-! ## The law of a category -/

/-- The call returns the page, whatever further turns the loop is allowed. -/
def ReturnsCategoryPage (s : State) (category : Category) (offset limit : Nat)
    (page : List Campaign) : Prop :=
  ∃ turns, ∀ fuel ≥ turns, getCampaignsByCategory s category offset limit fuel = some page

theorem Filed.returnsPage (filed : Filed s) (hcount : s.campaigns.campaignCount < 2 ^ 32)
    (offset limit : Nat) : ReturnsCategoryPage s category offset limit (storedCampaigns s
      (((categoryIds s category).drop offset).take (min limit listMaxLimit))) := by
  obtain ⟨htotal, hchunks⟩ := filed category
  have hlength : (categoryIds s category).length < 2 ^ 32 := by
    refine Nat.lt_of_le_of_lt (List.length_filter_le ..) ?_
    rwa [List.length_range']
  refine ⟨min limit listMaxLimit, fun fuel hfuel => ?_⟩
  rw [getCampaignsByCategory, htotal]
  exact getCampaignsFromBuckets_page hchunks (by decide) hlength hfuel

/-- Every page is a segment of the list of all campaigns of the category in the order of
their creation, and pages of one size make up the list. -/
theorem categoryListing_paged (run : Run (machine host) tr cfg) (category : Category) :
    ∃ campaigns : List Campaign,
      campaigns.map Campaign.id = creations category tr ∧
      (∀ record, record ∈ campaigns ↔
        (∃ c, cfg.state.campaigns.campaign c = some record) ∧ record.category = category) ∧
      (∀ offset limit, ReturnsCategoryPage cfg.state category offset limit
        ((campaigns.drop offset).take (min limit listMaxLimit))) ∧
      ∀ limit, 1 ≤ limit → limit ≤ listMaxLimit → ∃ pages : Nat → List Campaign,
        (∀ n, ReturnsCategoryPage cfg.state category (n * limit) limit (pages n)) ∧
        (List.range (pageCount campaigns.length limit)).flatMap pages = campaigns := by
  have hstored : AllStored cfg.state (categoryIds cfg.state category) :=
    (run_allStored run).sublist List.filter_sublist
  have hreturns : ∀ offset limit, ReturnsCategoryPage cfg.state category offset limit
      (((storedCampaigns cfg.state (categoryIds cfg.state category)).drop offset).take
        (min limit listMaxLimit)) := fun offset limit => by
    rw [← hstored.segment]
    exact (run_filed run).returnsPage (run_count_lt run) offset limit
  refine ⟨storedCampaigns cfg.state (categoryIds cfg.state category),
    hstored.map_id.trans (run_creations run), fun record => ?_, hreturns,
    fun limit hpos hmax => ?_⟩
  · rw [storedCampaigns, List.mem_filterMap]
    constructor
    · rintro ⟨c, hc, hrecord⟩
      have hin := (List.mem_filter.mp hc).2
      rw [inCategory, hrecord, Option.any_some, decide_eq_true_eq] at hin
      exact ⟨⟨c, hrecord⟩, hin⟩
    · rintro ⟨⟨c, hrecord⟩, hcategory⟩
      have hin : inCategory cfg.state category c = true := by
        rw [inCategory, hrecord, Option.any_some, hcategory, decide_eq_true rfl]
      have hid := ((run_sane run).exists_iff c).mp ⟨_, View.account_of_campaign hrecord⟩
      rw [← campaignCount_view] at hid
      exact ⟨c, List.mem_filter.mpr ⟨List.mem_range'_1.mpr (by omega), hin⟩, hrecord⟩
  · refine ⟨_, fun n => hreturns (n * limit) limit, ?_⟩
    rw [Nat.min_eq_left hmax]
    exact flatMap_pages_all _ hpos

theorem categoryListing_sample : ∃ tr cfg, Run (machine Sample.host) tr cfg ∧
    ∃ campaigns : List Campaign, campaigns.map Campaign.id = [1, 2] ∧
      ReturnsCategoryPage cfg.state .educationalStartup 1 50 (campaigns.drop 1) := by
  have h : Sample.Ends 300 Sample.handedOn fun tr _ =>
      creations .educationalStartup tr = [1, 2] := by decide +kernel
  obtain ⟨tr, cfg, run, hcreated⟩ := h.run
  obtain ⟨campaigns, hids, -, hreturns, -⟩ := categoryListing_paged run .educationalStartup
  rw [hcreated] at hids
  have hlength : campaigns.length = 2 := by rw [← List.length_map (f := Campaign.id), hids]; rfl
  have hpage := hreturns 1 50
  rw [List.take_of_length_le (by rw [List.length_drop, hlength]; decide)] at hpage
  exact ⟨tr, cfg, run, campaigns, hids, hpage⟩

/-! ## The loop over all campaigns -/

section Loop

variable {limit : Nat}

theorem listCampaigns_eq (hcount : s.campaigns.campaignCount < 2 ^ 32) (start : Nat) :
    listCampaigns s start limit = storedCampaigns s (List.range' (start + 1)
      (min (min limit listMaxLimit) (s.campaigns.campaignCount - start))) := by
  dsimp only [listCampaigns]
  split
  next hnone =>
      have hzero : min (min limit listMaxLimit) (s.campaigns.campaignCount - start) = 0 := by omega
      rw [hzero]
      rfl
  next hmore =>
      have hlength : min (Word.saturatingAdd 32 start (min limit listMaxLimit))
          s.campaigns.campaignCount - start =
            min (min limit listMaxLimit) (s.campaigns.campaignCount - start) := by
        unfold Word.saturatingAdd
        omega
      rw [hlength]

/-- A page of `k` campaigns after `start`, as the caller sees it. -/
theorem AllStored.page (stored : AllStored s (List.range' 1 s.campaigns.campaignCount))
    (start k : Nat) (hk : start + k ≤ s.campaigns.campaignCount) :
    (storedCampaigns s (List.range' (start + 1) k)).length = k ∧
      (storedCampaigns s (List.range' (start + 1) k)).getLast?.map Campaign.id =
        if k = 0 then none else some (start + k) := by
  have hpart : AllStored s (List.range' (start + 1) k) := fun c hc =>
    stored c (List.mem_range'_1.mpr (by have := List.mem_range'_1.mp hc; omega))
  constructor
  · rw [← List.length_map (f := Campaign.id), hpart.map_id, List.length_range']
  · rw [← List.getLast?_map, hpart.map_id, List.getLast?_range']
    have hlast : start + 1 + k - 1 = start + k := by omega
    rw [hlast]

/-- From `start` on the loop collects the rest, as long as no page is cut short. -/
theorem listLoop_rest (stored : AllStored s (List.range' 1 s.campaigns.campaignCount))
    (hcount : s.campaigns.campaignCount < 2 ^ 32) (hpos : 1 ≤ limit)
    (hmax : limit ≤ listMaxLimit) :
    ∀ (fuel start : Nat) (campaigns : List Campaign), start ≤ s.campaigns.campaignCount →
      s.campaigns.campaignCount - start < fuel →
      listLoop s limit fuel start campaigns = some (campaigns ++ storedCampaigns s
        (List.range' (start + 1) (s.campaigns.campaignCount - start))) := by
  intro fuel
  induction fuel with
  | zero =>
      intro start campaigns _ hfuel
      omega
  | succ fuel ih =>
      intro start campaigns hle hfuel
      generalize hk : min limit (s.campaigns.campaignCount - start) = k
      have hpage : listCampaigns s start limit =
          storedCampaigns s (List.range' (start + 1) k) := by
        rw [listCampaigns_eq hcount, Nat.min_eq_left hmax, hk]
      obtain ⟨hlength, hlast⟩ := stored.page start k (by omega)
      rw [listLoop, hpage, hlength]
      cases hfinal : (storedCampaigns s (List.range' (start + 1) k)).getLast? with
      | none =>
          rw [hfinal, Option.map_none] at hlast
          have hzero : k = 0 := by
            by_contra hk
            rw [if_neg hk] at hlast
            cases hlast
          have hend : s.campaigns.campaignCount - start = 0 := by omega
          rw [hend]
          exact congrArg some (List.append_nil campaigns).symm
      | some last =>
          rw [hfinal, Option.map_some] at hlast
          have hid : k ≠ 0 ∧ last.id = start + k := by
            split at hlast
            next => cases hlast
            next hk => exact ⟨hk, Option.some.inj hlast⟩
          dsimp only
          split
          next hshort =>
              have hend : s.campaigns.campaignCount - start = k := by omega
              rw [hend]
          next hfull =>
              have hrest : s.campaigns.campaignCount - start =
                  k + (s.campaigns.campaignCount - (start + k)) := by omega
              rw [hid.2, ih _ _ (by omega) (by omega), List.append_assoc, ← storedCampaigns_append,
                hrest, ← List.range'_append_1, Nat.add_right_comm]

/-- A first page that is shorter than the limit is taken for the last one. -/
theorem listLoop_short (stored : AllStored s (List.range' 1 s.campaigns.campaignCount))
    (hcount : s.campaigns.campaignCount < 2 ^ 32) (hover : listMaxLimit < limit) (fuel : Nat) :
    listLoop s limit (fuel + 1) 0 [] = some (storedCampaigns s
      (List.range' 1 (min listMaxLimit s.campaigns.campaignCount))) := by
  have hpage : listCampaigns s 0 limit =
      storedCampaigns s (List.range' 1 (min listMaxLimit s.campaigns.campaignCount)) := by
    rw [listCampaigns_eq hcount, Nat.min_eq_right (Nat.le_of_lt hover)]
    rfl
  obtain ⟨hlength, -⟩ := stored.page 0 (min listMaxLimit s.campaigns.campaignCount) (by omega)
  rw [Nat.zero_add] at hlength
  rw [listLoop, hpage, hlength]
  cases hfinal : (storedCampaigns s
      (List.range' 1 (min listMaxLimit s.campaigns.campaignCount))).getLast? with
  | none => rw [List.getLast?_eq_none_iff.mp hfinal]
  | some last => exact if_pos (by omega)

/-- The loop ends, and what it has listed is everything exactly when the limit is not
above the length of a page or one page holds all campaigns. -/
theorem listLoop_complete_iff (run : Run (machine host) tr cfg) (hpos : 1 ≤ limit) :
    ∃ campaigns turns, (∀ fuel ≥ turns, listLoop cfg.state limit fuel 0 [] = some campaigns) ∧
      (campaigns.map Campaign.id = List.range' 1 cfg.state.campaigns.campaignCount ↔
        limit ≤ listMaxLimit ∨ cfg.state.campaigns.campaignCount ≤ listMaxLimit) := by
  have stored := run_allStored run
  have hcount := run_count_lt run
  by_cases hmax : limit ≤ listMaxLimit
  · refine ⟨_, cfg.state.campaigns.campaignCount + 1, fun fuel hfuel =>
      listLoop_rest stored hcount hpos hmax fuel 0 [] (Nat.zero_le _) (by omega), ?_⟩
    exact iff_of_true stored.map_id (.inl hmax)
  · have hover : listMaxLimit < limit := Nat.lt_of_not_le hmax
    refine ⟨storedCampaigns cfg.state
      (List.range' 1 (min listMaxLimit cfg.state.campaigns.campaignCount)), 1,
      fun fuel hfuel => ?_, ?_⟩
    · obtain ⟨turns, rfl⟩ := Nat.exists_eq_add_of_le' hfuel
      exact listLoop_short stored hcount hover turns
    · have hpart : AllStored cfg.state
          (List.range' 1 (min listMaxLimit cfg.state.campaigns.campaignCount)) :=
        stored.sublist (List.range'_sublist_right.mpr (Nat.min_le_right ..))
      rw [hpart.map_id]
      constructor
      · intro hall
        have hlength := congrArg List.length hall
        rw [List.length_range', List.length_range'] at hlength
        exact .inr (by omega)
      · intro hsmall
        rw [Nat.min_eq_right (hsmall.resolve_left hmax)]

theorem listLoop_sample : ∃ tr cfg, Run (machine Sample.host) tr cfg ∧
    ∃ campaigns turns, (∀ fuel ≥ turns, listLoop cfg.state 1 fuel 0 [] = some campaigns) ∧
      campaigns.map Campaign.id = [1, 2] := by
  have h : Sample.Ends 300 Sample.handedOn fun _ cfg => cfg.state.campaigns.campaignCount = 2 := by
    decide +kernel
  obtain ⟨tr, cfg, run, hcount⟩ := h.run
  obtain ⟨campaigns, turns, hreturns, hall⟩ := listLoop_complete_iff run (Nat.le_refl 1)
  rw [hcount] at hall
  exact ⟨tr, cfg, run, campaigns, turns, hreturns, hall.mpr (.inl (by decide))⟩

/-- Of 51 campaigns a loop with the limit 51 lists the first 50. -/
theorem listLoop_stops : ∃ tr cfg, Run (machine Sample.host) tr cfg ∧
    cfg.state.campaigns.campaignCount = 51 ∧ ∃ campaigns,
      (∀ fuel ≥ 1, listLoop cfg.state 51 fuel 0 [] = some campaigns) ∧
      campaigns.map Campaign.id = List.range' 1 50 := by
  obtain ⟨tr, cfg, run, -, -, stocked⟩ := Sample.Stocked.run (n := 51) (by decide)
  have hcount := stocked.campaigns
  have stored := run_allStored run
  have hpart : AllStored cfg.state (List.range' 1 50) := by
    rw [hcount] at stored
    exact stored.sublist (List.range'_sublist_right.mpr (by decide))
  refine ⟨tr, cfg, run, hcount, _, fun fuel hfuel => ?_, hpart.map_id⟩
  obtain ⟨turns, rfl⟩ := Nat.exists_eq_add_of_le' hfuel
  have hshort := listLoop_short stored (run_count_lt run) (by decide : listMaxLimit < 51) turns
  rw [hcount] at hshort
  exact hshort

end Loop

end ProofOfHeart
