import ProofOfHeart.Account.Terms
import ProofOfHeart.Laws.CreatorIndex
import ProofOfHeart.Queries

/-! # Paging through the campaigns of a creator

While the buckets of a creator are the consecutive parts of a list, a page is a
segment of that list and the statistics run over the whole of it. A bucket that
lost an entry before the last bucket stops the paging loop for good.
-/

namespace ProofOfHeart

open Checked Function Table Trace Buckets

variable {host : Host} {tr : List Receipt} {cfg : Config} {s : State} {c : Nat} {a a' : Account}
  {env : Env} {v : View} {act : Act} {moves : List Transfer} {delta : Int}

/-! ## The paging loop -/

section Loop

variable {size stop : Nat} {bucket : Nat → List Nat} {entries : List Nat}

theorem storedCampaigns_append (ids later : List Nat) :
    storedCampaigns s (ids ++ later) = storedCampaigns s ids ++ storedCampaigns s later :=
  List.filterMap_append ..

/-- One turn of the loop reads the rest of a bucket, up to `stop`. -/
theorem bucketLoop_turn (h : Chunks size bucket entries) (hsize : 0 < size)
    (hstop : stop ≤ entries.length) {position : Nat} (hlt : position < stop) (fuel : Nat)
    (campaigns : List Campaign) :
    bucketLoop s size bucket stop (fuel + 1) position campaigns =
      bucketLoop s size bucket stop fuel
        (position + min (stop - position) (size - position % size))
        (campaigns ++ storedCampaigns s
          ((entries.drop position).take (min (stop - position) (size - position % size)))) := by
  have hdiv := Nat.div_add_mod' position size
  have hmod := Nat.mod_lt position hsize
  have hlength := h.length (position / size)
  have htaken : ((entries.drop position).take
      (min (stop - position) (size - position % size))).length =
        min (stop - position) (size - position % size) := by
    rw [List.length_take, List.length_drop]
    omega
  rw [bucketLoop, if_pos hlt]
  dsimp only
  rw [h.read, htaken]
  split
  next hread =>
      rw [if_neg (by omega)]
      congr 1
      omega
  next => rfl

theorem bucketLoop_segment (h : Chunks size bucket entries) (hsize : 0 < size)
    (hstop : stop ≤ entries.length) :
    ∀ (fuel position : Nat) (campaigns : List Campaign), position ≤ stop →
      stop - position ≤ fuel → bucketLoop s size bucket stop fuel position campaigns =
        some (campaigns ++ storedCampaigns s ((entries.drop position).take (stop - position))) := by
  intro fuel
  induction fuel with
  | zero =>
      intro position campaigns hle hfuel
      have hend : stop - position = 0 := Nat.le_zero.mp hfuel
      rw [bucketLoop, if_neg (by omega), hend, List.take_zero]
      simp [storedCampaigns]
  | succ fuel ih =>
      intro position campaigns hle hfuel
      by_cases hlt : position < stop
      · have hmod := Nat.mod_lt position hsize
        rw [bucketLoop_turn h hsize hstop hlt, ih _ _ (by omega) (by omega), List.append_assoc,
          ← storedCampaigns_append, ← List.drop_drop, ← List.take_add]
        congr 4
        omega
      · have hend : stop - position = 0 := by omega
        rw [bucketLoop, if_neg hlt, hend, List.take_zero]
        simp [storedCampaigns]

/-- A bucket that ends just before the position sends the loop back to it. -/
theorem bucketLoop_stuck {position : Nat} (hlt : position < stop)
    (hlength : (bucket (position / size)).length = position % size) (hpos : 0 < position % size) :
    ∀ (fuel : Nat) (campaigns : List Campaign),
      bucketLoop s size bucket stop fuel position campaigns = none := by
  have hdiv := Nat.div_add_mod' position size
  intro fuel
  induction fuel with
  | zero =>
      intro campaigns
      rw [bucketLoop, if_pos hlt]
  | succ fuel ih =>
      intro campaigns
      have hrest : (bucket (position / size)).drop (position - position / size * size) = [] := by
        rw [List.drop_eq_nil_iff]
        omega
      rw [bucketLoop, if_pos hlt]
      dsimp only
      rw [hrest, List.take_nil, List.length_nil, if_pos (by omega), if_neg (by omega), hlength,
        hdiv]
      exact ih _

/-- A page is a segment of the list that the buckets hold. -/
theorem getCampaignsFromBuckets_page {start limit fuel : Nat} (h : Chunks size bucket entries)
    (hsize : 0 < size) (hcount : entries.length < 2 ^ 32)
    (hfuel : min limit listMaxLimit ≤ fuel) :
    getCampaignsFromBuckets s start limit entries.length size bucket fuel =
      some (storedCampaigns s ((entries.drop start).take (min limit listMaxLimit))) := by
  dsimp only [getCampaignsFromBuckets]
  split
  next hempty =>
      have hnone : (entries.drop start).take (min limit listMaxLimit) = [] := by
        rcases hempty with hover | hzero
        · rw [List.drop_eq_nil_of_le hover, List.take_nil]
        · rw [hzero, List.take_zero]
      rw [hnone]
      rfl
  next hstart =>
      have hstop : min (Word.saturatingAdd 32 start (min limit listMaxLimit)) entries.length =
          min (start + min limit listMaxLimit) entries.length := by
        unfold Word.saturatingAdd
        omega
      have hsegment : (entries.drop start).take
          (min (start + min limit listMaxLimit) entries.length - start) =
            (entries.drop start).take (min limit listMaxLimit) := by
        rw [List.take_eq_take_iff, List.length_drop]
        omega
      rw [hstop, ← hsegment, ← List.nil_append (storedCampaigns s _)]
      exact bucketLoop_segment h hsize (Nat.min_le_right ..) _ _ _ (by omega) (by omega)

end Loop

/-! ## Pages of a creator -/

/-- The call returns the page, whatever further turns the loop is allowed. -/
def ReturnsPage (s : State) (X : Address) (start limit : Nat) (page : List Campaign) : Prop :=
  ∃ turns, ∀ fuel ≥ turns, getCreatorCampaigns s X start limit fuel = some page

section Pages

variable {owner : Nat → Option Address} {entries : Address → List Nat} {X : Address}

theorem Listed.returnsPage {start limit : Nat} (listed : Listed (view s).creators owner entries)
    (hcount : (entries X).length < 2 ^ 32) (hmax : limit ≤ listMaxLimit) :
    ReturnsPage s X start limit
      (storedCampaigns s (((entries X).drop start).take limit)) := by
  refine ⟨limit, fun fuel hfuel => ?_⟩
  have htotal : s.campaigns.creatorCampaignCount X = (entries X).length := listed.count X
  rw [getCreatorCampaigns, htotal, creatorBucket_view,
    getCampaignsFromBuckets_page (listed.chunks X) (by decide) hcount
      (Nat.le_trans (Nat.min_le_left ..) hfuel), Nat.min_eq_left hmax]

end Pages

/-! ## Statistics of a creator -/

/-- The sums over a list of campaigns. -/
def statsOf (contributors : Nat → Nat) (campaigns : List Campaign) : CreatorStats where
  totalCampaigns := campaigns.length
  activeCampaigns := campaigns.countP fun record => record.isActive && !record.isCancelled
  totalRaised := ((campaigns.filter fun record => !record.isCancelled).map
    Campaign.amountRaised).sum
  totalContributors := (campaigns.map fun record => contributors record.id).sum

/-- Every sum fits the type of its counter. -/
structure CreatorStats.Fits (stats : CreatorStats) : Prop where
  active : stats.activeCampaigns < 2 ^ 32
  raised : I128.InRange stats.totalRaised
  contributors : stats.totalContributors < 2 ^ 32

/-- The running sums after some more campaigns. -/
def CreatorStats.plus (stats more : CreatorStats) : CreatorStats :=
  { stats with
    activeCampaigns := stats.activeCampaigns + more.activeCampaigns
    totalRaised := stats.totalRaised + more.totalRaised
    totalContributors := stats.totalContributors + more.totalContributors }

section Stats

variable {stats stats' : CreatorStats} {contributors : Nat → Nat} {record : Campaign}
  {campaigns : List Campaign}

theorem CreatorStats.plus_nil : stats.plus (statsOf contributors []) = stats := by
  simp [CreatorStats.plus, statsOf]

theorem CreatorStats.plus_cons : stats.plus (statsOf contributors (record :: campaigns)) =
    (stats.plus (statsOf contributors [record])).plus (statsOf contributors campaigns) := by
  simp only [CreatorStats.plus, statsOf, List.countP_cons, List.countP_nil, List.map_cons,
    List.map_nil, List.sum_cons, List.sum_nil, CreatorStats.mk.injEq, true_and]
  refine ⟨by omega, ?_, by omega⟩
  by_cases hcancelled : record.isCancelled = true
  · simp [hcancelled]
  · simp [hcancelled, Int.add_assoc]

theorem statsOf_totalRaised_nonneg (h : ∀ record ∈ campaigns, 0 ≤ record.amountRaised) :
    0 ≤ (statsOf contributors campaigns).totalRaised := by
  refine List.sum_nonneg fun amount hamount => ?_
  obtain ⟨record, hrecord, rfl⟩ := List.mem_map.mp hamount
  exact h record (List.mem_of_mem_filter hrecord)

/-- The sums only grow, so the earlier ones fit when the last ones do. -/
theorem CreatorStats.Fits.of_plus (fits : (stats.plus (statsOf contributors campaigns)).Fits)
    (hraised : 0 ≤ stats.totalRaised) (h : ∀ record ∈ campaigns, 0 ≤ record.amountRaised) :
    stats.Fits := by
  obtain ⟨active, ⟨-, raised⟩, total⟩ := fits
  have hmore : 0 ≤ (statsOf contributors campaigns).totalRaised := statsOf_totalRaised_nonneg h
  simp only [CreatorStats.plus] at active raised total
  refine ⟨by omega, ⟨Int.le_trans (by decide) hraised, ?_⟩, by omega⟩
  calc stats.totalRaised ≤ stats.totalRaised + (statsOf contributors campaigns).totalRaised := by
        omega
    _ ≤ I128.maxValue := raised

theorem addActive_eq_ok {active n : Nat} (h : active < 2 ^ 32) :
    addActive record active = .ok n ↔
      n = active + (if record.isActive && !record.isCancelled then 1 else 0) ∧ n < 2 ^ 32 := by
  unfold addActive
  cases record.isActive <;> cases record.isCancelled <;> simp <;> omega

theorem addRaised_eq_ok {raised amount : Int} (h : I128.InRange raised) :
    addRaised record raised = .ok amount ↔
      amount = raised + (if record.isCancelled then 0 else record.amountRaised) ∧
        I128.InRange amount := by
  unfold addRaised
  cases record.isCancelled
  · simp only [Bool.false_eq_true, if_false, okOr_eq_ok, I128.checkedAdd_eq_some]
    constructor <;> rintro ⟨rfl, hrange⟩ <;> exact ⟨rfl, hrange⟩
  · simp only [if_true, pure_eq_ok, Int.add_zero]
    exact ⟨fun heq => ⟨heq.symm, heq ▸ h⟩, fun heq => heq.1.symm⟩

theorem addToStats_eq_ok (hrecord : s.campaigns.campaign c = some record) (hid : record.id = c)
    (fits : stats.Fits) :
    addToStats s stats c = .ok stats' ↔
      stats' = stats.plus (statsOf s.contributions.contributorCount [record]) ∧
        stats'.Fits := by
  have hplus : stats.plus (statsOf s.contributions.contributorCount [record]) =
      { stats with
        activeCampaigns := stats.activeCampaigns +
          (if record.isActive && !record.isCancelled then 1 else 0)
        totalRaised := stats.totalRaised +
          (if record.isCancelled then 0 else record.amountRaised)
        totalContributors := stats.totalContributors +
          s.contributions.contributorCount c } := by
    cases hcancelled : record.isCancelled <;>
      simp [CreatorStats.plus, statsOf, hcancelled, hid]
  rw [hplus]
  simp only [addToStats, hrecord, bind_eq_ok, addActive_eq_ok fits.active,
    addRaised_eq_ok fits.raised, okOr_eq_ok, Word.checkedAdd_eq_some, pure_eq_ok]
  constructor
  · rintro ⟨_, ⟨rfl, active⟩, _, ⟨rfl, raised⟩, _, ⟨rfl, total⟩, rfl⟩
    exact ⟨rfl, active, raised, total⟩
  · rintro ⟨rfl, active, raised, total⟩
    exact ⟨_, ⟨rfl, active⟩, _, ⟨rfl, raised⟩, _, ⟨rfl, total⟩, rfl⟩

/-- The loop over any identifiers adds their stored campaigns. -/
theorem each_addToStats {ids : List Nat}
    (h : ∀ c record, s.campaigns.campaign c = some record →
      record.id = c ∧ 0 ≤ record.amountRaised) :
    ∀ {stats stats' : CreatorStats}, stats.Fits → 0 ≤ stats.totalRaised →
      (each (addToStats s) stats ids = .ok stats' ↔
        stats' = stats.plus (statsOf s.contributions.contributorCount (storedCampaigns s ids)) ∧
          stats'.Fits) := by
  have hnonneg : ∀ ids, ∀ record ∈ storedCampaigns s ids, 0 ≤ record.amountRaised := by
    intro ids record hmem
    obtain ⟨c, -, hc⟩ := List.mem_filterMap.mp hmem
    exact (h c record hc).2
  induction ids with
  | nil =>
      intro stats stats' fits hraised
      rw [each_nil, storedCampaigns, List.filterMap_nil, CreatorStats.plus_nil, Except.ok.injEq]
      exact ⟨fun heq => ⟨heq.symm, heq ▸ fits⟩, fun heq => heq.1.symm⟩
  | cons c rest ih =>
      intro stats stats' fits hraised
      cases hc : s.campaigns.campaign c with
      | none =>
          have hskip : addToStats s stats c = .ok stats := by
            simp only [addToStats, hc, pure_eq_ok]
          have hstored : storedCampaigns s (c :: rest) = storedCampaigns s rest :=
            List.filterMap_cons_none hc
          rw [hstored, ← ih fits hraised, each_cons_eq_ok, hskip]
          simp
      | some record =>
          have hstored : storedCampaigns s (c :: rest) = record :: storedCampaigns s rest :=
            List.filterMap_cons_some hc
          obtain ⟨hid, hamount⟩ := h c record hc
          have hsum : 0 ≤ (statsOf s.contributions.contributorCount [record]).totalRaised :=
            statsOf_totalRaised_nonneg (by simpa using hamount)
          have hmid : 0 ≤ (stats.plus
              (statsOf s.contributions.contributorCount [record])).totalRaised :=
            Int.add_nonneg hraised hsum
          rw [hstored, CreatorStats.plus_cons, each_cons_eq_ok]
          simp only [addToStats_eq_ok hc hid fits]
          constructor
          · rintro ⟨_, ⟨rfl, hfits⟩, hrest⟩
            exact (ih hfits hmid).mp hrest
          · rintro ⟨rfl, hfits⟩
            have hearlier := hfits.of_plus hmid (hnonneg rest)
            exact ⟨_, ⟨rfl, hearlier⟩, (ih hearlier hmid).mpr ⟨rfl, hfits⟩⟩

end Stats

/-! ## The law -/

/-- The list holds each campaign that `X` owns once, and nothing else. -/
structure ListsAll (s : State) (X : Address) (campaigns : List Campaign) : Prop where
  nodup : campaigns.Nodup
  mem : ∀ record, record ∈ campaigns ↔
    (∃ c, s.campaigns.campaign c = some record) ∧ record.creator = X

/-- How many page starts `0, limit, 2 * limit, ...` lie below the total. -/
def pageCount (total limit : Nat) : Nat := (total + limit - 1) / limit

theorem AccountStep.recordId (h : AccountStep env v c act moves delta a a') :
    a'.record.id = a.record.id := congrArg Terms.id h.terms

theorem run_recordId (run : Run (machine host) tr cfg)
    (ha : (view cfg.state).account c = some a) : a.record.id = c :=
  account_invariant (I := fun _ _ a => a.record.id = c)
    (fun _ hborn => by cases hborn; rfl)
    (fun passage ih => passage.step.recordId.trans ih) run ha

section Law

variable {entries : Address → List Nat} {X : Address}

theorem Listed.stored (listed : Listed (view s).creators (view s).owner entries)
    (hc : c ∈ entries X) : ∃ record, s.campaigns.campaign c = some record ∧ record.creator = X :=
  Option.map_eq_some_iff.mp ((listed.mem X c).mp hc)

theorem Listed.storedCampaigns_length
    (listed : Listed (view s).creators (view s).owner entries) :
    (storedCampaigns s (entries X)).length = (entries X).length := by
  have hall : ∀ c ∈ entries X, (s.campaigns.campaign c).isSome := fun c hc => by
    obtain ⟨record, hrecord, -⟩ := listed.stored hc
    rw [hrecord]
    rfl
  exact List.filterMap_length_eq_length.mpr hall

theorem Listed.listsAll (listed : Listed (view s).creators (view s).owner entries)
    (hid : ∀ c record, s.campaigns.campaign c = some record → record.id = c) :
    ListsAll s X (storedCampaigns s (entries X)) where
  nodup := (listed.nodup X).filterMap fun c c' record hc hc' =>
    (hid c record hc).symm.trans (hid c' record hc')
  mem record := by
    rw [storedCampaigns, List.mem_filterMap]
    constructor
    · rintro ⟨c, hc, hrecord⟩
      obtain ⟨same, hsame, hcreator⟩ := listed.stored hc
      rw [Option.some.inj (hrecord.symm.trans hsame)]
      exact ⟨⟨c, hsame⟩, hcreator⟩
    · rintro ⟨⟨c, hrecord⟩, hcreator⟩
      refine ⟨c, (listed.mem X c).mpr ?_, hrecord⟩
      rw [View.owner, ← campaign_view, hrecord, ← hcreator]
      rfl

theorem flatMap_storedCampaigns (ids : List Nat) {limit : Nat} (hpos : 1 ≤ limit) :
    (List.range (pageCount ids.length limit)).flatMap
        (fun page => storedCampaigns s ((ids.drop (page * limit)).take limit)) =
      storedCampaigns s ids := by
  simp only [storedCampaigns]
  rw [← List.filterMap_flatMap, pageCount, flatMap_pages_all ids hpos]

theorem Listed.stats (listed : Listed (view s).creators (view s).owner entries)
    (h : ∀ c record, s.campaigns.campaign c = some record →
      record.id = c ∧ 0 ≤ record.amountRaised) (stats : CreatorStats) :
    getCreatorStats s X = .ok stats ↔
      stats = statsOf s.contributions.contributorCount (storedCampaigns s (entries X)) ∧
        stats.Fits := by
  have htotal : s.campaigns.creatorCampaignCount X = (entries X).length := listed.count X
  have hbuckets : (List.range (((entries X).length + creatorCampaignsBucketSize - 1) /
      creatorCampaignsBucketSize)).flatMap (s.campaigns.creatorCampaignsBucket X) =
        entries X := by
    have hchunks : s.campaigns.creatorCampaignsBucket X = _ := funext (listed.chunks X)
    rw [hchunks]
    exact flatMap_pages_all (entries X) (by decide)
  have hzero : (⟨(entries X).length, 0, 0, 0⟩ : CreatorStats).Fits :=
    ⟨Nat.two_pow_pos 32, show I128.InRange 0 by decide, Nat.two_pow_pos 32⟩
  have hplus : (⟨(entries X).length, 0, 0, 0⟩ : CreatorStats).plus
      (statsOf s.contributions.contributorCount (storedCampaigns s (entries X))) =
        statsOf s.contributions.contributorCount (storedCampaigns s (entries X)) := by
    simp [CreatorStats.plus, statsOf, listed.storedCampaigns_length]
  dsimp only [getCreatorStats]
  rw [htotal, each_each, hbuckets, each_addToStats h hzero (Int.le_refl 0), hplus]

theorem run_stored (run : Run (machine host) tr cfg) (c : Nat) (record : Campaign)
    (hrecord : cfg.state.campaigns.campaign c = some record) :
    record.id = c ∧ 0 ≤ record.amountRaised := by
  have ha := View.account_of_campaign (v := view cfg.state) hrecord
  obtain ⟨books, -⟩ := run_books run ha
  exact ⟨run_recordId run ha, books.raised_nonneg⟩

/-- The entries of a creator are distinct numbers of campaigns. -/
theorem Listed.length_lt (run : Run (machine host) tr cfg)
    (listed : Listed (view cfg.state).creators (view cfg.state).owner entries) :
    (entries X).length < 2 ^ 32 := by
  have hsub : (entries X).toFinset ⊆ (view cfg.state).ids := fun c hc => by
    obtain ⟨record, hrecord, -⟩ := listed.stored (List.mem_toFinset.mp hc)
    exact (run_sane run).mem_ids (View.account_of_campaign hrecord)
  calc (entries X).length = (entries X).toFinset.card :=
        (List.toFinset_card_of_nodup (listed.nodup X)).symm
    _ ≤ (view cfg.state).ids.card := Finset.card_le_card hsub
    _ = (view cfg.state).campaignCount := Nat.card_Icc _ _
    _ < 2 ^ 32 := run_count_lt run

/-- Every page comes back, the pages together list each campaign of the creator
once, and the statistics are the sums over that list unless one of them overflows. -/
theorem creatorIndex_paged (run : Run (machine host) tr cfg)
    (hlast : ∀ r ∈ tr, r.TakesFromLast) {limit : Nat} (hpos : 1 ≤ limit)
    (hmax : limit ≤ listMaxLimit) :
    (∀ start, ∃ page, ReturnsPage cfg.state X start limit page) ∧
    ∃ pages : Nat → List Campaign,
      (∀ n, ReturnsPage cfg.state X (n * limit) limit (pages n)) ∧
      ∃ campaigns, campaigns = (List.range (pageCount
          (cfg.state.campaigns.creatorCampaignCount X) limit)).flatMap pages ∧
        ListsAll cfg.state X campaigns ∧
        ∀ stats, getCreatorStats cfg.state X = .ok stats ↔
          stats = statsOf cfg.state.contributions.contributorCount campaigns ∧ stats.Fits := by
  obtain ⟨entries, listed⟩ := run_listed run hlast
  have hreturns : ∀ start, ReturnsPage cfg.state X start limit
      (storedCampaigns cfg.state (((entries X).drop start).take limit)) := fun _ =>
    listed.returnsPage (listed.length_lt run) hmax
  have hstored := run_stored run
  have hall : storedCampaigns cfg.state (entries X) = (List.range (pageCount
      (cfg.state.campaigns.creatorCampaignCount X) limit)).flatMap
        fun n => storedCampaigns cfg.state (((entries X).drop (n * limit)).take limit) := by
    rw [creatorCount_view, listed.count X, flatMap_storedCampaigns _ hpos]
  exact ⟨fun start => ⟨_, hreturns start⟩, _, fun n => hreturns (n * limit), _, hall,
    listed.listsAll fun c record hrecord => (hstored c record hrecord).1, listed.stats hstored⟩

end Law

/-- Of two campaigns the creator hands over the first. -/
def Sample.handedOn : List Request :=
  [ask 0 creator (.createCampaign (params [0] 0)), ask 0 creator (.createCampaign (params [1] 0)),
    ask 0 creator (.initiateCampaignTransfer 1 heir), ask 0 heir (.acceptCampaignTransfer 1)]

theorem creatorIndex_sample : ∃ tr cfg, Run (machine Sample.host) tr cfg ∧
    cfg.state.campaigns.creatorCampaignCount Sample.creator = 1 ∧
    cfg.state.campaigns.creatorCampaignCount Sample.heir = 1 ∧
    ∀ start, ∃ page, ReturnsPage cfg.state Sample.creator start 50 page := by
  have h : Sample.Ends 300 Sample.handedOn fun tr cfg => (∀ r ∈ tr, r.TakesFromLast) ∧
      cfg.state.campaigns.creatorCampaignCount Sample.creator = 1 ∧
      cfg.state.campaigns.creatorCampaignCount Sample.heir = 1 := by decide +kernel
  obtain ⟨tr, cfg, run, hlast, hcreator, hheir⟩ := h.run
  exact ⟨tr, cfg, run, hcreator, hheir,
    (creatorIndex_paged run hlast (by decide) (by decide)).1⟩

/-! ## A bucket that lost an entry -/

theorem view_clearMoved_creators : (view s.clearMoved).creators = (view s).creators := rfl

/-- The first hand-over that takes an entry from an earlier bucket leaves a page
that never comes back. -/
theorem handOver_stalls {r : Receipt} {cfg' : Config} (run : Run (machine host) tr cfg)
    (hlast : ∀ r ∈ tr, r.TakesFromLast) (step : (machine host).Step cfg r cfg')
    (hnot : ¬ r.TakesFromLast) :
    ∃ X start, start < cfg'.state.campaigns.creatorCampaignCount X ∧
      ∀ fuel, getCreatorCampaigns cfg'.state X start 1 fuel = none := by
  obtain ⟨entries, listed⟩ := run_listed run hlast
  obtain ⟨hvalid, -, hpre, rfl⟩ := step
  have hlength := fun X => listed.length_lt (X := X) run
  have sane := run_sane run
  rw [← hpre] at listed sane
  simp only [Receipt.TakesFromLast, not_forall] at hnot
  obtain ⟨c, record, hcall, hrecord, hother⟩ := hnot
  have heffect := hvalid.effect sane.toConfigured
  rw [hcall] at heffect
  generalize hw : view r.post = w at heffect
  cases heffect with
  | @handOver _ a heir b slot last ha live pending other hposition hslot hend =>
      obtain rfl : a.record = record :=
        Option.some.inj ((View.account_eq_some.mp ha).1.symm.trans hrecord)
      have hcount : r.post.campaigns.creatorCampaignCount a.record.creator =
          (entries a.record.creator).length - 1 := by
        rw [creatorCount_view, hw, ← listed.count]
        simp [CreatorIndex.append, CreatorIndex.remove, other.symm, view_clearMoved_creators]
      have hbucket : r.post.campaigns.creatorCampaignsBucket a.record.creator b =
          (((view r.pre).creators.bucket a.record.creator b).set slot last).dropLast := by
        rw [creatorBucket_view, hw]
        simp [CreatorIndex.append, CreatorIndex.remove, other.symm, view_clearMoved_creators]
      have hfull := (listed.chunks a.record.creator).length b
      have hmem : c ∈ (view r.pre).creators.bucket a.record.creator b :=
        List.mem_of_getElem? hslot
      have hpos := List.length_pos_of_mem hmem
      have hne : b ≠ ((entries a.record.creator).length - 1) / creatorCampaignsBucketSize := by
        rw [← listed.count]
        exact fun h => hother (h ▸ hmem)
      have hbound := hlength a.record.creator
      -- an earlier bucket is full and the total reaches past its end
      simp only [creatorCampaignsBucketSize] at hfull hne
      have hend : b * 500 + 500 ≤ (entries a.record.creator).length - 1 := by omega
      have hlength : (r.post.campaigns.creatorCampaignsBucket a.record.creator b).length = 499 := by
        rw [hbucket, List.length_dropLast, List.length_set]
        omega
      refine ⟨a.record.creator, b * 500 + 499,
        Nat.lt_of_lt_of_eq (by omega) hcount.symm, fun fuel => ?_⟩
      have hidx : (b * 500 + 499) / creatorCampaignsBucketSize = b := by
        simp only [creatorCampaignsBucketSize]
        omega
      have hslot : (b * 500 + 499) % creatorCampaignsBucketSize = 499 := by
        simp only [creatorCampaignsBucketSize]
        omega
      have hlimit : min 1 listMaxLimit = 1 := by decide
      have hstop : Word.saturatingAdd 32 (b * 500 + 499) 1 = b * 500 + 499 + 1 :=
        Word.saturatingAdd_eq (by omega)
      dsimp only [getCreatorCampaigns, getCampaignsFromBuckets]
      rw [hcount, hlimit, hstop, if_neg (by omega)]
      exact bucketLoop_stuck (by omega) (by rw [hidx, hslot, hlength]) (by rw [hslot]; decide)
        fuel []
  | create hcreate => rcases hcreate with ⟨h, -⟩ | ⟨_, h, -⟩ <;> cases h
  | edit ha hedit notAccept =>
      cases hedit with
      | handOver => exact absurd rfl notAccept
      | verify verifiable hverify => rcases hverify with h | h | ⟨_, _, h⟩ <;> cases h
  | administer h =>
      obtain ⟨store, hstep, -⟩ := h
      cases hstep
  | outside h => cases h

/-! ## More campaigns than one bucket holds -/

namespace Sample

/-- Distinct titles of two bytes. -/
def title (n : Nat) : Text := [UInt8.ofNat (n / 256), UInt8.ofNat n]

theorem title_injective {m n : Nat} (hm : m < 65536) (hn : n < 65536)
    (h : title m = title n) : m = n := by
  simp only [title, List.cons.injEq, and_true] at h
  have hhigh := congrArg UInt8.toNat h.1
  have hlow := congrArg UInt8.toNat h.2
  simp only [UInt8.toNat_ofNat'] at hhigh hlow
  omega

def creation (n : Nat) : Request := ask 0 creator (.createCampaign (params (title n) 0))

/-- What `n` creations leave. -/
structure Stocked (n : Nat) (s : State) : Prop where
  paused : s.admin.paused = false
  autoPaused : s.admin.autoPaused = false
  enabled : s.admin.creationDisabled = false
  minGoal : getMinCampaignFundingGoal s = campaignFundingGoalMin
  maxGoal : getMaxCampaignFundingGoal s = campaignFundingGoalMax
  duration : s.campaigns.categoryDurationCap .educationalStartup = none
  campaigns : s.campaigns.campaignCount = n
  active : s.campaigns.activeCampaignCount = n
  category : s.campaigns.categoryCampaignCount .educationalStartup = n
  count : s.campaigns.creatorCampaignCount creator = n
  heirless : s.campaigns.creatorCampaignCount heir = 0
  titles : ∀ m, n ≤ m → m < 65536 →
    s.campaigns.creatorCampaignTitleIndex creator (title m) = none
  chunks : Chunks creatorCampaignsBucketSize (s.campaigns.creatorCampaignsBucket creator)
    (List.range' 1 n)
  first : 0 < n → s.campaigns.creatorCampaignPosition creator 1 = some (0, 0) ∧
    s.campaigns.campaign 1 = some ((params (title 0) 0).campaign 1 864000)

theorem Stocked.checked {n : Nat} (h : Stocked n s) (hn : n < 600) :
    checkCreateParams ((creation n).env Sample.host [token, newToken]) s (params (title n) 0) =
      .ok (title n) := by
  have hfree : s.campaigns.creatorCampaignTitleIndex creator (title n) = none :=
    h.titles n (Nat.le_refl n) (by omega)
  simp only [checkCreateParams, hashText, bind_eq_ok, rejectIf_eq_ok, pure_eq_ok, exists_const]
  simp only [params, h.minGoal, h.maxGoal, h.duration]
  refine ⟨by decide, by decide, by decide, by decide, ?_, _, ⟨?_, rfl⟩, not_not_intro hfree,
    by decide, by decide, ?_, ?_, by decide, rfl⟩
  · simp [title, campaignTitleMinLen, campaignTitleMaxLen]
  · simp [title, campaignTitleMaxLen]
  · simp [CreateCampaignParams.share]
  · simp

theorem creation_deadline (n : Nat) :
    calculateDeadline ((creation n).env Sample.host [token, newToken]).timestamp
      (params (title n) 0).durationDays = .ok 864000 := by
  have hzero : ((creation n).env Sample.host [token, newToken]).timestamp = 0 := rfl
  have hdays : (params (title n) 0).durationDays = 10 := rfl
  rw [hzero, hdays]
  simp only [calculateDeadline, bind_eq_ok, okOr_eq_ok, Word.checkedMul_eq_some,
    Word.checkedAdd_eq_some]
  exact ⟨_, ⟨rfl, by decide⟩, by decide, by decide⟩

theorem creation_typed (n : Nat) : (creation n).call.WellTyped := by
  show CreateCampaignParams.WellTyped _
  simp only [CreateCampaignParams.WellTyped, params]
  decide

theorem Stocked.create {n : Nat} (h : Stocked n s) (hn : n < 600) :
    ∃ s', invoke ((creation n).env Sample.host [token, newToken]) s (creation n).call = .ok s' ∧
      Stocked (n + 1) s' := by
  have hlt : n + 1 < 2 ^ 32 := by omega
  have hstart : Stocked n s.clearMoved :=
    ⟨h.paused, h.autoPaused, h.enabled, h.minGoal, h.maxGoal, h.duration, h.campaigns, h.active,
      h.category, h.count, h.heirless, h.titles, h.chunks, h.first⟩
  obtain ⟨s', hcreate, hrecord, hcategory, hduration, htitles⟩ :=
    createCampaignEntry_of (by rfl) hstart.paused hstart.autoPaused hstart.enabled
      (hstart.checked hn) (creation_deadline n)
      (lt_of_eq_of_lt (congrArg (· + 1) hstart.campaigns) hlt)
      (lt_of_eq_of_lt (congrArg (· + 1) hstart.category) hlt)
      (lt_of_eq_of_lt (congrArg (· + 1) hstart.count) hlt)
      (lt_of_eq_of_lt (congrArg (· + 1) hstart.active) hlt)
  obtain ⟨_, _, -, -, -, -, -, -, hview⟩ := createCampaignEntry_spec hcreate
  simp only [hstart.campaigns] at hcreate hrecord htitles hview
  refine ⟨s', ?_, ?_⟩
  · simp only [invoke, bind_eq_ok, rejectIf_eq_ok]
    refine ⟨(), not_not_intro (creation_typed n), ?_⟩
    change (createCampaignEntry _ _ _ none >>= _) = _
    rw [hcreate]
    rfl
  · have hadmin : s'.admin = s.admin := congrArg View.admin hview
    have hcreators : (view s').creators = (view s).creators.append creator (n + 1) :=
      congrArg View.creators hview
    have hcount : (view s).creators.count creator = n := h.count
    have hminGoal : getMinCampaignFundingGoal s' = campaignFundingGoalMin := by
      rw [getMinCampaignFundingGoal, hadmin]
      exact h.minGoal
    have hmaxGoal : getMaxCampaignFundingGoal s' = campaignFundingGoalMax := by
      rw [getMaxCampaignFundingGoal, hadmin]
      exact h.maxGoal
    refine ⟨hadmin ▸ h.paused, hadmin ▸ h.autoPaused, hadmin ▸ h.enabled, hminGoal, hmaxGoal,
      hduration ▸ h.duration, congrArg View.campaignCount hview, ?_, ?_, ?_, ?_, ?_, ?_, ?_⟩
    · exact (congrArg View.activeCount hview).trans (congrArg (· + 1) h.active)
    · rw [hcategory]
      exact (update_self ..).trans (congrArg (· + 1) h.category)
    · rw [creatorCount_view, hcreators]
      simp [CreatorIndex.append, hcount]
    · have hother : heir ≠ creator := by decide
      rw [creatorCount_view, hcreators]
      simp only [CreatorIndex.append, update_of_ne hother]
      exact h.heirless
    · intro m hm hlt
      have hne : title m ≠ title n := fun heq => by
        have := title_injective hlt (by omega) heq
        omega
      rw [htitles, put_apply, if_neg fun heq => hne heq.2]
      exact h.titles m (by omega) hlt
    · have hnew := h.chunks.append (by decide) (n + 1)
      rw [List.length_range'] at hnew
      rw [creatorBucket_view, hcreators, List.range'_1_concat, Nat.add_comm 1 n]
      simpa [CreatorIndex.append, hcount, creatorBucket_view] using hnew
    · intro _
      rw [creatorPosition_view, hcreators]
      cases n with
      | zero =>
          refine ⟨?_, hrecord⟩
          have hempty : (view s).creators.bucket creator 0 = [] := h.chunks 0
          simp [CreatorIndex.append, hcount, hempty, creatorCampaignsBucketSize]
      | succ n =>
          obtain ⟨hposition, hfirst⟩ := h.first (Nat.succ_pos n)
          have hother : 1 ≠ n + 1 + 1 := by omega
          refine ⟨?_, ?_⟩
          · rw [creatorPosition_view] at hposition
            simpa [CreatorIndex.append, put_apply, hother] using hposition
          · have hcampaign : s'.campaigns.campaign = update s.campaigns.campaign (n + 1 + 1) _ :=
              congrArg View.campaign hview
            rw [hcampaign, update_of_ne hother]
            exact hfirst

/-- A request that goes through is a step of the sample deployment. -/
theorem step {cfg : Config} {time : Fin (2 ^ 32)} {signer : Address}
    {call : Call} {post : State}
    (hledger : cfg.ledger = ledger 0)
    (h : invoke ((ask time signer call).env Sample.host [token, newToken]) cfg.state call =
      .ok post) :
    (machine Sample.host).Step cfg
      ⟨(ask time signer call).env Sample.host [token, newToken], call, cfg.state, post⟩
      ⟨ledger time, post⟩ := by
  refine ⟨⟨rfl, h⟩, ?_, rfl, rfl⟩
  rw [hledger]
  exact ⟨Nat.zero_le _, Nat.zero_le _⟩

/-- `n` creations, one after another, all at the start. -/
theorem Stocked.run {n : Nat} (hn : n ≤ 600) :
    ∃ tr cfg, Run (machine Sample.host) tr cfg ∧
      (∀ r ∈ tr, r.call.deploys = true ∨ r.call.creates = some creator) ∧
      cfg.ledger = ledger 0 ∧ Stocked n cfg.state := by
  induction n with
  | zero =>
      obtain ⟨post, hpost, hstocked⟩ : ∃ post, invoke
          ((ask 0 admin (.init admin token 300)).env Sample.host [token, newToken])
          (emptyState tokens) (.init admin token 300) = .ok post ∧ Stocked 0 post :=
        ⟨_, rfl, rfl, rfl, rfl, rfl, rfl, rfl, rfl, rfl, rfl, rfl, rfl, fun _ _ _ => rfl,
          Chunks.nil, fun h => absurd h (Nat.lt_irrefl 0)⟩
      refine ⟨[⟨_, .init admin token 300, emptyState tokens, post⟩], ⟨ledger 0, post⟩,
        .start ⟨⟨rfl, hpost⟩, ⟨tokens, rfl⟩, ⟨_, _, _, rfl⟩, rfl⟩, ?_, rfl, hstocked⟩
      exact List.forall_mem_singleton.mpr (.inl rfl)
  | succ n ih =>
      obtain ⟨tr, cfg, run, hcalls, hledger, stocked⟩ := ih (Nat.le_of_succ_le hn)
      obtain ⟨s', hinvoke, hnext⟩ := stocked.create hn
      refine ⟨_, _, run.step (step hledger hinvoke), ?_, rfl, hnext⟩
      exact List.forall_mem_cons.mpr ⟨.inr rfl, hcalls⟩

theorem Stocked.nominate (h : Stocked 501 s) :
    invoke ((ask 0 creator (.initiateCampaignTransfer 1 heir)).env Sample.host [token, newToken]) s
      (.initiateCampaignTransfer 1 heir) = .ok (setCampaign s.clearMoved 1
        { (params (title 0) 0).campaign 1 864000 with pendingCreator := some heir }) := by
  obtain ⟨-, hrecord⟩ := h.first (by decide)
  have hcampaign : s.clearMoved.campaigns.campaign 1 =
      some ((params (title 0) 0).campaign 1 864000) := hrecord
  have hpaused : s.clearMoved.admin.paused = false := h.paused
  have hautoPaused : s.clearMoved.admin.autoPaused = false := h.autoPaused
  simp only [invoke, dispatch, initiateCampaignTransfer, getCreatorCampaign, getCampaignOrError,
    hcampaign, requireNotPaused, hpaused, hautoPaused, bind_eq_ok, rejectIf_eq_ok, pure_eq_ok]
  exact ⟨(), by decide, _, ⟨_, rfl, (), by decide, rfl⟩, (), by decide, (), by decide, (),
    by decide, (), by decide, (), by decide, rfl⟩

/-- The oldest of 501 campaigns is handed over. -/
theorem crowded : ∃ tr cfg r cfg', Run (machine Sample.host) tr cfg ∧
    (∀ x ∈ tr, x.TakesFromLast) ∧ (machine Sample.host).Step cfg r cfg' ∧ ¬ r.TakesFromLast := by
  obtain ⟨tr, cfg, run, hcalls, hledger, stocked⟩ := Stocked.run (n := 501) (by decide)
  have hlast : ∀ x ∈ tr, x.TakesFromLast := fun x hx c record hcall => by
    have hquiet := hcalls x hx
    rw [hcall] at hquiet
    rcases hquiet with h | h <;> cases h
  have hnominate := step hledger stocked.nominate
  obtain ⟨hposition, hrecord⟩ := stocked.first (by decide)
  have hbucket := stocked.chunks 0
  have hcount := stocked.count
  generalize hs : setCampaign cfg.state.clearMoved 1
    { (params (title 0) 0).campaign 1 864000 with pendingCreator := some heir } = s at hnominate
  have hcampaign : s.clearMoved.campaigns.campaign 1 =
      some { (params (title 0) 0).campaign 1 864000 with pendingCreator := some heir } := by
    subst hs
    simp [setCampaign, State.clearMoved]
  have hheir : s.clearMoved.campaigns.creatorCampaignCount heir = 0 := by
    subst hs
    exact stocked.heirless
  have hpaused : s.clearMoved.admin.paused = false ∧ s.clearMoved.admin.autoPaused = false := by
    subst hs
    exact ⟨stocked.paused, stocked.autoPaused⟩
  have hslot : s.clearMoved.campaigns.creatorCampaignPosition creator 1 = some (0, 0) ∧
      (s.clearMoved.campaigns.creatorCampaignsBucket creator 0)[0]? = some 1 := by
    subst hs
    refine ⟨hposition, ?_⟩
    have hfirst : cfg.state.campaigns.creatorCampaignsBucket creator 0 = _ := hbucket
    exact hfirst ▸ by decide
  obtain ⟨s', haccept⟩ : ∃ s', acceptCampaignTransfer
      ((ask 0 heir (.acceptCampaignTransfer 1)).env Sample.host [token, newToken]) s.clearMoved 1 =
        .ok s' :=
    acceptCampaignTransfer_of hcampaign rfl rfl hpaused.1 hpaused.2 rfl (by decide) (by decide)
      hslot.1 hslot.2 (by rw [hheir]; decide)
  have hinvoke : invoke ((ask 0 heir (.acceptCampaignTransfer 1)).env Sample.host [token, newToken])
      s (.acceptCampaignTransfer 1) = .ok s' := by
    simp only [invoke, dispatch, bind_eq_ok, rejectIf_eq_ok]
    exact ⟨(), by decide, haccept⟩
  refine ⟨_, _, _, _, run.step hnominate, List.forall_mem_cons.mpr
    ⟨(fun c record hcall => by cases hcall), hlast⟩, step rfl hinvoke, fun hfrom => ?_⟩
  have hmem := hfrom 1 _ rfl hcampaign
  have hlastBucket : s.campaigns.creatorCampaignsBucket creator 1 = [501] := by
    subst hs
    exact (stocked.chunks 1).trans (by decide +kernel)
  have htotal : s.campaigns.creatorCampaignCount creator = 501 := by
    subst hs
    exact hcount
  have hcreator : ((params (title 0) 0).campaign 1 864000).creator = creator := rfl
  rw [hcreator, htotal] at hmem
  change 1 ∈ s.campaigns.creatorCampaignsBucket creator 1 at hmem
  rw [hlastBucket] at hmem
  exact absurd hmem (by decide)

end Sample

/-- The claim fails where a bucket before the last one lost an entry: a page of
one entry never returns. -/
theorem creatorIndex_stalls : ∃ tr cfg, Run (machine Sample.host) tr cfg ∧
    ∃ X start, start < cfg.state.campaigns.creatorCampaignCount X ∧
      ∀ fuel, getCreatorCampaigns cfg.state X start 1 fuel = none := by
  obtain ⟨tr, cfg, r, cfg', run, hlast, step, hnot⟩ := Sample.crowded
  exact ⟨_, cfg', run.step step, handOver_stalls run hlast step hnot⟩

end ProofOfHeart
