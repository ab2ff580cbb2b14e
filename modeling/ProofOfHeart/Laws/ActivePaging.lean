import ProofOfHeart.Lib.Cursors
import ProofOfHeart.Laws.CreatorPaging

/-! # Paging through the active campaigns

A full page and an exhausted window both hand back the number after the last one
that was looked at, and the next call begins after the number it is given. So the
number of the cursor itself is skipped.
-/

namespace ProofOfHeart

open Checked Trace Cursors Relation

variable {host : Host} {tr : List Receipt} {cfg : Config} {s : State}
  {limit c d : Nat} {campaigns : List Campaign} {ids : List Nat}

/-- Some active campaign that is not cancelled has the number. -/
def marks (s : State) (c : Nat) : Bool := (activeCampaign s c).isSome

/-- The pages that the pattern of active campaigns makes after a cursor. -/
abbrev ActivePage (s : State) (limit : Nat) : Nat → List Nat → Nat → Prop :=
  Page (marks s) s.campaigns.campaignCount (min limit listMaxLimit) maxScanWindow

/-- The cursors that the pattern of active campaigns makes. -/
abbrev ActiveFollows (s : State) (limit : Nat) : Nat → Nat → Prop :=
  Follows (marks s) s.campaigns.campaignCount (min limit listMaxLimit) maxScanWindow

/-- The last addition of a call gives the cursor, or passes the last number. -/
def lastSum (total d : Nat) : Nat := if d = 0 then total + 1 else d

@[simp] theorem lastSum_zero {total : Nat} : lastSum total 0 = total + 1 := rfl

@[simp] theorem lastSum_succ {total k : Nat} : lastSum total (k + 1) = k + 1 := rfl

/-- No addition of the call at cursor `c` overflows. -/
structure Fits (s : State) (limit c : Nat) : Prop where
  window : c + maxScanWindow < 2 ^ 32
  last : ∀ ids d, ActivePage s limit c ids d → lastSum s.campaigns.campaignCount d < 2 ^ 32

/-! ## One call -/

theorem activeCampaign_eq_some {record : Campaign} : activeCampaign s c = some record ↔
    s.campaigns.campaign c = some record ∧ record.isActive = true ∧
      record.isCancelled = false := by
  simp [activeCampaign, Option.filter_eq_some_iff]

theorem storedCampaigns_between (h : c ≤ d) :
    storedCampaigns s (between (marks s) c (d + 1)) =
      storedCampaigns s (between (marks s) c d) ++ (activeCampaign s (d + 1)).toList := by
  rw [between_succ h, storedCampaigns_append]
  congr 1
  cases hactive : activeCampaign s (d + 1) with
  | none =>
      have hunmarked : marks s (d + 1) = false := by rw [marks, hactive]; rfl
      simp [hunmarked, storedCampaigns]
  | some record =>
      have hmarked : marks s (d + 1) = true := by rw [marks, hactive]; rfl
      simp [hmarked, storedCampaigns, (activeCampaign_eq_some.mp hactive).1]

theorem storedCampaigns_between_length :
    (storedCampaigns s (between (marks s) c d)).length = (between (marks s) c d).length := by
  refine List.filterMap_length_eq_length.mpr fun n hn => ?_
  obtain ⟨record, hrecord⟩ := Option.isSome_iff_exists.mp (mem_between.mp hn).2
  rw [(activeCampaign_eq_some.mp hrecord).1]
  rfl

theorem activeLoop_over {size unread k : Nat} (hwindow : c + maxScanWindow < 2 ^ 32)
    (hover : c + maxScanWindow < k) :
    activeLoop s c size (unread + 1) k campaigns = .ok (campaigns, k) := by
  rw [activeLoop, Word.checkedAdd_of_lt hwindow]
  exact if_pos hover

theorem activeLoop_turn {size unread k : Nat} (hwindow : c + maxScanWindow < 2 ^ 32)
    (hinside : ¬ c + maxScanWindow < k) :
    activeLoop s c size (unread + 1) k campaigns =
      okOr (Word.checkedAdd 32 k 1) (.trap .arithmetic) >>= fun nextId =>
        if marks s k = true ∧ size ≤ (campaigns ++ (activeCampaign s k).toList).length then
          .ok (campaigns ++ (activeCampaign s k).toList, nextId)
        else activeLoop s c size unread nextId (campaigns ++ (activeCampaign s k).toList) := by
  rw [activeLoop, Word.checkedAdd_of_lt hwindow]
  exact if_neg hinside

/-- The loop from `k + 1` on, when it has collected the page up to `k`. -/
theorem activeLoop_page {size : Nat} (hwindow : c + maxScanWindow < 2 ^ 32)
    (htotal : s.campaigns.campaignCount < 2 ^ 32) :
    ∀ unread k, c ≤ k → k + unread = s.campaigns.campaignCount → k ≤ c + maxScanWindow →
      k + 1 < 2 ^ 32 ∨ 0 < unread → (between (marks s) c k).length < size →
      ∃ ids d, Page (marks s) s.campaigns.campaignCount size maxScanWindow c ids d ∧
        activeLoop s c size unread (k + 1) (storedCampaigns s (between (marks s) c k)) =
          if lastSum s.campaigns.campaignCount d < 2 ^ 32 then .ok (storedCampaigns s ids, d)
          else .error (.trap .arithmetic) := by
  intro unread
  induction unread with
  | zero =>
      intro k hck hk hin hfits hshort
      obtain rfl : k = s.campaigns.campaignCount := hk
      refine ⟨_, _, .last hin hshort, ?_⟩
      rw [activeLoop, lastSum_zero, if_pos (by omega)]
      rfl
  | succ unread ih =>
      intro k hck hk hin hfits hshort
      by_cases hover : c + maxScanWindow < k + 1
      · obtain rfl : k = c + maxScanWindow := by omega
        refine ⟨_, _, .window (by omega) hshort, ?_⟩
        rw [activeLoop_over hwindow hover, lastSum_succ, if_pos (by omega)]
      · have hone : (between (marks s) c (k + 1)).length ≤ (between (marks s) c k).length + 1 := by
          rw [between_succ hck, List.length_append]
          exact Nat.add_le_add_left (List.length_filter_le ..) _
        rw [activeLoop_turn hwindow hover, ← storedCampaigns_between hck,
          storedCampaigns_between_length]
        by_cases hfull : marks s (k + 1) = true ∧ size ≤ (between (marks s) c (k + 1)).length
        · refine ⟨_, _, .full hck (by omega) (by omega) hfull.1 (by omega), ?_⟩
          rw [lastSum_succ]
          by_cases hnext : k + 1 + 1 < 2 ^ 32
          · rw [Word.checkedAdd_of_lt hnext, if_pos hnext]
            exact if_pos hfull
          · rw [Word.checkedAdd_of_le (Nat.le_of_not_lt hnext), if_neg hnext]
            rfl
        · have hstill : (between (marks s) c (k + 1)).length < size := by
            by_contra hnot
            refine hfull ⟨?_, Nat.le_of_not_lt hnot⟩
            by_contra hunmarked
            rw [between_succ hck, List.filter_cons_of_neg hunmarked] at hnot
            exact hnot (by simpa using hshort)
          by_cases hnext : k + 1 + 1 < 2 ^ 32
          · obtain ⟨ids, d, page, hloop⟩ := ih (k + 1) (Nat.le_succ_of_le hck) (by omega)
              (by omega) (.inl hnext) hstill
            refine ⟨ids, d, page, ?_⟩
            rw [Word.checkedAdd_of_lt hnext, ← hloop]
            exact if_neg hfull
          · -- the last number of all is the greatest there is
            obtain rfl : unread = 0 := by omega
            have hlast : s.campaigns.campaignCount = k + 1 := by omega
            refine ⟨_, _, .last (by omega) (hlast ▸ hstill), ?_⟩
            rw [Word.checkedAdd_of_le (Nat.le_of_not_lt hnext), lastSum_zero, hlast,
              if_neg hnext]
            rfl

/-- A call before the last number returns a page, unless an addition overflows. -/
theorem listActiveCampaigns_page (hpos : 1 ≤ limit) (htotal : s.campaigns.campaignCount < 2 ^ 32)
    (hmore : c < s.campaigns.campaignCount) (hwindow : c + maxScanWindow < 2 ^ 32) :
    ∃ ids d, ActivePage s limit c ids d ∧ listActiveCampaigns s c limit =
      if lastSum s.campaigns.campaignCount d < 2 ^ 32 then .ok (storedCampaigns s ids, d)
      else .error (.trap .arithmetic) := by
  have hfirst : c + 1 < 2 ^ 32 := by omega
  have hsize : (between (marks s) c c).length < min limit listMaxLimit := by
    rw [between_self]
    exact Nat.lt_min.mpr ⟨hpos, by decide⟩
  obtain ⟨ids, d, page, hloop⟩ := activeLoop_page hwindow htotal (s.campaigns.campaignCount - c) c
    (Nat.le_refl c) (by omega) (Nat.le_add_right ..) (.inl hfirst) hsize
  refine ⟨ids, d, page, ?_⟩
  rw [between_self] at hloop
  rw [listActiveCampaigns, if_neg (by omega), Word.checkedAdd_of_lt hfirst, ← hloop]
  rfl

theorem listActiveCampaigns_over (h : s.campaigns.campaignCount ≤ c) :
    listActiveCampaigns s c limit = .ok ([], 0) := by
  rw [listActiveCampaigns, if_pos (.inl h)]
  rfl

theorem listActiveCampaigns_window (hpos : 1 ≤ limit) (hmore : c < s.campaigns.campaignCount)
    (h : listActiveCampaigns s c limit = .ok (campaigns, d)) : c + maxScanWindow < 2 ^ 32 := by
  rw [listActiveCampaigns, if_neg (by omega)] at h
  obtain ⟨unread, hunread⟩ := Nat.exists_eq_add_of_lt hmore
  rw [show s.campaigns.campaignCount - c = unread + 1 by omega] at h
  simp only [activeLoop, bind_eq_ok, okOr_eq_ok, Word.checkedAdd_eq_some] at h
  obtain ⟨_, -, _, ⟨-, hwindow⟩, -⟩ := h
  exact hwindow

/-- A call that returns before the last number overflows nowhere. -/
theorem fits_of_listActiveCampaigns (hpos : 1 ≤ limit)
    (htotal : s.campaigns.campaignCount < 2 ^ 32) (hmore : c < s.campaigns.campaignCount)
    (h : listActiveCampaigns s c limit = .ok (campaigns, d)) :
    Fits s limit c ∧ ∃ ids, ActivePage s limit c ids d ∧ campaigns = storedCampaigns s ids := by
  have hwindow := listActiveCampaigns_window hpos hmore h
  obtain ⟨ids, e, page, hpage⟩ := listActiveCampaigns_page hpos htotal hmore hwindow
  rw [hpage] at h
  split at h
  next hlast =>
      rw [Except.ok.injEq, Prod.mk.injEq] at h
      obtain ⟨rfl, rfl⟩ := h
      exact ⟨⟨hwindow, fun ids' e' page' => (page.unique page').2 ▸ hlast⟩, ids, page, rfl⟩
  next => cases h

/-! ## The whole iteration -/

/-- Passing back the returned cursor, until it is zero, gives these campaigns. -/
inductive Iterates (s : State) (limit : Nat) : Nat → List Campaign → Prop
  | last {cursor : Nat} {campaigns : List Campaign}
      (h : listActiveCampaigns s cursor limit = .ok (campaigns, 0)) :
      Iterates s limit cursor campaigns
  | next {cursor next : Nat} {campaigns later : List Campaign}
      (h : listActiveCampaigns s cursor limit = .ok (campaigns, next)) (hnext : next ≠ 0)
      (rest : Iterates s limit next later) : Iterates s limit cursor (campaigns ++ later)

/-- The numbers collected are those of the pattern, and no call on the way overflows. -/
theorem Iterates.collects (hpos : 1 ≤ limit) (htotal : s.campaigns.campaignCount < 2 ^ 32)
    (h : Iterates s limit c campaigns) :
    (∃ ids, Collects (marks s) s.campaigns.campaignCount (min limit listMaxLimit) maxScanWindow
      c ids ∧ campaigns = storedCampaigns s ids) ∧
    ∀ d, ReflTransGen (ActiveFollows s limit) c d → d < s.campaigns.campaignCount →
      Fits s limit d := by
  induction h with
  | @last cursor campaigns h =>
      rcases Nat.lt_or_ge cursor s.campaigns.campaignCount with hmore | hover
      · obtain ⟨fits, ids, page, rfl⟩ := fits_of_listActiveCampaigns hpos htotal hmore h
        refine ⟨⟨ids, .last hmore page, rfl⟩, fun d hd _ => ?_⟩
        rcases reflTransGen_iff_eq_or_transGen.mp hd with rfl | hafter
        · exact fits
        · exact absurd hafter (not_transGen_of_last page)
      · rw [listActiveCampaigns_over hover, Except.ok.injEq, Prod.mk.injEq] at h
        obtain ⟨rfl, -⟩ := h
        refine ⟨⟨[], .past hover, rfl⟩, fun d hd hlt => ?_⟩
        rcases reflTransGen_iff_eq_or_transGen.mp hd with rfl | hafter
        · omega
        · exact absurd hafter (not_transGen_of_over hover)
  | @next cursor next campaigns later h hnext rest ih =>
      rcases Nat.lt_or_ge cursor s.campaigns.campaignCount with hmore | hover
      · obtain ⟨fits, ids, page, rfl⟩ := fits_of_listActiveCampaigns hpos htotal hmore h
        obtain ⟨⟨more, hcollects, rfl⟩, hfits⟩ := ih
        refine ⟨⟨ids ++ more, .next hmore hnext page hcollects, ?_⟩, fun d hd => ?_⟩
        · rw [storedCampaigns_append]
        · rcases reflTransGen_iff_eq_or_transGen.mp hd with rfl | hafter
          · exact fun _ => fits
          · rcases (transGen_follows page hnext hmore).mp hafter with rfl | hlater
            · exact hfits _ .refl
            · exact hfits _ hlater.to_reflTransGen
      · rw [listActiveCampaigns_over hover, Except.ok.injEq, Prod.mk.injEq] at h
        exact absurd h.2.symm hnext

/-- Where no call overflows the iteration ends. -/
theorem iterates_of_fits (hpos : 1 ≤ limit) (htotal : s.campaigns.campaignCount < 2 ^ 32)
    (hfits : ∀ d, ReflTransGen (ActiveFollows s limit) c d → d < s.campaigns.campaignCount →
      Fits s limit d) :
    ∃ ids, Collects (marks s) s.campaigns.campaignCount (min limit listMaxLimit) maxScanWindow
      c ids ∧ Iterates s limit c (storedCampaigns s ids) := by
  induction hleft : s.campaigns.campaignCount - c using Nat.strong_induction_on generalizing c with
  | _ left ih =>
      subst hleft
      rcases Nat.lt_or_ge c s.campaigns.campaignCount with hmore | hover
      · have fits := hfits c .refl hmore
        obtain ⟨ids, d, page, hpage⟩ := listActiveCampaigns_page hpos htotal hmore fits.window
        rw [if_pos (fits.last ids d page)] at hpage
        by_cases hd : d = 0
        · subst hd
          exact ⟨ids, .last hmore page, .last hpage⟩
        · obtain ⟨k, rfl, hck, -⟩ := page.eq_between hd
          have hfollows : ActiveFollows s limit c (k + 1) := ⟨hmore, hd, ids, page⟩
          obtain ⟨more, hcollects, hrest⟩ := ih _ (by omega)
            (fun e he => hfits e (.head hfollows he)) rfl
          refine ⟨ids ++ more, .next hmore hd page hcollects, ?_⟩
          rw [storedCampaigns_append]
          exact .next hpage hd hrest
      · exact ⟨[], .past hover, .last (listActiveCampaigns_over hover)⟩

/-! ## The law -/

/-- The list holds each active campaign that is not cancelled, by ascending number. -/
structure ListsActive (s : State) (campaigns : List Campaign) : Prop where
  ascending : campaigns.Pairwise fun first next => first.id < next.id
  mem : ∀ record, record ∈ campaigns ↔ (∃ c, s.campaigns.campaign c = some record) ∧
    record.isActive = true ∧ record.isCancelled = false

/-- What is collected lists the active campaigns when it holds all their numbers. -/
theorem listsActive_iff (sane : (view s).Sane)
    (hid : ∀ c record, s.campaigns.campaign c = some record → record.id = c)
    (h : Collects (marks s) s.campaigns.campaignCount (min limit listMaxLimit) maxScanWindow
      0 ids) :
    ListsActive s (storedCampaigns s ids) ↔
      ∀ n, 0 < n → n ≤ s.campaigns.campaignCount → marks s n = true → n ∈ ids := by
  constructor
  · intro lists n _ _ hn
    obtain ⟨record, hrecord⟩ := Option.isSome_iff_exists.mp hn
    obtain ⟨hstored, hactive⟩ := activeCampaign_eq_some.mp hrecord
    obtain ⟨c, hc, hsame⟩ := List.mem_filterMap.mp ((lists.mem record).mpr ⟨⟨n, hstored⟩, hactive⟩)
    rwa [← hid n record hstored, hid c record hsame]
  · intro hall
    refine ⟨?_, fun record => ?_⟩
    · refine (between_pairwise.sublist h.sublist).filterMap _ fun m n hlt first hm next hn => ?_
      rwa [hid m first hm, hid n next hn]
    · rw [storedCampaigns, List.mem_filterMap]
      constructor
      · rintro ⟨c, hc, hrecord⟩
        obtain ⟨same, hsame⟩ := Option.isSome_iff_exists.mp
          (mem_between.mp (h.sublist.subset hc)).2
        obtain ⟨hstored, hactive⟩ := activeCampaign_eq_some.mp hsame
        rw [Option.some.inj (hrecord.symm.trans hstored)]
        exact ⟨⟨c, hstored⟩, hactive⟩
      · rintro ⟨⟨c, hrecord⟩, hactive⟩
        have hmarked : marks s c = true := by
          rw [marks, activeCampaign_eq_some.mpr ⟨hrecord, hactive⟩]
          rfl
        obtain ⟨hpos, hle⟩ := (sane.exists_iff c).mp ⟨_, View.account_of_campaign hrecord⟩
        exact ⟨c, hall c hpos hle hmarked, hrecord⟩

/-- The iteration ends and lists the active campaigns exactly when none of them has
the number of a cursor on the way and no call on the way overflows. -/
theorem activePaging_complete (run : Run (machine host) tr cfg) (hpos : 1 ≤ limit) :
    (∃ campaigns, Iterates cfg.state limit 0 campaigns ∧ ListsActive cfg.state campaigns) ↔
      (∀ d, TransGen (ActiveFollows cfg.state limit) 0 d →
        d ≤ cfg.state.campaigns.campaignCount → marks cfg.state d = false) ∧
      ∀ d, ReflTransGen (ActiveFollows cfg.state limit) 0 d →
        d < cfg.state.campaigns.campaignCount → Fits cfg.state limit d := by
  have htotal : cfg.state.campaigns.campaignCount < 2 ^ 32 := run_count_lt run
  have hid := fun c record hrecord => (run_stored run c record hrecord).1
  constructor
  · rintro ⟨campaigns, iterates, lists⟩
    obtain ⟨⟨ids, hcollects, rfl⟩, hfits⟩ := iterates.collects hpos htotal
    have hall := (listsActive_iff (run_sane run) hid hcollects).mp lists
    exact ⟨hcollects.complete_iff.mp hall, hfits⟩
  · rintro ⟨hclear, hfits⟩
    obtain ⟨ids, hcollects, iterates⟩ := iterates_of_fits hpos htotal hfits
    have hall := hcollects.complete_iff.mpr hclear
    exact ⟨_, iterates, (listsActive_iff (run_sane run) hid hcollects).mpr hall⟩

/-- With one campaign a page, an active campaign 1 fills the first page. -/
theorem firstPage (hactive : marks s 1 = true) (htotal : 1 ≤ s.campaigns.campaignCount) :
    ActivePage s 1 0 (between (marks s) 0 1) 2 := by
  refine .full (Nat.le_refl 0) htotal (by decide) hactive ?_
  rw [between_succ (Nat.le_refl 0), between_self, List.filter_cons_of_pos hactive]
  rfl

theorem activePaging_sample : ∃ tr cfg, Run (machine Sample.host) tr cfg ∧
    ∃ campaigns, Iterates cfg.state 1 0 campaigns ∧ ListsActive cfg.state campaigns := by
  have h : Sample.Ends 300 (Sample.opened 0) fun _ cfg =>
      cfg.state.campaigns.campaignCount = 1 ∧ marks cfg.state 1 = true := by decide +kernel
  obtain ⟨tr, cfg, run, htotal, hactive⟩ := h.run
  have page := firstPage hactive (Nat.le_of_eq htotal.symm)
  have hstops : ∀ d, TransGen (ActiveFollows cfg.state 1) 0 d → d = 2 := fun d hd =>
    ((transGen_follows page (by decide) (by omega)).mp hd).resolve_right
      (not_transGen_of_over (by omega))
  refine ⟨tr, cfg, run, (activePaging_complete run (Nat.le_refl 1)).mpr
    ⟨fun d hd hle => ?_, fun d hd hlt => ?_⟩⟩
  · have := hstops d hd
    omega
  · rcases reflTransGen_iff_eq_or_transGen.mp hd with rfl | hd
    · refine ⟨by decide, fun ids e page' => ?_⟩
      rw [(page'.unique page).2, lastSum_succ]
      decide
    · have := hstops d hd
      omega

/-- Of two active campaigns, pages of one list the first and skip the second. -/
theorem activePaging_skips : ∃ tr cfg, Run (machine Sample.host) tr cfg ∧
    ¬ ∃ campaigns, Iterates cfg.state 1 0 campaigns ∧ ListsActive cfg.state campaigns := by
  have h : Sample.Ends 300 (Sample.handedOn.take 2) fun _ cfg =>
      cfg.state.campaigns.campaignCount = 2 ∧ marks cfg.state 1 = true ∧
        marks cfg.state 2 = true := by decide +kernel
  obtain ⟨tr, cfg, run, htotal, hfirst, hsecond⟩ := h.run
  refine ⟨tr, cfg, run, ?_⟩
  rintro ⟨campaigns, iterates, lists⟩
  obtain ⟨⟨ids, hcollects, rfl⟩, -⟩ := iterates.collects (Nat.le_refl 1) (run_count_lt run)
  have hall := (listsActive_iff (run_sane run)
    (fun c record hrecord => (run_stored run c record hrecord).1) hcollects).mp lists
  have hfollows : ActiveFollows cfg.state 1 0 2 :=
    ⟨by omega, by decide, _, firstPage hfirst (by omega)⟩
  have hunmarked := hcollects.complete_iff.mp hall 2 (.single hfollows) (by omega)
  rw [hsecond] at hunmarked
  cases hunmarked

end ProofOfHeart
