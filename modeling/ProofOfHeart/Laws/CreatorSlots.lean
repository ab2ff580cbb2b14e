import ProofOfHeart.Board.Posting
import ProofOfHeart.Laws.CreatorPaging
import ProofOfHeart.Lib.Slots

/-! # The slots of the creator index

Whatever the order of creations and hand-overs, the position table of a creator
names the one slot of each of its campaigns, so a hand-over always finds the
campaign it takes out.
-/

namespace ProofOfHeart

open Checked Function Table Trace Slots

variable {host : Host} {tr : List Receipt} {cfg : Config} {c : Nat} {s : State} {env : Env}

/-- Every campaign stands in one slot, at the position its creator records. -/
structure Placed (index : CreatorIndex) (owner : Nat → Option Address) : Prop where
  places : ∀ X, Places (index.bucket X) (index.position X)
  owned : ∀ X c, index.position X c ≠ none ↔ owner c = some X
  count : ∀ X, Holds (index.bucket X) (index.count X)

section Placed

variable {index : CreatorIndex} {owner : Nat → Option Address} {X : Address}

theorem Placed.unowned (h : Placed index owner) (hother : owner c ≠ some X) :
    index.position X c = none := by
  by_contra hsome
  exact hother ((h.owned X c).mp hsome)

theorem Placed.append (h : Placed index owner) (hfree : owner c = none) :
    Placed (index.append X c) (update owner c (some X)) where
  places Y := by
    by_cases hY : Y = X
    · subst hY
      have hnone : index.position Y c = none := h.unowned (by simp [hfree])
      simpa [CreatorIndex.append] using (h.places Y).append hnone
    · simpa [CreatorIndex.append, hY] using h.places Y
  owned Y d := by
    by_cases hd : d = c
    · subst hd
      have hnone : index.position Y d = none := h.unowned (by simp [hfree])
      by_cases hY : Y = X
      · simp [CreatorIndex.append, hY]
      · simp [CreatorIndex.append, hY, Ne.symm hY, hnone]
    · by_cases hY : Y = X
      · subst hY
        simpa [CreatorIndex.append, hd] using h.owned Y d
      · simpa [CreatorIndex.append, hY, hd] using h.owned Y d
  count Y := by
    by_cases hY : Y = X
    · subst hY
      have hmore : Holds (update (index.bucket Y) (index.count Y / creatorCampaignsBucketSize)
          (index.bucket Y (index.count Y / creatorCampaignsBucketSize) ++ [c]))
          (index.count Y + 1) :=
        (h.count Y).update (by rw [List.length_append, List.length_singleton]; omega)
      simpa [CreatorIndex.append] using hmore
    · simpa [CreatorIndex.append, hY] using h.count Y

theorem CreatorIndex.remove_position_self {bucketIdx slotIdx last : Nat} :
    (index.remove X c bucketIdx slotIdx last).position X =
      update (if slotIdx ≠ (index.bucket X bucketIdx).length - 1 then
        update (index.position X) last (some (bucketIdx, slotIdx))
      else index.position X) c none := by
  by_cases hend : slotIdx = (index.bucket X bucketIdx).length - 1
  · simp [CreatorIndex.remove, hend]
  · simp [CreatorIndex.remove, hend]

theorem CreatorIndex.remove_position_of_ne {bucketIdx slotIdx last : Nat} {Y : Address}
    (hY : Y ≠ X) : (index.remove X c bucketIdx slotIdx last).position Y = index.position Y := by
  by_cases hend : slotIdx = (index.bucket X bucketIdx).length - 1
  · simp [CreatorIndex.remove, hend, hY]
  · simp [CreatorIndex.remove, hend, hY]

theorem Placed.remove {bucketIdx slotIdx last : Nat} (h : Placed index owner)
    (hslot : (index.bucket X bucketIdx)[slotIdx]? = some c)
    (hlast : (index.bucket X bucketIdx).getLast? = some last) :
    Placed (index.remove X c bucketIdx slotIdx last) (update owner c none) where
  places Y := by
    by_cases hY : Y = X
    · subst hY
      rw [CreatorIndex.remove_position_self]
      simpa [CreatorIndex.remove] using (h.places Y).remove hslot hlast
    · rw [CreatorIndex.remove_position_of_ne hY]
      simpa [CreatorIndex.remove, hY] using h.places Y
  owned Y d := by
    have howner : owner c = some X := by
      rw [← h.owned, (h.places X c bucketIdx slotIdx).mpr hslot]
      exact Option.some_ne_none _
    have hmoved : owner last = some X := by
      rw [List.getLast?_eq_getElem?] at hlast
      rw [← h.owned, (h.places X last bucketIdx _).mpr hlast]
      exact Option.some_ne_none _
    by_cases hY : Y = X
    · subst hY
      rw [CreatorIndex.remove_position_self]
      by_cases hd : d = c
      · simp [hd]
      · rw [update_of_ne hd, update_of_ne hd, ← h.owned]
        split
        next =>
            by_cases hl : d = last
            · subst hl
              simp [h.owned, hmoved]
            · rw [update_of_ne hl]
        next => exact Iff.rfl
    · rw [CreatorIndex.remove_position_of_ne hY, h.owned]
      by_cases hd : d = c
      · subst hd
        simp [howner, Ne.symm hY]
      · rw [update_of_ne hd]
  count Y := by
    by_cases hY : Y = X
    · subst hY
      have hpos : 0 < (index.bucket Y bucketIdx).length :=
        List.length_pos_of_mem (List.mem_of_getElem? hslot)
      have hle := (h.count Y).length_le bucketIdx
      have hless : Holds (update (index.bucket Y) bucketIdx
          ((index.bucket Y bucketIdx).set slotIdx last).dropLast) (index.count Y - 1) :=
        (h.count Y).update (by rw [List.length_dropLast, List.length_set]; omega)
      simpa [CreatorIndex.remove] using hless
    · simpa [CreatorIndex.remove, hY] using h.count Y

end Placed

theorem run_placed (run : Run (machine host) tr cfg) :
    Placed (view cfg.state).creators (view cfg.state).owner := by
  refine run.invariant (I := fun _ cfg =>
    Placed (view cfg.state).creators (view cfg.state).owner) ?_ ?_ ?_
  · intro r cfg hstart
    have hfresh := start_fresh hstart
    rw [hfresh.creators]
    refine ⟨fun X => Places.empty, fun X c => ?_, fun X => Holds.empty⟩
    simp [View.owner, hfresh.campaign]
  · rintro tr cfg r cfg' run placed ⟨hvalid, -, hpre, rfl⟩
    have sane := run_sane run
    rw [← hpre] at sane placed
    cases (hvalid.effect sane.toConfigured).indexed with
    | created index owner =>
        rw [index, owner]
        exact placed.append sane.next_owner
    | @handedOver c _ _ _ _ heir hcall hrecord other hslot hlast index owner =>
        have hmoved := (placed.remove hslot hlast).append (c := c) (X := heir) (update_self ..)
        rw [update_idem] at hmoved
        rw [index, owner]
        exact hmoved
    | kept index owner =>
        rw [index, owner]
        exact placed
  · rintro tr cfg cfg' ih ⟨tokens, -, rfl⟩
    exact ih

/-! ## The reverse index -/

theorem run_creatorOf (run : Run (machine host) tr cfg) :
    (board cfg.state).creatorOf = (view cfg.state).owner := by
  refine run.invariant (I := fun _ cfg =>
    (board cfg.state).creatorOf = (view cfg.state).owner) ?_ ?_ ?_
  · intro r cfg hstart
    rw [start_board hstart]
    funext c
    simp [Board.blank, View.owner, (start_fresh hstart).campaign]
  · rintro tr cfg r cfg' run ih ⟨hvalid, -, hpre, rfl⟩
    have sane := run_sane run
    rw [← hpre] at sane ih
    have heffect := hvalid.effect sane.toConfigured
    have hkept := heffect.owner_kept
    generalize hcall : r.call = call at heffect hkept
    have hposting := hvalid.posting sane.toConfigured
    rw [hcall] at hposting
    cases hposting with
    | create hcall fresh h =>
        rw [h, heffect.owner_create hcall]
        exact congrArg (update · _ _) ih
    | handOver hrecord pending h =>
        obtain ⟨record, heir, hrecord', pending', howner⟩ := heffect.owner_handOver
        obtain rfl := Option.some.inj (hrecord.symm.trans hrecord')
        obtain rfl := Option.some.inj (pending.symm.trans pending')
        rw [h, howner]
        exact congrArg (update · _ _) ih
    | cancel hcall hrecord live h =>
        rw [h, hkept (by rcases hcall with rfl | ⟨_, _, rfl⟩ <;> rfl)
          (by rcases hcall with rfl | ⟨_, _, rfl⟩ <;> rfl)]
        exact ih
    | describe hrecord h =>
        rw [h, hkept rfl rfl]
        split <;> exact ih
    | votingRules hcall h | entries hcall h | kept hcall h =>
        have hcreates : call.creates = none := by cases call <;> first | rfl | cases hcall
        have hhandsOver : call.handsOver = none := by cases call <;> first | rfl | cases hcall
        rw [h, hkept hcreates hhandsOver]
        exact ih
    | contribute _ h | batch h | refund h | verify h | certify _ _ _ h | verifyBatch h
    | vote _ _ _ _ _ h | purge _ _ h =>
        rw [h, hkept rfl rfl]
        exact ih
  · rintro tr cfg cfg' ih ⟨tokens, -, rfl⟩
    exact ih

/-! ## Hand-overs always find their campaign -/

/-- The index checks of a hand-over never fail. -/
theorem acceptCampaignTransfer_not_invalid (placed : Placed (view s).creators (view s).owner) :
    acceptCampaignTransfer env s c ≠ .error (.err .validationFailed) := by
  intro h
  simp only [acceptCampaignTransfer, getCampaignOrError, requireActiveCampaign, requireNotPaused,
    requireAuth, appendToCreator, bind_eq_error, okOr_eq_error, rejectIf_eq_error,
    pure_eq_error, Abort.err.injEq, reduceCtorEq, and_false, exists_false, or_false, false_or,
    okOr_eq_ok] at h
  obtain ⟨campaign, hcampaign, _, -, _, -, heir, -, _, -, _, -, h⟩ := h
  have howner : (view s).owner c = some campaign.creator := by
    rw [View.owner, ← campaign_view, hcampaign]
    rfl
  obtain ⟨⟨b, i⟩, hposition⟩ :=
    Option.ne_none_iff_exists'.mp ((placed.owned campaign.creator c).mpr howner)
  have hslot := (placed.places campaign.creator c b i).mp hposition
  obtain ⟨s', hs'⟩ := removeFromCreator_of hposition hslot
  rw [hs'] at h
  cases h

/-! ## The law -/

/-- Every campaign stands in exactly one slot, under its creator, and both indexes
say so; the counts are the lengths of the buckets; and no hand-over fails on the way. -/
theorem creatorIndex_placed (run : Run (machine host) tr cfg) :
    (∀ c record, cfg.state.campaigns.campaign c = some record →
      (∃ b i, cfg.state.campaigns.creatorCampaignPosition record.creator c = some (b, i) ∧
        (cfg.state.campaigns.creatorCampaignsBucket record.creator b)[i]? = some c ∧
        ∀ b' i', (cfg.state.campaigns.creatorCampaignsBucket record.creator b')[i']? = some c →
          b' = b ∧ i' = i) ∧
      (∀ Y, Y ≠ record.creator → cfg.state.campaigns.creatorCampaignPosition Y c = none ∧
        ∀ b, c ∉ cfg.state.campaigns.creatorCampaignsBucket Y b) ∧
      cfg.state.campaigns.campaignCreatorIndex c = some record.creator) ∧
    (∀ Y, Holds (cfg.state.campaigns.creatorCampaignsBucket Y)
        (cfg.state.campaigns.creatorCampaignCount Y) ∧
      cfg.state.campaigns.creatorCampaignCount Y =
        {c | ∃ record, cfg.state.campaigns.campaign c = some record ∧
          record.creator = Y}.ncard) ∧
    ∀ env c, invoke env cfg.state (.acceptCampaignTransfer c) ≠
      .error (.err .validationFailed) := by
  have placed := run_placed run
  have howner : ∀ c record, cfg.state.campaigns.campaign c = some record →
      (view cfg.state).owner c = some record.creator := fun c record hrecord => by
    rw [View.owner, ← campaign_view, hrecord]
    rfl
  refine ⟨fun c record hrecord => ⟨?_, fun Y hY => ?_, ?_⟩, fun Y => ⟨placed.count Y, ?_⟩,
    fun env c => ?_⟩
  · obtain ⟨⟨b, i⟩, hposition⟩ := Option.ne_none_iff_exists'.mp
      ((placed.owned record.creator c).mpr (howner c record hrecord))
    have hslot := (placed.places record.creator c b i).mp hposition
    exact ⟨b, i, hposition, hslot, fun b' i' hslot' =>
      (placed.places record.creator).unique hslot' hslot⟩
  · have hnone : (view cfg.state).creators.position Y c = none := by
      refine placed.unowned ?_
      rw [howner c record hrecord, ne_eq, Option.some.injEq]
      exact Ne.symm hY
    exact ⟨hnone, fun b hmem => (placed.places Y).mem_iff.mp ⟨b, hmem⟩ hnone⟩
  · exact (congrFun (run_creatorOf run) c).trans (howner c record hrecord)
  · have hcard := (placed.places Y).ncard (placed.count Y)
    rw [creatorCount_view, ← hcard]
    congr 1
    ext c
    rw [Set.mem_ofPred_eq, Set.mem_ofPred_eq, placed.owned, View.owner, Option.map_eq_some_iff]
    rfl
  · intro h
    simp only [invoke, dispatch, bind_eq_error, rejectIf_eq_error, reduceCtorEq, and_false,
      false_or] at h
    obtain ⟨_, -, h⟩ := h
    have hvalid : acceptCampaignTransfer env cfg.state.clearMoved c ≠
        .error (.err .validationFailed) := acceptCampaignTransfer_not_invalid placed
    exact hvalid h

theorem creatorSlots_sample : ∃ tr cfg, Run (machine Sample.host) tr cfg ∧
    cfg.state.campaigns.creatorCampaignPosition Sample.heir 1 = some (0, 0) ∧
    cfg.state.campaigns.campaignCreatorIndex 1 = some Sample.heir ∧
    cfg.state.campaigns.creatorCampaignCount Sample.creator =
      {c | ∃ record, cfg.state.campaigns.campaign c = some record ∧
        record.creator = Sample.creator}.ncard := by
  have h : Sample.Ends 300 Sample.handedOn fun tr cfg =>
      cfg.state.campaigns.creatorCampaignPosition Sample.heir 1 = some (0, 0) ∧
      cfg.state.campaigns.campaignCreatorIndex 1 = some Sample.heir := by decide +kernel
  obtain ⟨tr, cfg, run, hposition, hindex⟩ := h.run
  exact ⟨tr, cfg, run, hposition, hindex, ((creatorIndex_placed run).2.1 _).2⟩

end ProofOfHeart
