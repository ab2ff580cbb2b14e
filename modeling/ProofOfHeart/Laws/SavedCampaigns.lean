import ProofOfHeart.Board.Entries
import ProofOfHeart.Laws.Batch
import ProofOfHeart.Laws.CreatorPaging

/-! # Bookmarks of a wallet

The list of a wallet is the sequence of the identifiers it has saved and not removed.
Saving one at a time stops at fifty; a batch makes every other check of the single
saves but does not look at the length of the list.
-/

namespace ProofOfHeart

open Checked Function Trace

variable {host : Host} {tr : List Receipt} {cfg : Config} {s s' : State} {r : Receipt}
  {env : Env} {call : Call} {user : Address} {c : Nat} {ids saved : List Nat}

/-! ## What the wallets have saved -/

/-- What a call makes of the list of a wallet. -/
def Call.saves (user : Address) (saved : List Nat) : Call → List Nat
  | .saveCampaign who c => if who = user then saved ++ [c] else saved
  | .batchSaveCampaigns who ids => if who = user then saved ++ ids else saved
  | .removeSavedCampaign who c => if who = user then saved.filter (· ≠ c) else saved
  | .clearSavedCampaigns who => if who = user then [] else saved
  | _ => saved

/-- The wallet and the identifiers of a batch. -/
def Call.batch : Call → Option (Address × List Nat)
  | .batchSaveCampaigns user ids => some (user, ids)
  | _ => none

theorem Call.batch_eq_some : call.batch = some (user, ids) ↔
    call = .batchSaveCampaigns user ids := by
  cases call <;> simp [Call.batch]

/-- What a wallet has saved in a run and not removed since, in the order of saving. -/
def savedBy (user : Address) : List Receipt → List Nat
  | [] => []
  | r :: earlier => r.call.saves user (savedBy user earlier)

/-- The entries are distinct campaigns. -/
structure Bookmarked (campaign : Nat → Option Campaign) (saved : List Nat) : Prop where
  nodup : saved.Nodup
  created : ∀ c ∈ saved, ∃ record, campaign c = some record

/-! ## Saving one by one and in a batch -/

theorem saveInBatch_step {t : List Nat} : saveInBatch s saved c = .ok t ↔
    (∃ record, s.campaigns.campaign c = some record) ∧ c ∉ saved ∧ t = saved ++ [c] := by
  simp only [saveInBatch, getCampaignOrError, bind_eq_ok, okOr_eq_ok, rejectIf_eq_ok, pure_eq_ok]
  constructor
  · rintro ⟨record, hrecord, _, hfresh, rfl⟩
    exact ⟨⟨record, hrecord⟩, hfresh, rfl⟩
  · rintro ⟨⟨record, hrecord⟩, hfresh, rfl⟩
    exact ⟨record, hrecord, (), hfresh, rfl⟩

/-- The batch loop makes every check but the one of the length. -/
theorem saveInBatch_each {t : List Nat} : ∀ {saved : List Nat}, saved.Nodup →
    (each (saveInBatch s) saved ids = .ok t ↔ t = saved ++ ids ∧ (saved ++ ids).Nodup ∧
      ∀ c ∈ ids, ∃ record, s.campaigns.campaign c = some record) := by
  induction ids with
  | nil =>
      intro saved hnodup
      rw [each_nil, List.append_nil]
      simp [hnodup, eq_comm]
  | cons c rest ih =>
      intro saved hnodup
      rw [each_cons_eq_ok, List.forall_mem_cons, List.append_cons]
      constructor
      · rintro ⟨m, hm, hrest⟩
        obtain ⟨hcreated, hfresh, rfl⟩ := saveInBatch_step.mp hm
        have hnext : (saved ++ [c]).Nodup := List.nodup_append_comm.mp (hnodup.cons hfresh)
        obtain ⟨rfl, hall, hexist⟩ := (ih hnext).mp hrest
        exact ⟨rfl, hall, hcreated, hexist⟩
      · rintro ⟨rfl, hall, hcreated, hexist⟩
        have hnext : (saved ++ [c]).Nodup := hall.sublist (List.sublist_append_left ..)
        have hfresh : c ∉ saved := fun hmem =>
          (List.nodup_append.mp hnext).2.2 c hmem c (List.mem_singleton_self c) rfl
        exact ⟨_, saveInBatch_step.mpr ⟨hcreated, hfresh, rfl⟩, (ih hnext).mpr ⟨rfl, hall, hexist⟩⟩

/-- The single saves, one after another. -/
def saveEach (env : Env) (s : State) (user : Address) (ids : List Nat) : Outcome State :=
  each (fun s c => saveCampaign env s user c) s ids

/-- What the batch asks of the wallet and of the identifiers. -/
structure Savable (env : Env) (s : State) (user : Address) (ids : List Nat) : Prop where
  signed : env.auth user = true
  distinct : (s.bookmarks.savedCampaigns user ++ ids).Nodup
  created : ∀ c ∈ ids, ∃ record, s.campaigns.campaign c = some record

theorem batchSaveCampaigns_eq_ok (hnodup : (s.bookmarks.savedCampaigns user).Nodup) :
    batchSaveCampaigns env s user ids = .ok s' ↔ Savable env s user ids ∧
      s' = setSavedCampaigns s user (s.bookmarks.savedCampaigns user ++ ids) := by
  simp only [batchSaveCampaigns, requireAuth, bind_eq_ok, rejectIf_eq_ok, pure_eq_ok,
    saveInBatch_each hnodup, Bool.not_eq_false]
  constructor
  · rintro ⟨_, hauth, _, ⟨rfl, hdistinct, hcreated⟩, rfl⟩
    exact ⟨⟨hauth, hdistinct, hcreated⟩, rfl⟩
  · rintro ⟨⟨hauth, hdistinct, hcreated⟩, rfl⟩
    exact ⟨(), hauth, _, ⟨rfl, hdistinct, hcreated⟩, rfl⟩

theorem saveCampaign_eq_ok (hnodup : (s.bookmarks.savedCampaigns user).Nodup) :
    saveCampaign env s user c = .ok s' ↔ Savable env s user [c] ∧
      (s.bookmarks.savedCampaigns user).length < maxBookmarksPerWallet ∧
      s' = setSavedCampaigns s user (s.bookmarks.savedCampaigns user ++ [c]) := by
  simp only [saveCampaign, getCampaignOrError, requireAuth, bind_eq_ok, okOr_eq_ok, rejectIf_eq_ok,
    pure_eq_ok, Bool.not_eq_false, ge_iff_le, Nat.not_le]
  constructor
  · rintro ⟨_, hauth, record, hrecord, _, hfresh, _, hroom, rfl⟩
    have hdistinct : (s.bookmarks.savedCampaigns user ++ [c]).Nodup :=
      List.nodup_append_comm.mp (hnodup.cons hfresh)
    have hcreated : ∀ c' ∈ [c], ∃ record, s.campaigns.campaign c' = some record :=
      List.forall_mem_singleton.mpr ⟨record, hrecord⟩
    exact ⟨⟨hauth, hdistinct, hcreated⟩, hroom, rfl⟩
  · rintro ⟨⟨hauth, hdistinct, hcreated⟩, hroom, rfl⟩
    obtain ⟨record, hrecord⟩ := hcreated c (List.mem_singleton_self c)
    have hfresh : c ∉ s.bookmarks.savedCampaigns user := fun hmem =>
      (List.nodup_append.mp hdistinct).2.2 c hmem c (List.mem_singleton_self c) rfl
    exact ⟨(), hauth, record, hrecord, (), hfresh, (), hroom, rfl⟩

@[simp] theorem setSavedCampaigns_saved : (setSavedCampaigns s user saved).bookmarks.savedCampaigns
    user = saved := update_self ..

@[simp] theorem setSavedCampaigns_twice {again : List Nat} :
    setSavedCampaigns (setSavedCampaigns s user saved) user again =
      setSavedCampaigns s user again := by
  simp [setSavedCampaigns]

theorem Savable.cons_iff : Savable env s user (c :: ids) ↔ Savable env s user [c] ∧
    Savable env (setSavedCampaigns s user (s.bookmarks.savedCampaigns user ++ [c])) user ids := by
  constructor
  · rintro ⟨signed, distinct, created⟩
    obtain ⟨hfirst, hrest⟩ := List.forall_mem_cons.mp created
    rw [List.append_cons] at distinct
    refine ⟨⟨signed, distinct.sublist (List.sublist_append_left ..),
      List.forall_mem_singleton.mpr hfirst⟩, ⟨signed, ?_, hrest⟩⟩
    rwa [setSavedCampaigns_saved]
  · rintro ⟨⟨signed, -, hfirst⟩, ⟨-, distinct, hrest⟩⟩
    rw [setSavedCampaigns_saved, ← List.append_cons] at distinct
    exact ⟨signed, distinct,
      List.forall_mem_cons.mpr ⟨hfirst c (List.mem_singleton_self c), hrest⟩⟩

/-- The single saves go through when the batch does and the list stays short enough. -/
theorem saveEach_eq_ok : ∀ {s : State}, (s.bookmarks.savedCampaigns user).Nodup →
    (saveEach env s user ids = .ok s' ↔
      (ids = [] ∨ Savable env s user ids ∧
        (s.bookmarks.savedCampaigns user).length + ids.length ≤ maxBookmarksPerWallet) ∧
      s' = setSavedCampaigns s user (s.bookmarks.savedCampaigns user ++ ids)) := by
  unfold saveEach
  induction ids with
  | nil =>
      intro s hnodup
      have hsame : setSavedCampaigns s user (s.bookmarks.savedCampaigns user) = s := by
        rw [setSavedCampaigns, update_eq_self]
      rw [each_nil, List.append_nil, hsame]
      simp [eq_comm]
  | cons c rest ih =>
      intro s hnodup
      generalize hnext : setSavedCampaigns s user (s.bookmarks.savedCampaigns user ++ [c]) = next
      have hheld : next.bookmarks.savedCampaigns user =
          s.bookmarks.savedCampaigns user ++ [c] := by rw [← hnext, setSavedCampaigns_saved]
      have hlast : setSavedCampaigns next user (next.bookmarks.savedCampaigns user ++ rest) =
          setSavedCampaigns s user (s.bookmarks.savedCampaigns user ++ c :: rest) := by
        rw [hheld, ← hnext, setSavedCampaigns_twice, ← List.append_cons]
      have hlength : (next.bookmarks.savedCampaigns user).length + rest.length =
          (s.bookmarks.savedCampaigns user).length + (c :: rest).length := by
        rw [hheld, List.length_append, List.length_singleton, List.length_cons]
        omega
      rw [each_cons_eq_ok, Savable.cons_iff, hnext]
      constructor
      · rintro ⟨m, hm, hrest⟩
        obtain ⟨hfirst, hroom, rfl⟩ := (saveCampaign_eq_ok hnodup).mp hm
        have hdistinct := hfirst.distinct
        rw [← hheld] at hdistinct
        rw [hnext, ih hdistinct, hlast, hlength] at hrest
        obtain ⟨hsavable, rfl⟩ := hrest
        refine ⟨.inr ?_, rfl⟩
        rcases hsavable with rfl | ⟨hsavable, hwithin⟩
        · refine ⟨⟨hfirst, hfirst.signed, ?_, fun _ h => absurd h List.not_mem_nil⟩, hroom⟩
          rwa [List.append_nil]
        · exact ⟨⟨hfirst, hsavable⟩, hwithin⟩
      · rintro ⟨hsavable, rfl⟩
        obtain ⟨⟨hfirst, hrest⟩, hwithin⟩ := hsavable.resolve_left (List.cons_ne_nil _ _)
        have hdistinct := hfirst.distinct
        have hroom : (s.bookmarks.savedCampaigns user).length < maxBookmarksPerWallet := by
          rw [List.length_cons] at hwithin
          omega
        rw [← hheld] at hdistinct
        refine ⟨next, (saveCampaign_eq_ok hnodup).mpr ⟨hfirst, hroom, hnext.symm⟩, ?_⟩
        rw [ih hdistinct, hlast, hlength]
        exact ⟨.inr ⟨hrest, hwithin⟩, rfl⟩

/-! ## The lists along a run -/

theorem Call.saves_of_keeps (hcall : call.setsEntries = false) : call.saves user saved = saved := by
  cases call with
  | saveCampaign | batchSaveCampaigns | removeSavedCampaign | clearSavedCampaigns => cases hcall
  | _ => rfl

theorem update_saves {f : Address → List Nat} {who : Address} {next : List Nat} :
    update f who next user = if who = user then next else f user := by
  rw [update_apply]
  exact if_congr eq_comm rfl rfl

theorem EntryStep.saves {b : Board} (h : EntryStep env s call b)
    (hnodup : ∀ user, ((board s).saved user).Nodup) (user : Address) :
    b.saved user = call.saves user ((board s).saved user) := by
  cases h with
  | save =>
      dsimp only [Call.saves]
      rw [update_saves]
      split
      next heq => rw [heq]
      next => rfl
  | saveBatch signed hsaved =>
      dsimp only [Call.saves]
      rw [update_saves, ((saveInBatch_each (hnodup _)).mp hsaved).1]
      split
      next heq => rw [heq]
      next => rfl
  | @unsave who c signed held =>
      dsimp only [Call.saves]
      rw [update_saves, List.eraseIdx_idxOf_eq_erase, (hnodup who).erase_eq_filter]
      split
      next heq =>
          rw [heq]
          exact List.filter_congr fun other _ => Bool.eq_iff_iff.mpr (by simp)
      next => rfl
  | clear => exact update_saves
  | censure =>
      unfold Board.censure
      split <;> rfl
  | uncensure =>
      unfold Board.uncensure
      split <;> rfl
  | _ => rfl

/-- What an entry leaves are distinct campaigns again. -/
theorem EntryStep.bookmarked {b : Board} (h : EntryStep env s call b)
    (held : ∀ user, Bookmarked s.campaigns.campaign ((board s).saved user)) (user : Address) :
    Bookmarked s.campaigns.campaign (b.saved user) := by
  have hsame := h.saves (fun user => (held user).nodup) user
  rw [hsame]
  obtain ⟨nodup, created⟩ := held user
  cases h with
  | @save who c signed hcreated fresh room =>
      dsimp only [Call.saves]
      split
      next heq =>
          subst heq
          exact ⟨List.nodup_append_comm.mp (nodup.cons fresh),
            List.forall_mem_append.mpr ⟨created, List.forall_mem_singleton.mpr hcreated⟩⟩
      next => exact ⟨nodup, created⟩
  | @saveBatch who ids next signed hsaved =>
      dsimp only [Call.saves]
      split
      next heq =>
          subst heq
          obtain ⟨-, hdistinct, hall⟩ := (saveInBatch_each nodup).mp hsaved
          exact ⟨hdistinct, List.forall_mem_append.mpr ⟨created, hall⟩⟩
      next => exact ⟨nodup, created⟩
  | unsave =>
      dsimp only [Call.saves]
      split
      next => exact ⟨nodup.filter _, fun c hc => created c (List.mem_of_mem_filter hc)⟩
      next => exact ⟨nodup, created⟩
  | clear =>
      dsimp only [Call.saves]
      split
      next => exact ⟨List.nodup_nil, fun c hc => absurd hc List.not_mem_nil⟩
      next => exact ⟨nodup, created⟩
  | _ => exact ⟨nodup, created⟩

theorem dispatch_saves (hcall : call.deploys = false) (h : dispatch env s call = .ok s')
    (held : ∀ user, Bookmarked s.campaigns.campaign ((board s).saved user)) (user : Address) :
    (board s').saved user = call.saves user ((board s).saved user) ∧
      Bookmarked s.campaigns.campaign ((board s').saved user) := by
  cases hsets : call.setsEntries with
  | true =>
      have hentry := dispatch_entry hsets h
      exact ⟨hentry.saves (fun user => (held user).nodup) user, hentry.bookmarked held user⟩
  | false =>
      rw [Call.saves_of_keeps hsets]
      rcases dispatch_entries hcall h with ⟨-, hsame, -⟩ | hentry
      · rw [hsame]
        exact ⟨rfl, held user⟩
      · have hkept := hentry.saves (fun user => (held user).nodup) user
        rw [Call.saves_of_keeps hsets] at hkept
        rw [hkept]
        exact ⟨rfl, held user⟩

/-- Campaigns are never removed. -/
theorem Receipt.Valid.bookmarked (h : r.Valid host) (sane : (view r.pre).Sane)
    (held : Bookmarked r.pre.campaigns.campaign saved) :
    Bookmarked r.post.campaigns.campaign saved := by
  refine ⟨held.nodup, fun c hc => ?_⟩
  obtain ⟨record, hrecord⟩ := held.created c hc
  obtain ⟨delta, -, hexisting⟩ := (h.stepped sane).existing
  obtain ⟨a', ha', -⟩ := hexisting c _ (View.account_of_campaign hrecord)
  exact ⟨a'.record, (View.account_eq_some.mp ha').1⟩

/-- Each list is what the wallet has saved, and its entries are distinct campaigns. -/
theorem run_bookmarked (run : Run (machine host) tr cfg) (user : Address) :
    cfg.state.bookmarks.savedCampaigns user = savedBy user tr ∧
      Bookmarked cfg.state.campaigns.campaign (cfg.state.bookmarks.savedCampaigns user) := by
  revert user
  refine run.invariant (I := fun tr cfg => ∀ user,
    cfg.state.bookmarks.savedCampaigns user = savedBy user tr ∧
      Bookmarked cfg.state.campaigns.campaign (cfg.state.bookmarks.savedCampaigns user)) ?_ ?_ ?_
  · intro r cfg hstart user
    have hempty : cfg.state.bookmarks.savedCampaigns user = [] :=
      congrArg (fun b : Board => b.saved user) (start_board hstart)
    obtain ⟨-, -, ⟨admin, token, platformFee, hcall⟩, -⟩ := hstart
    rw [hempty, savedBy, hcall]
    exact ⟨rfl, List.nodup_nil, fun c hc => absurd hc List.not_mem_nil⟩
  · rintro tr cfg r cfg' run ih ⟨hvalid, -, hpre, rfl⟩ user
    have sane := run_sane run
    rw [← hpre] at sane ih
    obtain ⟨hsaves, hheld⟩ :=
      dispatch_saves (hvalid.not_deploys sane.toConfigured) hvalid.dispatched
        (fun user => (ih user).2) user
    refine ⟨hsaves.trans ?_, hvalid.bookmarked sane hheld⟩
    exact congrArg (r.call.saves user) (ih user).1
  · rintro tr cfg cfg' ih ⟨tokens, -, rfl⟩ user
    exact ih user

/-! ## The law -/

/-- A batch leaves the list of its wallet within the limit. -/
def Receipt.SavesWithin (r : Receipt) : Prop :=
  ∀ user ids, r.call = .batchSaveCampaigns user ids →
    (r.pre.bookmarks.savedCampaigns user).length + ids.length ≤ maxBookmarksPerWallet

instance (r : Receipt) : Decidable r.SavesWithin :=
  decidable_of_iff (∀ asked : Address × List Nat, r.call.batch = some asked →
      (r.pre.bookmarks.savedCampaigns asked.1).length + asked.2.length ≤ maxBookmarksPerWallet)
    ⟨fun h user ids hcall => h (user, ids) (Call.batch_eq_some.mpr hcall),
      fun h asked hbatch => h asked.1 asked.2 (Call.batch_eq_some.mp hbatch)⟩

/-- The lists are within the limit, and a batch did what the single saves do. -/
structure Receipt.SavesAgree (r : Receipt) : Prop where
  short : ∀ user, (r.post.bookmarks.savedCampaigns user).length ≤ maxBookmarksPerWallet
  oneByOne : ∀ user ids, r.call = .batchSaveCampaigns user ids →
    saveEach r.env r.pre.clearMoved user ids = .ok r.post

theorem Call.saves_length {limit : Nat} (hsaved : saved.length ≤ limit)
    (hone : ∀ c, call = .saveCampaign user c → saved.length + 1 ≤ limit)
    (hbatch : ∀ ids, call = .batchSaveCampaigns user ids → saved.length + ids.length ≤ limit) :
    (call.saves user saved).length ≤ limit := by
  cases call with
  | saveCampaign who c =>
      dsimp only [Call.saves]
      split
      next heq =>
          rw [List.length_append, List.length_singleton]
          exact hone c (heq ▸ rfl)
      next => exact hsaved
  | batchSaveCampaigns who ids =>
      dsimp only [Call.saves]
      split
      next heq =>
          rw [List.length_append]
          exact hbatch ids (heq ▸ rfl)
      next => exact hsaved
  | removeSavedCampaign =>
      dsimp only [Call.saves]
      split
      next => exact Nat.le_trans (List.length_filter_le ..) hsaved
      next => exact hsaved
  | clearSavedCampaigns =>
      dsimp only [Call.saves]
      split
      next => exact Nat.zero_le _
      next => exact hsaved
  | _ => exact hsaved

/-- Only a batch takes a list over the limit. -/
theorem Receipt.Valid.short (h : r.Valid host) (sane : (view r.pre).Sane)
    (held : ∀ user, Bookmarked r.pre.campaigns.campaign (r.pre.bookmarks.savedCampaigns user))
    (hpre : ∀ user, (r.pre.bookmarks.savedCampaigns user).length ≤ maxBookmarksPerWallet)
    (hwithin : r.SavesWithin) (user : Address) :
    (r.post.bookmarks.savedCampaigns user).length ≤ maxBookmarksPerWallet := by
  have hcall := h.not_deploys sane.toConfigured
  have hdispatch := h.dispatched
  have hsaves : r.post.bookmarks.savedCampaigns user =
      r.call.saves user (r.pre.bookmarks.savedCampaigns user) :=
    (dispatch_saves hcall hdispatch held user).1
  rw [hsaves]
  refine Call.saves_length (hpre user) (fun c hc => ?_) (hwithin user)
  rw [hc] at hdispatch
  have hnodup : (r.pre.clearMoved.bookmarks.savedCampaigns user).Nodup := (held user).nodup
  exact ((saveCampaign_eq_ok hnodup).mp hdispatch).2.1

/-- While every batch stays within the limit, so do the lists. -/
theorem run_short (run : Run (machine host) tr cfg) (hwithin : ∀ r ∈ tr, r.SavesWithin)
    (user : Address) :
    (cfg.state.bookmarks.savedCampaigns user).length ≤ maxBookmarksPerWallet := by
  revert user
  refine run.guarded (C := Receipt.SavesWithin) (I := fun _ cfg => ∀ user,
    (cfg.state.bookmarks.savedCampaigns user).length ≤ maxBookmarksPerWallet) ?_ ?_ ?_ hwithin
  · intro r cfg hstart _ user
    have hempty : cfg.state.bookmarks.savedCampaigns user = [] :=
      congrArg (fun b : Board => b.saved user) (start_board hstart)
    rw [hempty]
    exact Nat.zero_le _
  · rintro tr cfg r cfg' run - ih hbatch ⟨hvalid, -, hpre, rfl⟩ user
    have sane := run_sane run
    have held := fun user => (run_bookmarked run user).2
    rw [← hpre] at sane held ih
    exact hvalid.short sane held ih hbatch user
  · rintro tr cfg cfg' ih ⟨tokens, -, rfl⟩ user
    exact ih user

theorem Receipt.Valid.savesAgree_iff (h : r.Valid host) (sane : (view r.pre).Sane)
    (held : ∀ user, Bookmarked r.pre.campaigns.campaign (r.pre.bookmarks.savedCampaigns user))
    (hpre : ∀ user, (r.pre.bookmarks.savedCampaigns user).length ≤ maxBookmarksPerWallet) :
    r.SavesAgree ↔ r.SavesWithin := by
  constructor
  · rintro ⟨-, honeByOne⟩ user ids hcall
    have hnodup : (r.pre.clearMoved.bookmarks.savedCampaigns user).Nodup := (held user).nodup
    have hsingle := ((saveEach_eq_ok hnodup).mp (honeByOne user ids hcall)).1
    rcases hsingle with rfl | ⟨-, hlength⟩
    · exact hpre user
    · exact hlength
  · intro hwithin
    refine ⟨h.short sane held hpre hwithin, fun user ids hcall => ?_⟩
    have hdispatch := h.dispatched
    rw [hcall] at hdispatch
    have hnodup : (r.pre.clearMoved.bookmarks.savedCampaigns user).Nodup := (held user).nodup
    obtain ⟨hsavable, hpost⟩ := (batchSaveCampaigns_eq_ok hnodup).mp hdispatch
    exact (saveEach_eq_ok hnodup).mpr ⟨.inr ⟨hsavable, hwithin user ids hcall⟩, hpost⟩

/-- When a batch and the single saves have the same results. -/
theorem batchSave_eq_singles_iff (hnodup : (s.bookmarks.savedCampaigns user).Nodup) :
    (∀ s', batchSaveCampaigns env s user ids = .ok s' ↔ saveEach env s user ids = .ok s') ↔
      (ids = [] → env.auth user = true) ∧ (Savable env s user ids → ids = [] ∨
        (s.bookmarks.savedCampaigns user).length + ids.length ≤ maxBookmarksPerWallet) := by
  simp only [batchSaveCampaigns_eq_ok hnodup, saveEach_eq_ok hnodup]
  constructor
  · intro h
    refine ⟨fun hempty => ?_, fun hsavable => ?_⟩
    · exact ((h _).mpr ⟨.inl hempty, rfl⟩).1.signed
    · exact ((h _).mp ⟨hsavable, rfl⟩).1.imp_right And.right
  · rintro ⟨hsigned, hroom⟩ s'
    constructor
    · rintro ⟨hsavable, rfl⟩
      exact ⟨(hroom hsavable).imp_right fun hlength => ⟨hsavable, hlength⟩, rfl⟩
    · rintro ⟨rfl | ⟨hsavable, -⟩, rfl⟩
      · refine ⟨⟨hsigned rfl, ?_, fun c hc => absurd hc List.not_mem_nil⟩, rfl⟩
        rwa [List.append_nil]
      · exact ⟨hsavable, rfl⟩

/-- In every run the lists hold what was saved, in its order and without repetition. They
stay within the limit, and batches agree with single saves, exactly as long as no batch
goes over the limit. -/
theorem bookmarks_agree_iff (run : Run (machine host) tr cfg) :
    (∀ user, cfg.state.bookmarks.savedCampaigns user = savedBy user tr ∧
      (savedBy user tr).Nodup ∧
      ∀ c ∈ savedBy user tr, ∃ record, cfg.state.campaigns.campaign c = some record) ∧
    (∀ env call, (∀ s', invoke env cfg.state call ≠ .ok s') →
      (stateAfter env cfg.state call).bookmarks = cfg.state.bookmarks) ∧
    ((∀ r ∈ tr, r.SavesAgree) ↔ ∀ r ∈ tr, r.SavesWithin) ∧
    ∀ env user ids, (∀ s', batchSaveCampaigns env cfg.state user ids = .ok s' ↔
        saveEach env cfg.state user ids = .ok s') ↔
      (ids = [] → env.auth user = true) ∧ (Savable env cfg.state user ids → ids = [] ∨
        (cfg.state.bookmarks.savedCampaigns user).length + ids.length ≤
          maxBookmarksPerWallet) := by
  refine ⟨fun user => ?_, fun env call hfails => ?_, ?_, fun env user ids =>
    batchSave_eq_singles_iff (run_bookmarked run user).2.nodup⟩
  · obtain ⟨hsaved, hnodup, hcreated⟩ := run_bookmarked run user
    rw [← hsaved]
    exact ⟨rfl, hnodup, hcreated⟩
  · unfold stateAfter
    split
    next s' h => exact absurd h (hfails s')
    next => rfl
  · rw [← forall_split_iff]
    refine run.exactly (P := fun r _ => r.SavesAgree) (fun r cfg hstart => ?_) ?_
    · have hempty : ∀ user, cfg.state.bookmarks.savedCampaigns user = [] := fun user =>
        congrArg (fun b : Board => b.saved user) (start_board hstart)
      obtain ⟨-, -, ⟨admin, token, platformFee, hcall⟩, rfl⟩ := hstart
      refine iff_of_true ⟨fun user => ?_, fun user ids h => ?_⟩ fun user ids h => ?_
      · have hpost := hempty user
        dsimp only at hpost
        rw [hpost]
        exact Nat.zero_le _
      · cases hcall.symm.trans h
      · cases hcall.symm.trans h
    · rintro tr cfg r cfg' run hearlier ⟨hvalid, -, hpre, rfl⟩
      have sane := run_sane run
      have held := fun user => (run_bookmarked run user).2
      have hshort := run_short run hearlier
      rw [← hpre] at sane held hshort
      exact hvalid.savesAgree_iff sane held hshort

/-- Alice saves two campaigns, the second in a batch. -/
theorem bookmarks_sample : ∃ tr cfg, Run (machine Sample.host) tr cfg ∧
    savedBy Sample.alice tr = [2, 1] ∧ (savedBy Sample.alice tr).Nodup ∧
    ∀ r ∈ tr, r.SavesAgree := by
  have h : Sample.Ends 300
      (Sample.handedOn ++ [Sample.ask 0 Sample.alice (.saveCampaign Sample.alice 2),
        Sample.ask 0 Sample.alice (.batchSaveCampaigns Sample.alice [1])])
      fun tr _ => savedBy Sample.alice tr = [2, 1] ∧ ∀ r ∈ tr, r.SavesWithin := by
    decide +kernel
  obtain ⟨tr, cfg, run, hsaved, hwithin⟩ := h.run
  obtain ⟨hlists, -, hagree, -⟩ := bookmarks_agree_iff run
  exact ⟨tr, cfg, run, hsaved, (hlists Sample.alice).2.1, hagree.mpr hwithin⟩

theorem savedBy_created {X : Address}
    (hcalls : ∀ r ∈ tr, r.call.deploys = true ∨ r.call.creates = some X) :
    savedBy user tr = [] := by
  induction tr with
  | nil => rfl
  | cons r earlier ih =>
      obtain ⟨hcall, hearlier⟩ := List.forall_mem_cons.mp hcalls
      have hkeeps : r.call.setsEntries = false := by
        generalize r.call = call at hcall
        cases call with
        | init | createCampaign | createCampaignWithToken => rfl
        | _ => rcases hcall with h | h <;> cases h
      rw [savedBy, ih hearlier, Call.saves_of_keeps hkeeps]

/-- Of 51 campaigns a wallet saves all in one batch, but not one by one. -/
theorem batchSave_overfull : ∃ tr cfg s' ids, Run (machine Sample.host) tr cfg ∧
    invoke (Sample.env 0 Sample.alice) cfg.state (.batchSaveCampaigns Sample.alice ids) =
      .ok s' ∧
    (s'.bookmarks.savedCampaigns Sample.alice).length = 51 ∧
    ∀ t, saveEach (Sample.env 0 Sample.alice) cfg.state Sample.alice ids ≠ .ok t := by
  obtain ⟨tr, cfg, run, hcalls, -, stocked⟩ := Sample.Stocked.run (n := 51) (by decide)
  have hempty : cfg.state.bookmarks.savedCampaigns Sample.alice = [] :=
    (run_bookmarked run Sample.alice).1.trans (savedBy_created hcalls)
  have hcleared : cfg.state.clearMoved.bookmarks.savedCampaigns Sample.alice = [] := hempty
  have hsavable : Savable (Sample.env 0 Sample.alice) cfg.state.clearMoved Sample.alice
      (List.range' 1 51) := by
    refine ⟨by decide, ?_, fun c hc => ?_⟩
    · rw [hcleared]
      exact List.nodup_range'
    · obtain ⟨hlow, hhigh⟩ := List.mem_range'_1.mp hc
      have hid : 1 ≤ c ∧ c ≤ (view cfg.state).campaignCount := by
        rw [← campaignCount_view, stocked.campaigns]
        omega
      obtain ⟨a, ha⟩ := ((run_sane run).exists_iff c).mpr hid
      exact ⟨a.record, (View.account_eq_some.mp ha).1⟩
  have hnodup : (cfg.state.clearMoved.bookmarks.savedCampaigns Sample.alice).Nodup := by
    rw [hcleared]
    exact List.nodup_nil
  refine ⟨tr, cfg, setSavedCampaigns cfg.state.clearMoved Sample.alice
    (cfg.state.clearMoved.bookmarks.savedCampaigns Sample.alice ++ List.range' 1 51),
    List.range' 1 51, run, ?_, ?_, fun t h => ?_⟩
  · simp only [invoke, dispatch, bind_eq_ok, rejectIf_eq_ok]
    exact ⟨(), by decide, (batchSaveCampaigns_eq_ok hnodup).mpr ⟨hsavable, rfl⟩⟩
  · rw [setSavedCampaigns_saved, hcleared]
    rfl
  · have hlength := ((saveEach_eq_ok (hempty ▸ List.nodup_nil)).mp h).1
    rcases hlength with hnone | ⟨-, hlength⟩
    · cases hnone
    · rw [hempty] at hlength
      exact absurd hlength (by decide)

end ProofOfHeart
