import ProofOfHeart.Laws.ContributionLedger
import ProofOfHeart.Lib.Buckets

/-! # The index of campaigns by creator

The buckets of a creator hold the campaigns the creator owns, each once, as the
consecutive parts of one list. Creation appends to that list. A hand-over removes
an entry from the bucket that holds it, which keeps the parts consecutive only
when that bucket is the last.
-/

namespace ProofOfHeart

open Checked Function Table Trace Buckets

variable {host : Host} {tr : List Receipt} {cfg : Config} {c : Nat} {a a' : Account}
  {env : Env} {v v' : View} {call : Call} {act : Act} {moves : List Transfer} {delta : Int}

def View.owner (v : View) (c : Nat) : Option Address := (v.campaign c).map Campaign.creator

theorem View.owner_of_account (ha : v.account c = some a) : v.owner c = some a.record.creator := by
  rw [View.owner, (View.account_eq_some.mp ha).1]
  rfl

theorem View.Registered.next_owner (reg : v.Registered) :
    v.owner (v.campaignCount + 1) = none := Option.map_eq_none_iff.mpr reg.next_campaign

theorem View.owner_congr (h : v'.account c = v.account c) : v'.owner c = v.owner c := by
  have hrecord : ∀ w : View, w.owner c = (w.account c).map fun a => a.record.creator := by
    intro w
    rw [View.owner, View.account, Option.map_map]
    rfl
  rw [hrecord, hrecord, h]

theorem View.owner_setAccount : (v.setAccount c a).owner =
    update v.owner c (some a.record.creator) := by
  funext other
  by_cases h : other = c
  · rw [h, update_self]
    exact View.owner_of_account View.setAccount_account_self
  · rw [update_of_ne h]
    exact View.owner_congr (View.setAccount_account_of_ne h)

/-- Writing an account without touching its creator. -/
theorem View.owner_setAccount_same (ha : v.account c = some a)
    (h : a'.record.creator = a.record.creator) : (v.setAccount c a').owner = v.owner := by
  rw [View.owner_setAccount, h, ← View.owner_of_account ha, update_eq_self]

/-! ## How a call moves the index -/

inductive Indexed (v : View) (call : Call) (v' : View) : Prop
  | created {creator : Address}
      (index : v'.creators = v.creators.append creator (v.campaignCount + 1))
      (owner : v'.owner = update v.owner (v.campaignCount + 1) (some creator))
      (count : v'.campaignCount = v.campaignCount + 1) (fits : v.campaignCount + 1 < 2 ^ 32)
  | handedOver {c bucketIdx slotIdx last : Nat} {record : Campaign} {heir : Address}
      (hcall : call = .acceptCampaignTransfer c) (hrecord : v.campaign c = some record)
      (other : heir ≠ record.creator)
      (hslot : (v.creators.bucket record.creator bucketIdx)[slotIdx]? = some c)
      (hlast : (v.creators.bucket record.creator bucketIdx).getLast? = some last)
      (index : v'.creators =
        (v.creators.remove record.creator c bucketIdx slotIdx last).append heir c)
      (owner : v'.owner = update v.owner c (some heir))
      (count : v'.campaignCount = v.campaignCount)
  | kept (index : v'.creators = v.creators) (owner : v'.owner = v.owner)
      (count : v'.campaignCount = v.campaignCount)

theorem Account.Edit.creator {now : Nat} {record : Campaign} (h : a.Edit c now call record)
    (notAccept : call ≠ .acceptCampaignTransfer c) : record.creator = a.record.creator := by
  cases h with
  | handOver => exact absurd rfl notAccept
  | _ => rfl

theorem Account.claimMilestone_creator {milestoneId : Nat} :
    (a.claimMilestone milestoneId).record.creator = a.record.creator := by
  rw [Account.claimMilestone_record]

/-- The creator for whom a call creates a campaign, if it does. -/
def Call.creates : Call → Option Address
  | .createCampaign params => some params.creator
  | .createCampaignWithToken params _ => some params.creator
  | _ => none

/-- The campaign a call hands over, if it does. -/
def Call.handsOver : Call → Option Nat
  | .acceptCampaignTransfer c => some c
  | _ => none

theorem Call.handsOver_eq_some : call.handsOver = some c ↔ call = .acceptCampaignTransfer c := by
  cases call <;> simp [Call.handsOver]

/-- Only a creation and a hand-over write an owner. -/
theorem Effect.owner_kept (h : Effect env v call v') (hcreates : call.creates = none)
    (hkeeps : call.handsOver = none) : v'.owner = v.owner := by
  cases h with
  | create hcall => rcases hcall with ⟨rfl, -⟩ | ⟨_, rfl, -⟩ <;> cases hcreates
  | handOver => cases hkeeps
  | batch batched =>
      funext c
      cases hc : v.account c with
      | none => exact View.owner_congr ((batched.account c).trans (by rw [hc]; rfl))
      | some a =>
          have haccount := batched.account c
          rw [hc] at haccount
          rw [View.owner_of_account hc]
          exact (View.owner_of_account haccount).trans (by rw [Account.contributeAll_record])
  | verifications h =>
      funext c
      rcases h.account c with hsame | ⟨a, ha, -, -, ha'⟩
      · exact View.owner_congr hsame
      · rw [View.owner_of_account ha, View.owner_of_account ha']
        rfl
  | edit ha hedit notAccept => exact View.owner_setAccount_same ha (hedit.creator notAccept)
  | claimMilestone ha => exact View.owner_setAccount_same ha Account.claimMilestone_creator
  | administer h =>
      obtain ⟨store, -, rfl⟩ := h
      rfl
  | outside => rfl
  | contribute ha => exact View.owner_setAccount_same ha rfl
  | refund ha => exact View.owner_setAccount_same ha rfl
  | withdraw ha => exact View.owner_setAccount_same ha rfl
  | release ha => exact View.owner_setAccount_same ha rfl
  | plan ha => exact View.owner_setAccount_same ha rfl
  | verifyMilestone ha => exact View.owner_setAccount_same ha rfl
  | cancel ha => exact View.owner_setAccount_same ha rfl
  | adminCancel ha => exact View.owner_setAccount_same ha rfl
  | deposit ha => exact View.owner_setAccount_same ha rfl
  | claimRevenue ha => exact View.owner_setAccount_same ha rfl
  | claimCreatorRevenue ha => exact View.owner_setAccount_same ha rfl

theorem Effect.indexed (h : Effect env v call v') : Indexed v call v' := by
  have hkept := h.owner_kept
  cases h with
  | create hcall fits => exact .created rfl View.owner_setAccount rfl fits
  | handOver ha live pending other hposition hslot hlast =>
      exact .handedOver rfl (View.account_eq_some.mp ha).1 other hslot hlast rfl
        View.owner_setAccount rfl
  | batch batched => exact .kept batched.creators (hkept rfl rfl) batched.campaignCount
  | verifications h =>
      obtain ⟨-, -, hcount, -, -, hcreators, -⟩ := h.unchanged
      exact .kept hcreators (hkept rfl rfl) hcount
  | edit ha hedit notAccept =>
      exact .kept rfl (View.owner_setAccount_same ha (hedit.creator notAccept)) rfl
  | administer h =>
      obtain ⟨store, -, rfl⟩ := h
      exact .kept rfl rfl rfl
  | outside => exact .kept rfl rfl rfl
  | _ => exact .kept rfl (hkept rfl rfl) rfl

/-- A creation makes the first owner. -/
theorem Effect.owner_create {params : CreateCampaignParams} (h : Effect env v call v')
    (hcall : call = .createCampaign params ∨
      ∃ token, call = .createCampaignWithToken params token) :
    v'.owner = update v.owner (v.campaignCount + 1) (some params.creator) := by
  rcases hcall with rfl | ⟨token, rfl⟩
  all_goals
    cases h with
    | create hcall =>
        rcases hcall with ⟨heq, -⟩ | ⟨_, heq, -⟩
        all_goals
          cases heq
          try exact View.owner_setAccount
    | edit ha hedit =>
        cases hedit with
        | verify verifiable hcall => rcases hcall with h | h | ⟨_, _, h⟩ <;> cases h
    | administer h =>
        obtain ⟨store, hstep, -⟩ := h
        cases hstep
    | outside h => cases h

/-- A hand-over makes the nominee the owner. -/
theorem Effect.owner_handOver (h : Effect env v (.acceptCampaignTransfer c) v') :
    ∃ record heir, v.campaign c = some record ∧ record.pendingCreator = some heir ∧
      v'.owner = update v.owner c (some heir) := by
  cases h with
  | handOver ha live pending =>
      exact ⟨_, _, (View.account_eq_some.mp ha).1, pending, View.owner_setAccount⟩
  | create hcall => rcases hcall with ⟨h, -⟩ | ⟨_, h, -⟩ <;> cases h
  | edit ha hedit notAccept =>
      cases hedit with
      | handOver => exact absurd rfl notAccept
      | verify verifiable hcall => rcases hcall with h | h | ⟨_, _, h⟩ <;> cases h
  | administer h =>
      obtain ⟨store, hstep, -⟩ := h
      cases hstep
  | outside h => cases h

/-! ## The lists behind the buckets -/

/-- The buckets hold the lists `entries`, and these hold the campaigns by owner. -/
structure Listed (index : CreatorIndex) (owner : Nat → Option Address)
    (entries : Address → List Nat) : Prop where
  count : ∀ X, index.count X = (entries X).length
  chunks : ∀ X, Chunks creatorCampaignsBucketSize (index.bucket X) (entries X)
  nodup : ∀ X, (entries X).Nodup
  mem : ∀ X c, c ∈ entries X ↔ owner c = some X

section Listed

variable {index : CreatorIndex} {owner : Nat → Option Address} {entries : Address → List Nat}
  {X : Address}

theorem Listed.append (h : Listed index owner entries) (hfree : owner c = none) :
    Listed (index.append X c) (update owner c (some X))
      (update entries X (entries X ++ [c])) where
  count Y := by
    by_cases hY : Y = X
    · subst hY
      simp [CreatorIndex.append, h.count]
    · simp [CreatorIndex.append, hY, h.count]
  chunks Y := by
    by_cases hY : Y = X
    · subst hY
      simpa [CreatorIndex.append, h.count] using (h.chunks Y).append (by decide) c
    · simpa [CreatorIndex.append, hY] using h.chunks Y
  nodup Y := by
    by_cases hY : Y = X
    · subst hY
      have hnew : c ∉ entries Y := fun hmem => by
        rw [h.mem, hfree] at hmem
        cases hmem
      rw [update_self]
      exact (List.nodup_append_comm.mp ((h.nodup Y).cons hnew))
    · rw [update_of_ne hY]
      exact h.nodup Y
  mem Y d := by
    by_cases hd : d = c
    · subst hd
      by_cases hY : Y = X
      · simp [hY]
      · rw [update_of_ne hY, h.mem, hfree, update_self]
        simp [Ne.symm hY]
    · by_cases hY : Y = X
      · simp [hY, hd, h.mem]
      · rw [update_of_ne hY, update_of_ne hd, h.mem]

/-- Only the last bucket can lose an entry. -/
theorem Listed.remove {slotIdx last : Nat} (h : Listed index owner entries)
    (hslot : (index.bucket X ((index.count X - 1) / creatorCampaignsBucketSize))[slotIdx]? =
      some c)
    (hlast : (index.bucket X ((index.count X - 1) / creatorCampaignsBucketSize)).getLast? =
      some last) :
    ∃ rest, Listed (index.remove X c ((index.count X - 1) / creatorCampaignsBucketSize) slotIdx
      last) (update owner c none) (update entries X rest) := by
  rw [h.count] at hslot hlast ⊢
  obtain ⟨rest, hchunks, hperm⟩ := (h.chunks X).remove (by decide) hslot hlast
  have hlength := hperm.length_eq
  have hnodup := hperm.nodup_iff.mpr (h.nodup X)
  rw [List.length_cons] at hlength
  refine ⟨rest, ⟨fun Y => ?_, fun Y => ?_, fun Y => ?_, fun Y d => ?_⟩⟩
  · by_cases hY : Y = X
    · subst hY
      simp only [CreatorIndex.remove, update_self, h.count]
      omega
    · simp [CreatorIndex.remove, hY, h.count]
  · by_cases hY : Y = X
    · subst hY
      simpa [CreatorIndex.remove] using hchunks
    · simpa [CreatorIndex.remove, hY] using h.chunks Y
  · by_cases hY : Y = X
    · subst hY
      rw [update_self]
      exact (List.nodup_cons.mp hnodup).2
    · rw [update_of_ne hY]
      exact h.nodup Y
  · have hmem : ∀ d, d ∈ entries X ↔ d = c ∨ d ∈ rest := fun d => by
      rw [← hperm.mem_iff, List.mem_cons]
    have howner : owner c = some X := (h.mem X c).mp ((hmem c).mpr (.inl rfl))
    by_cases hd : d = c
    · subst hd
      rw [update_self]
      by_cases hY : Y = X
      · subst hY
        rw [update_self]
        simpa using (List.nodup_cons.mp hnodup).1
      · rw [update_of_ne hY, h.mem, howner]
        simp [Ne.symm hY]
    · rw [update_of_ne hd, ← h.mem]
      by_cases hY : Y = X
      · subst hY
        rw [update_self, hmem]
        simp [hd]
      · rw [update_of_ne hY]

/-- The bucket that holds a campaign is the only one. -/
theorem Listed.bucket_unique {b b' : Nat} (h : Listed index owner entries)
    (hb : c ∈ index.bucket X b) (hb' : c ∈ index.bucket X b') : b = b' :=
  (h.chunks X).bucket_unique (h.nodup X) hb hb'

end Listed

/-! ## Runs -/

/-- The entry of a campaign that is handed over stands in the last bucket of its
creator. -/
def Receipt.TakesFromLast (r : Receipt) : Prop :=
  ∀ c record, r.call = .acceptCampaignTransfer c → r.pre.campaigns.campaign c = some record →
    c ∈ r.pre.campaigns.creatorCampaignsBucket record.creator
      ((r.pre.campaigns.creatorCampaignCount record.creator - 1) / creatorCampaignsBucketSize)

instance (r : Receipt) : Decidable r.TakesFromLast :=
  decidable_of_iff (∀ c, r.call.handsOver = some c → ∀ record,
      r.pre.campaigns.campaign c = some record →
        c ∈ r.pre.campaigns.creatorCampaignsBucket record.creator
          ((r.pre.campaigns.creatorCampaignCount record.creator - 1) /
            creatorCampaignsBucketSize))
    ⟨fun h c record hcall => h c (Call.handsOver_eq_some.mpr hcall) record,
      fun h c hcall record => h c record (Call.handsOver_eq_some.mp hcall)⟩

theorem run_count_lt (run : Run (machine host) tr cfg) :
    (view cfg.state).campaignCount < 2 ^ 32 := by
  refine run.invariant (I := fun _ cfg => (view cfg.state).campaignCount < 2 ^ 32) ?_ ?_ ?_
  · intro r cfg hstart
    rw [(start_fresh hstart).campaignCount]
    decide
  · rintro tr cfg r cfg' run ih ⟨hvalid, -, hpre, rfl⟩
    have sane := run_sane run
    rw [← hpre] at sane ih
    cases (hvalid.effect sane.toConfigured).indexed with
    | created index owner count fits => exact lt_of_eq_of_lt count fits
    | handedOver hcall hrecord other hslot hlast index owner count =>
        exact lt_of_eq_of_lt count ih
    | kept index owner count => exact lt_of_eq_of_lt count ih
  · rintro tr cfg cfg' ih ⟨tokens, -, rfl⟩
    exact ih

theorem run_listed (run : Run (machine host) tr cfg) (hlast : ∀ r ∈ tr, r.TakesFromLast) :
    ∃ entries, Listed (view cfg.state).creators (view cfg.state).owner entries := by
  refine run.guarded (C := Receipt.TakesFromLast) (I := fun _ cfg =>
    ∃ entries, Listed (view cfg.state).creators (view cfg.state).owner entries) ?_ ?_ ?_ hlast
  · intro r cfg hstart _
    have hfresh := start_fresh hstart
    refine ⟨fun _ => [], ⟨fun X => ?_, fun X => ?_, fun X => List.nodup_nil, fun X c => ?_⟩⟩
    · rw [hfresh.creators]
      rfl
    · rw [hfresh.creators]
      exact Chunks.nil
    · rw [View.owner, hfresh.campaign]
      simp
  · rintro tr cfg r cfg' run - ih hr ⟨hvalid, -, hpre, rfl⟩
    have sane := run_sane run
    rw [← hpre] at sane ih
    obtain ⟨entries, listed⟩ := ih
    cases (hvalid.effect sane.toConfigured).indexed with
    | created index owner =>
        exact ⟨_, by rw [index, owner]; exact listed.append sane.next_owner⟩
    | @handedOver c bucketIdx slotIdx last record heir hcall hrecord other hslot hend index owner =>
        obtain rfl : bucketIdx = ((view r.pre).creators.count record.creator - 1) /
            creatorCampaignsBucketSize :=
          listed.bucket_unique (List.mem_of_getElem? hslot) (hr c record hcall hrecord)
        obtain ⟨rest, hrest⟩ := listed.remove hslot hend
        have hmoved := hrest.append (c := c) (X := heir) (update_self ..)
        rw [update_idem] at hmoved
        exact ⟨_, by rw [index, owner]; exact hmoved⟩
    | kept index owner => exact ⟨entries, by rw [index, owner]; exact listed⟩
  · rintro tr cfg cfg' ih ⟨tokens, -, rfl⟩
    exact ih

end ProofOfHeart
