import ProofOfHeart.Laws.RefundPhase

/-! # The count of active campaigns

The counter that the token migration looks at is the number of campaigns whose record
is active: a creation opens one, and each of the four closing calls closes one.
-/

namespace ProofOfHeart

open Checked Function Trace

variable {host : Host} {tr : List Receipt} {cfg : Config} {c : Nat} {a a' : Account}
  {env : Env} {v v' : View} {call : Call} {act : Act} {moves : List Transfer} {delta : Int}

/-- The acts that close the campaign; a milestone claim does so when it is the last. -/
def Account.closedBy (a : Account) : Act → Bool
  | .withdraw | .cancel | .adminCancel => true
  | .claimMilestone milestoneId => allClaimed a.funds.milestones a.funds.claimed milestoneId
  | _ => false

/-- What both payout flows check leaves only an active campaign. -/
theorem Account.Payable.active (payable : a.Payable) (phase : a.Phase) :
    a.record.isActive = true := by
  by_contra hinactive
  rcases phase.closed.mp (Bool.eq_false_of_not_eq_true hinactive) with hcancelled | hpaid
  · exact Bool.noConfusion (payable.notCancelled.symm.trans hcancelled)
  · exact Bool.noConfusion (payable.notWithdrawn.symm.trans hpaid)

theorem AccountStep.active (h : AccountStep env v c act moves delta a a') (phase : a.Phase) :
    if a.closedBy act then a.record.isActive = true ∧ a'.record.isActive = false
    else a'.record.isActive = a.record.isActive := by
  cases h with
  | contributed nonempty pos accepts =>
      rw [Account.contributeAll_record]
      rfl
  | withdrew payable => exact ⟨payable.active phase, rfl⟩
  | claimed payable =>
      simp only [Account.closedBy]
      unfold Account.claimMilestone
      split
      next hlast => exact ⟨payable.active phase, rfl⟩
      next hmore => rfl
  | cancelled live => exact ⟨live.active, rfl⟩
  | adminCancelled live => exact ⟨live.active, rfl⟩
  | _ => exact rfl

/-- How a call moves the counter. -/
inductive Counted (v : View) (call : Call) (v' : View) : Prop
  | opened (count : v'.activeCount = v.activeCount + 1)
      (next : v'.campaignCount = v.campaignCount + 1)
      (active : ∃ a, v'.account (v.campaignCount + 1) = some a ∧ a.record.isActive = true)
      (others : ∀ c, call.act c = .other)
  | closed {c : Nat} {a : Account} (ha : v.account c = some a)
      (closes : a.closedBy (call.act c) = true) (count : v'.activeCount = v.activeCount - 1)
      (same : v'.campaignCount = v.campaignCount)
      (others : ∀ other, other ≠ c → call.act other = .other)
  | kept (count : v'.activeCount = v.activeCount) (same : v'.campaignCount = v.campaignCount)
      (open' : ∀ c a, v.account c = some a → a.closedBy (call.act c) = false)

theorem Counted.kept_of_not (count : v'.activeCount = v.activeCount)
    (same : v'.campaignCount = v.campaignCount)
    (h : ∀ c (a : Account), a.closedBy (call.act c) = false) : Counted v call v' :=
  .kept count same fun c a _ => h c a

theorem Effect.counted (h : Effect env v call v') : Counted v call v' := by
  cases h with
  | create hcall fits inTime goal share =>
      refine .opened rfl rfl ⟨_, View.setAccount_account_self, rfl⟩ ?_
      rcases hcall with ⟨rfl, -⟩ | ⟨token, rfl, -⟩ <;> exact fun _ => rfl
  | contribute =>
      refine .kept_of_not rfl rfl fun c a => ?_
      simp only [Call.act]
      split <;> rfl
  | batch batched =>
      refine .kept_of_not batched.activeCount batched.campaignCount fun c a => ?_
      simp only [Call.act]
      split <;> rfl
  | withdraw ha =>
      exact .closed ha (by rw [Call.act, if_pos rfl]; rfl) rfl rfl fun other hc => if_neg hc
  | cancel ha =>
      exact .closed ha (by rw [Call.act, if_pos rfl]; rfl) rfl rfl fun other hc => if_neg hc
  | adminCancel ha =>
      exact .closed ha (by rw [Call.act, if_pos rfl]; rfl) rfl rfl fun other hc => if_neg hc
  | @claimMilestone c a token admin milestone ha payable mem marked unclaimed pos currency
      hadmin =>
      by_cases hlast : allClaimed a.funds.milestones a.funds.claimed milestone.id = true
      · refine .closed ha ?_ (by dsimp only; rw [if_pos hlast]) rfl fun other hc => if_neg hc
        rw [Call.act, if_pos rfl]
        exact hlast
      · refine .kept (by dsimp only; rw [if_neg hlast]; rfl) rfl fun other b hb => ?_
        by_cases hc : other = c
        · subst hc
          rw [Call.act, if_pos rfl, Option.some.inj (hb.symm.trans ha)]
          exact Bool.eq_false_of_not_eq_true hlast
        · rw [Call.act, if_neg hc]
          rfl
  | edit ha hedit notAccept =>
      refine .kept_of_not rfl rfl fun c a => ?_
      cases hedit with
      | extend =>
          simp only [Call.act]
          split <;> rfl
      | verify verifiable hcall => rcases hcall with rfl | rfl | ⟨ids, -, rfl⟩ <;> rfl
      | _ => rfl
  | verifications h =>
      obtain ⟨-, -, hcount, hactive, -⟩ := h.unchanged
      exact .kept_of_not hactive hcount fun _ _ => rfl
  | administer h =>
      obtain ⟨store, hstep, rfl⟩ := h
      refine .kept_of_not rfl rfl ?_
      cases hstep <;> exact fun _ _ => rfl
  | outside h =>
      refine .kept_of_not rfl rfl ?_
      cases call with
      | _ => first | exact fun _ _ => rfl | cases h
  | _ =>
      refine .kept_of_not rfl rfl fun c a => ?_
      simp only [Call.act]
      first | rfl | (split <;> rfl)

/-! ## The number of active campaigns -/

def View.isOpen (v : View) (c : Nat) : Bool :=
  match v.account c with
  | some a => a.record.isActive
  | none => false

def View.openIds (v : View) : Finset Nat := v.ids.filter fun c => v.isOpen c = true

theorem View.isOpen_of_account (ha : v.account c = some a) : v.isOpen c = a.record.isActive := by
  rw [View.isOpen, ha]

theorem View.openIds_kept (hids : v'.ids = v.ids)
    (hkept : ∀ c ∈ v.ids, v'.isOpen c = v.isOpen c) : v'.openIds = v.openIds := by
  rw [View.openIds, View.openIds, hids]
  exact Finset.filter_congr fun c hc => by rw [hkept c hc]

theorem View.openIds_close (hids : v'.ids = v.ids) (hclosed : v'.isOpen c = false)
    (hkept : ∀ other ∈ v.ids, other ≠ c → v'.isOpen other = v.isOpen other) :
    v'.openIds = v.openIds.erase c := by
  ext other
  simp only [View.openIds, Finset.mem_erase, Finset.mem_filter, hids]
  by_cases hc : other = c
  · subst hc
    simp [hclosed]
  · by_cases hin : other ∈ v.ids
    · rw [hkept other hin hc]
      simp [hc]
    · simp [hin]

theorem View.openIds_create (next : v'.campaignCount = v.campaignCount + 1)
    (hopen : v'.isOpen (v.campaignCount + 1) = true)
    (hkept : ∀ other ∈ v.ids, v'.isOpen other = v.isOpen other) :
    v'.openIds = insert (v.campaignCount + 1) v.openIds := by
  have hids : v'.ids = insert (v.campaignCount + 1) v.ids := by
    ext other
    simp only [View.ids, next, Finset.mem_insert, Finset.mem_Icc]
    omega
  rw [View.openIds, hids, Finset.filter_insert, if_pos hopen, View.openIds]
  exact congrArg _ (Finset.filter_congr fun other hother => by rw [hkept other hother])

/-- A campaign is open after a call unless the call closes it. -/
theorem AccountStep.isOpen (h : AccountStep env v c act moves delta a a') (phase : a.Phase)
    (ha' : v'.account c = some a') :
    v'.isOpen c = if a.closedBy act then false else a.record.isActive := by
  have hactive := h.active phase
  rw [View.isOpen_of_account ha']
  split
  next hcloses =>
      rw [if_pos hcloses] at hactive
      exact hactive.2
  next hkeeps =>
      rw [if_neg hkeeps] at hactive
      exact hactive

/-- One call moves the counter with the number of open campaigns. -/
theorem Receipt.Valid.activeCount {r : Receipt} (h : r.Valid host) (sane : (view r.pre).Sane)
    (hphase : ∀ c a, (view r.pre).account c = some a → a.Phase)
    (ih : (view r.pre).activeCount = (view r.pre).openIds.card) :
    (view r.post).activeCount = (view r.post).openIds.card := by
  obtain ⟨⟨delta, -, hexisting⟩, -, -⟩ := h.stepped sane
  have hkept : ∀ c a, (view r.pre).account c = some a → a.closedBy (r.call.act c) = false →
      (view r.post).isOpen c = (view r.pre).isOpen c := by
    intro c a ha hkeeps
    obtain ⟨a', ha', hstep⟩ := hexisting c a ha
    rw [hstep.isOpen (hphase c a ha) ha', hkeeps, View.isOpen_of_account ha]
    rfl
  have hquiet : ∀ c ∈ (view r.pre).ids, r.call.act c = .other →
      (view r.post).isOpen c = (view r.pre).isOpen c := by
    intro c hc hact
    obtain ⟨a, ha⟩ := sane.account_of_mem hc
    exact hkept c a ha (by rw [hact]; rfl)
  cases (h.effect sane.toConfigured).counted with
  | opened count next active others =>
      obtain ⟨b, hb, hactive⟩ := active
      have hopen : (view r.post).isOpen ((view r.pre).campaignCount + 1) = true :=
        (View.isOpen_of_account hb).trans hactive
      have hfresh : (view r.pre).campaignCount + 1 ∉ (view r.pre).openIds := by
        simp [View.openIds, View.ids]
      have hnext : (view r.post).campaignCount = (view r.pre).campaignCount + 1 := next
      rw [View.openIds_create hnext hopen fun c hc => hquiet c hc (others c),
        Finset.card_insert_of_notMem hfresh, ← ih]
      exact count
  | @closed c a ha closes count same others =>
      have hids : (view r.post).ids = (view r.pre).ids := congrArg (Finset.Icc 1) same
      obtain ⟨a', ha', hstep⟩ := hexisting c a ha
      have hclosed := hstep.isOpen (hphase c a ha) ha'
      have hopen := hstep.active (hphase c a ha)
      rw [if_pos closes] at hclosed hopen
      have hmem : c ∈ (view r.pre).openIds := Finset.mem_filter.mpr
        ⟨sane.mem_ids ha, (View.isOpen_of_account ha).trans hopen.1⟩
      rw [View.openIds_close hids hclosed fun other hin hc => hquiet other hin (others other hc),
        Finset.card_erase_of_mem hmem, ← ih]
      exact count
  | kept count same keeps =>
      have hids : (view r.post).ids = (view r.pre).ids := congrArg (Finset.Icc 1) same
      have hall : ∀ c ∈ (view r.pre).ids, (view r.post).isOpen c = (view r.pre).isOpen c := by
        intro c hc
        obtain ⟨a, ha⟩ := sane.account_of_mem hc
        exact hkept c a ha (keeps c a ha)
      rw [View.openIds_kept hids hall, ← ih]
      exact count

theorem run_activeCount (run : Run (machine host) tr cfg) :
    (view cfg.state).activeCount = (view cfg.state).openIds.card := by
  refine run.invariant (I := fun _ cfg =>
    (view cfg.state).activeCount = (view cfg.state).openIds.card) ?_ ?_ ?_
  · intro r cfg hstart
    have hfresh := start_fresh hstart
    rw [hfresh.activeCount, View.openIds, View.ids, hfresh.campaignCount]
    rfl
  · rintro tr cfg r cfg' run ih ⟨hvalid, -, hpre, rfl⟩
    have sane := run_sane run
    have hphase : ∀ c a, (view cfg.state).account c = some a → a.Phase :=
      fun _ _ ha => run_phase run ha
    rw [← hpre] at sane ih hphase
    exact hvalid.activeCount sane hphase ih
  · rintro tr cfg cfg' ih ⟨tokens, -, rfl⟩
    exact ih

end ProofOfHeart
