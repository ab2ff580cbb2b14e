import ProofOfHeart.Account.Turn
import ProofOfHeart.Board.Entries
import ProofOfHeart.Laws.ContributionLedger

/-! # Contribution caps

A contribution is compared with three caps: that of the campaign against the lifetime
total, the contributor's own against the live entry, and that of the platform against
the single amount. The first two bound the entries of every state, whatever is
contributed, refunded, capped or uncapped in between.
-/

namespace ProofOfHeart

open Checked Function Trace Table

variable {host : Host} {tr : List Receipt} {cfg : Config} {c : Nat} {a a' : Account}
  {env : Env} {v : View} {act : Act} {moves : List Transfer} {delta : Int} {s s' : State}
  {who : Address} {amount : Int} {call : Call}

/-! ## What a contribution has been compared with -/

structure WithinCaps (s : State) (record : Campaign) (c : Nat) (who : Address) (amount : Int) :
    Prop where
  lifetime : 0 < record.maxContributionPerUser →
    s.contributions.lifetimeContribution c who + amount ≤ record.maxContributionPerUser
  personal : ∀ cap, s.contributions.personalCap c who = some cap →
    s.contributions.contribution c who + amount ≤ cap
  transaction : 0 < s.admin.maxContributionPerTransaction →
    amount ≤ s.admin.maxContributionPerTransaction

theorem checkContributionCaps_ok {campaign : Campaign} {lifetime : Int} {u : Unit}
    (h : checkContributionCaps campaign lifetime amount = .ok u)
    (hpos : 0 < campaign.maxContributionPerUser) :
    lifetime + amount ≤ campaign.maxContributionPerUser := by
  rw [checkContributionCaps, if_pos hpos] at h
  simp only [bind_eq_ok, okOr_eq_ok, I128.checkedAdd_eq_some, rejectIf_eq_ok] at h
  obtain ⟨_, ⟨rfl, -⟩, hle⟩ := h
  exact Int.not_lt.mp hle

theorem checkPersonalCap_ok {cap current : Int} {u : Unit}
    (h : checkPersonalCap (some cap) current amount = .ok u) : current + amount ≤ cap := by
  simp only [checkPersonalCap, bind_eq_ok, okOr_eq_ok, I128.checkedAdd_eq_some,
    rejectIf_eq_ok] at h
  obtain ⟨_, ⟨rfl, -⟩, hle⟩ := h
  exact Int.not_lt.mp hle

theorem acceptContribution_within (h : acceptContribution env s c who amount = .ok s') :
    ∃ record, s.campaigns.campaign c = some record ∧ WithinCaps s record c who amount := by
  simp only [acceptContribution, getCampaignOrError, bind_eq_ok, okOr_eq_ok] at h
  obtain ⟨_, -, record, hrecord, _, -, _, -, _, -, _, -, _, htransaction, _, hlifetime, _,
    hpersonal, -⟩ := h
  refine ⟨record, hrecord, checkContributionCaps_ok hlifetime, fun cap hcap => ?_, fun hpos => ?_⟩
  · rw [hcap] at hpersonal
    exact checkPersonalCap_ok hpersonal
  · simp only [checkTransactionContributionCap, rejectIf_eq_ok, not_and] at htransaction
    exact Int.not_lt.mp (htransaction hpos)

/-! ## The invariant -/

/-- The entries of one campaign respect its cap and the caps of its contributors. -/
structure Account.Capped (a : Account) (caps : Address → Option Int) : Prop where
  lifetime : 0 < a.record.maxContributionPerUser →
    ∀ who, a.funds.lifetime who ≤ a.record.maxContributionPerUser
  personal : ∀ who cap, caps who = some cap → a.funds.contribution who ≤ cap ∧
    (0 < a.record.maxContributionPerUser → cap ≤ a.record.maxContributionPerUser)

/-- So do those of every campaign, and no cap is set before its campaign exists. -/
structure Capped (s : State) : Prop where
  account : ∀ c a, (view s).account c = some a → a.Capped ((board s).personalCap c)
  free : ∀ c, (view s).account c = none → ∀ who, (board s).personalCap c who = none

theorem Capped.congr (h : Capped s) (haccount : (view s').account = (view s).account)
    (hcaps : (board s').personalCap = (board s).personalCap) : Capped s' where
  account c a ha := by
    rw [hcaps]
    exact h.account c a (haccount ▸ ha)
  free c hnone := by
    rw [hcaps]
    exact h.free c (haccount ▸ hnone)

theorem Account.Capped.contribute {caps : Address → Option Int} {admin : Option Address}
    (capped : a.Capped caps)
    (hlifetime : 0 < a.record.maxContributionPerUser →
      a.funds.lifetime who + amount ≤ a.record.maxContributionPerUser)
    (hpersonal : ∀ cap, caps who = some cap → a.funds.contribution who + amount ≤ cap) :
    (a.contribute admin who amount).Capped caps where
  lifetime hpos other := by
    by_cases hother : other = who
    · subst hother
      simpa [Account.contribute] using hlifetime hpos
    · simpa [Account.contribute, hother] using capped.lifetime hpos other
  personal other cap hcap := by
    obtain ⟨hle, hmax⟩ := capped.personal other cap hcap
    refine ⟨?_, hmax⟩
    by_cases hother : other = who
    · subst hother
      simpa [Account.contribute] using hpersonal cap hcap
    · simpa [Account.contribute, hother] using hle

theorem acceptContribution_capped (h : acceptContribution env s c who amount = .ok s')
    (capped : Capped s) : Capped s' := by
  obtain ⟨record, hrecord, within⟩ := acceptContribution_within h
  obtain ⟨a, ha, -, -, hview⟩ := acceptContribution_spec h
  obtain ⟨_, -, hboard⟩ := acceptContribution_board h
  obtain ⟨hsame, hfunds⟩ := View.account_eq_some.mp ha
  obtain rfl : record = a.record := Option.some.inj (hrecord.symm.trans hsame)
  have hcaps : (board s').personalCap = (board s).personalCap := by rw [hboard]
  have haccount : (view s').account =
      ((view s).setAccount c (a.contribute (view s).admin.admin who amount)).account := by
    rw [hview]
    rfl
  have hlifetime := within.lifetime
  have hpersonal := within.personal
  have hentries : fundsOf s c = a.funds := hfunds
  rw [show s.contributions.lifetimeContribution c = (fundsOf s c).lifetime from rfl, hentries]
    at hlifetime
  rw [contribution_view, hfunds] at hpersonal
  refine ⟨fun other b hb => ?_, fun other hnone => ?_⟩
  · rw [haccount, View.setAccount_account] at hb
    rw [hcaps]
    split at hb
    next hother =>
        rw [← Option.some.inj hb, hother]
        exact (capped.account c a ha).contribute hlifetime hpersonal
    next => exact capped.account other b hb
  · rw [haccount, View.setAccount_account] at hnone
    rw [hcaps]
    split at hnone
    next => cases hnone
    next => exact capped.free other hnone

theorem transfer_capped {token sender recipient : Address} (capped : Capped s)
    (h : transfer s token sender recipient amount = .ok s') : Capped s' := by
  obtain ⟨-, -, hview⟩ := transfer_view _ h
  refine capped.congr ?_ (by rw [transfer_board h])
  rw [hview]
  rfl

theorem contribute_capped (h : contribute env s c who amount = .ok s') (capped : Capped s) :
    Capped s' := by
  simp only [contribute, bind_eq_ok, okOr_eq_ok] at h
  obtain ⟨_, -, _, -, s1, hs1, total, -, token, -, h⟩ := h
  refine transfer_capped ((acceptContribution_capped hs1 capped).congr ?_ ?_) h
  · rw [view_setLastContributionTime, updateTopContributor_view]
  · rw [board_setLastContributionTime, updateTopContributor_board]

/-- Item after item, each against the entries that the items before it left. -/
theorem batchContribute_capped {items : List (Nat × Int)}
    (h : batchContribute env s who items = .ok s') (capped : Capped s) : Capped s' := by
  simp only [batchContribute, bind_eq_ok] at h
  obtain ⟨_, -, _, -, _, -, progress, hprogress, h⟩ := h
  have hitems : Capped progress.state :=
    each_preserves (fun progress : BatchProgress => Capped progress.state)
      (fun _ _ _ hmid hstep => acceptContribution_capped (batchContributeItem_view hstep) hmid)
      items _ _ capped hprogress
  exact each_preserves Capped (fun _ _ _ hmid hstep => transfer_capped hmid hstep) _ _ _ hitems h

/-! ## Everything else that a call can do -/

/-- Only a contribution raises an entry, and no act moves the campaign's cap. -/
theorem AccountStep.entries_le (h : AccountStep env v c act moves delta a a')
    (hact : act.isContribution = false) :
    a'.record.maxContributionPerUser = a.record.maxContributionPerUser ∧
      a'.funds.lifetime = a.funds.lifetime ∧
      ∀ who, a'.funds.contribution who ≤ a.funds.contribution who := by
  cases h with
  | contributed => cases hact
  | @refunded _ who token refundable pos =>
      refine ⟨rfl, rfl, fun other => ?_⟩
      by_cases hother : other = who
      · subst hother
        simpa [Account.refund] using Int.le_of_lt pos
      · simp [Account.refund, hother]
  | claimed =>
      refine ⟨?_, rfl, fun _ => Int.le_refl _⟩
      rw [Account.claimMilestone_record]
  | _ => exact ⟨rfl, rfl, fun _ => Int.le_refl _⟩

theorem AccountStep.capped {caps caps' : Address → Option Int}
    (h : AccountStep env v c act moves delta a a') (hact : act.isContribution = false)
    (capped : a.Capped caps)
    (hcaps : ∀ who cap, caps' who = some cap → caps who = some cap ∨
      a.funds.contribution who ≤ cap ∧
        (0 < a.record.maxContributionPerUser → cap ≤ a.record.maxContributionPerUser)) :
    a'.Capped caps' := by
  obtain ⟨hmax, hlifetime, hcontribution⟩ := h.entries_le hact
  refine ⟨fun hpos who => ?_, fun who cap hcap => ?_⟩
  · rw [hmax] at hpos ⊢
    rw [hlifetime]
    exact capped.lifetime hpos who
  · rw [hmax]
    rcases hcaps who cap hcap with hheld | ⟨hcovers, hwithin⟩
    · obtain ⟨hle, hbound⟩ := capped.personal who cap hheld
      exact ⟨Int.le_trans (hcontribution who) hle, hbound⟩
    · exact ⟨Int.le_trans (hcontribution who) hcovers, hwithin⟩

/-- A cap that stands after the call stood before it, or was set by it to cover the
lifetime total within the cap of the campaign. -/
theorem dispatch_caps (hcall : call.deploys = false) (h : dispatch env s call = .ok s')
    {cap : Int} (hcap : (board s').personalCap c who = some cap) :
    (board s).personalCap c who = some cap ∨
      ∃ record, s.campaigns.campaign c = some record ∧
        s.contributions.lifetimeContribution c who ≤ cap ∧
        (0 < record.maxContributionPerUser → cap ≤ record.maxContributionPerUser) := by
  have hlifted : ∀ {id : Nat} {other : Address},
      put (board s).personalCap id other none c who = some cap →
      (board s).personalCap c who = some cap := by
    intro id other hput
    rw [put_apply] at hput
    split at hput
    next => cases hput
    next => exact hput
  rcases dispatch_entries hcall h with ⟨-, -, -, hkept | ⟨id, other, -, hrefund⟩⟩ | hentry
  · exact .inl (hkept ▸ hcap)
  · rw [hrefund] at hcap
    exact .inl (hlifted hcap)
  · generalize hboard : board s' = b at hentry hcap
    cases hentry with
    | @capPersonal id other amount record signed hrecord nonneg covers within =>
        dsimp only at hcap
        rw [put_apply] at hcap
        split at hcap
        next hat =>
            obtain ⟨rfl, rfl⟩ := hat
            rw [← Option.some.inj hcap]
            exact .inr ⟨record, hrecord, covers, within⟩
        next => exact .inl hcap
    | uncapPersonal => exact .inl (hlifted hcap)
    | censure =>
        unfold Board.censure at hcap
        split at hcap <;> exact .inl hcap
    | uncensure =>
        unfold Board.uncensure at hcap
        split at hcap <;> exact .inl hcap
    | _ => exact .inl hcap

/-! ## Along a run -/

def Call.contributes : Call → Bool
  | .contribute .. | .batchContribute .. => true
  | _ => false

theorem Call.act_of_not_contributes (h : call.contributes = false) (c : Nat) :
    (call.act c).isContribution = false := by
  cases call with
  | contribute | batchContribute => cases h
  | _ =>
      dsimp only [Call.act]
      first
      | rfl
      | (split <;> rfl)

/-- A call that does not contribute keeps the caps. -/
theorem Receipt.Valid.capped_of_not {r : Receipt} (h : r.Valid host) (sane : (view r.pre).Sane)
    (books : ∀ c a, (view r.pre).account c = some a → a.Books)
    (hcall : r.call.contributes = false) (capped : Capped r.pre) : Capped r.post := by
  have hstepped := h.stepped sane
  have hcaps : ∀ {c : Nat} {who : Address} {cap : Int},
      (board r.post).personalCap c who = some cap → _ :=
    fun hcap => dispatch_caps (h.not_deploys sane.toConfigured) h.dispatched hcap
  -- without a campaign there is no cap before the call, and none is set by it
  have hfree : ∀ c, (view r.pre).account c = none →
      ∀ who, (board r.post).personalCap c who = none := by
    intro c hnone who
    cases hcap : (board r.post).personalCap c who with
    | none => rfl
    | some cap =>
        rcases hcaps hcap with hheld | ⟨record, hrecord, -⟩
        · have hcaps' : (board r.pre).personalCap c who = some cap := hheld
          rw [capped.free c hnone who] at hcaps'
          cases hcaps'
        · have hnone' : (view r.pre).campaign c = none := by
            simpa [View.account] using hnone
          rw [show (view r.pre).campaign c = some record from hrecord] at hnone'
          cases hnone'
  refine ⟨fun c a' ha' => ?_, fun c hnone => ?_⟩
  · cases hc : (view r.pre).account c with
    | none =>
        rcases (hstepped.free c hc).2 with ⟨hgone, -⟩ | ⟨-, b, hb, hborn⟩
        · rw [hgone] at ha'
          cases ha'
        · obtain rfl := Option.some.inj (ha'.symm.trans hb)
          refine ⟨fun hpos who => ?_, fun who cap hcap => ?_⟩
          · cases hborn
            exact Int.le_of_lt hpos
          · rw [hfree c hc who] at hcap
            cases hcap
    | some a =>
        obtain ⟨delta, -, hexisting⟩ := hstepped.existing
        obtain ⟨b, hb, hstep⟩ := hexisting c a hc
        obtain rfl := Option.some.inj (ha'.symm.trans hb)
        refine hstep.capped (Call.act_of_not_contributes hcall c) (capped.account c a hc)
          fun who cap hcap => ?_
        obtain ⟨hrecord, hfunds⟩ := View.account_eq_some.mp hc
        rcases hcaps hcap with hheld | ⟨record, hrecord', hcovers, hwithin⟩
        · exact .inl hheld
        · obtain rfl : record = a.record := Option.some.inj (hrecord'.symm.trans hrecord)
          have hlifetime : a.funds.lifetime who ≤ cap := by
            rw [← hfunds]
            exact hcovers
          exact .inr ⟨Int.le_trans ((books c a hc).contribution_le who) hlifetime, hwithin⟩
  · refine hfree c ?_
    cases hc : (view r.pre).account c with
    | none => rfl
    | some a =>
        obtain ⟨delta, -, hexisting⟩ := hstepped.existing
        obtain ⟨b, hb, -⟩ := hexisting c a hc
        rw [hnone] at hb
        cases hb

theorem Receipt.Valid.capped {r : Receipt} (h : r.Valid host) (sane : (view r.pre).Sane)
    (books : ∀ c a, (view r.pre).account c = some a → a.Books) (capped : Capped r.pre) :
    Capped r.post := by
  have hdispatch := h.dispatched
  have hclear : Capped r.pre.clearMoved := capped.congr rfl rfl
  have hother := h.capped_of_not sane books
  generalize r.call = call at hdispatch hother
  cases call with
  | contribute c who amount => exact contribute_capped hdispatch hclear
  | batchContribute who items => exact batchContribute_capped hdispatch hclear
  | _ => exact hother rfl capped

theorem run_capped (run : Run (machine host) tr cfg) : Capped cfg.state := by
  refine run.invariant (I := fun _ cfg => Capped cfg.state) ?_ ?_ ?_
  · intro r cfg hstart
    refine ⟨fun c a ha => ?_, fun c _ who => ?_⟩
    · rw [(start_fresh hstart).account_none] at ha
      cases ha
    · rw [start_board hstart]
      rfl
  · rintro tr cfg r cfg' run capped ⟨hvalid, -, hpre, rfl⟩
    have sane := run_sane run
    have books : ∀ c a, (view cfg.state).account c = some a → a.Books :=
      fun c a ha => (run_books run ha).1
    rw [← hpre] at sane books capped
    exact hvalid.capped sane books capped
  · rintro tr cfg cfg' capped ⟨tokens, -, rfl⟩
    exact capped.congr rfl rfl

/-! ## The lifetime total -/

theorem Account.lifetime_le_contributeAll {admin : Option Address} {amounts : List Int}
    (pos : ∀ amount ∈ amounts, 0 < amount) (other : Address) :
    a.funds.lifetime other ≤ (a.contributeAll admin who amounts).funds.lifetime other := by
  induction amounts generalizing a with
  | nil => exact Int.le_refl _
  | cons amount rest ih =>
      have hfirst : a.funds.lifetime other ≤
          (a.contribute admin who amount).funds.lifetime other := by
        have hpos := pos amount List.mem_cons_self
        by_cases hother : other = who
        · subst hother
          simp [Account.contribute]
          omega
        · simp [Account.contribute, hother]
      exact Int.le_trans hfirst (ih fun x hx => pos x (List.mem_cons_of_mem _ hx))

theorem AccountStep.lifetime_le (h : AccountStep env v c act moves delta a a') (who : Address) :
    a.funds.lifetime who ≤ a'.funds.lifetime who := by
  cases hact : act.isContribution with
  | true =>
      cases h with
      | contributed nonempty pos => exact Account.lifetime_le_contributeAll pos who
      | _ => cases hact
  | false =>
      obtain ⟨-, hlifetime, -⟩ := h.entries_le hact
      rw [hlifetime]

theorem Receipt.Valid.lifetime_le {r : Receipt} (h : r.Valid host) (sane : (view r.pre).Sane)
    (c : Nat) (who : Address) : r.pre.contributions.lifetimeContribution c who ≤
      r.post.contributions.lifetimeContribution c who := by
  have hstepped := h.stepped sane
  change ((view r.pre).funds c).lifetime who ≤ ((view r.post).funds c).lifetime who
  cases hc : (view r.pre).account c with
  | none =>
      rw [sane.blank c hc]
      rcases (hstepped.free c hc).2 with ⟨-, hfunds⟩ | ⟨-, b, hb, hborn⟩
      · rw [hfunds, sane.blank c hc]
      · rw [(View.account_eq_some.mp hb).2]
        cases hborn
        exact Int.le_refl 0
  | some a =>
      obtain ⟨delta, -, hexisting⟩ := hstepped.existing
      obtain ⟨b, hb, hstep⟩ := hexisting c a hc
      rw [(View.account_eq_some.mp hc).2, (View.account_eq_some.mp hb).2]
      exact hstep.lifetime_le who

/-- No state of a run has a higher lifetime total than a later one. -/
theorem run_lifetime_le (run : Run (machine host) tr cfg) : ∀ r ∈ tr, ∀ c who,
    r.pre.contributions.lifetimeContribution c who ≤
      r.post.contributions.lifetimeContribution c who ∧
    r.post.contributions.lifetimeContribution c who ≤
      cfg.state.contributions.lifetimeContribution c who := by
  refine run.invariant (I := fun tr cfg => ∀ r ∈ tr, ∀ c who,
    r.pre.contributions.lifetimeContribution c who ≤
      r.post.contributions.lifetimeContribution c who ∧
    r.post.contributions.lifetimeContribution c who ≤
      cfg.state.contributions.lifetimeContribution c who) ?_ ?_ ?_
  · rintro r cfg ⟨hvalid, ⟨tokens, hpre⟩, hcall, rfl⟩ x hx c who
    rw [List.mem_singleton.mp hx]
    have hfresh : fundsOf r.post c = .blank :=
      (start_fresh ⟨hvalid, ⟨tokens, hpre⟩, hcall, rfl⟩).funds c
    have hpost : r.post.contributions.lifetimeContribution c who = 0 := by
      change (fundsOf r.post c).lifetime who = 0
      rw [hfresh]
      rfl
    rw [hpost, hpre]
    exact ⟨Int.le_refl 0, Int.le_refl 0⟩
  · rintro tr cfg r cfg' run ih ⟨hvalid, -, hpre, rfl⟩ x hx c who
    have sane := run_sane run
    rw [← hpre] at sane ih
    have hnow := hvalid.lifetime_le sane c who
    rcases List.mem_cons.mp hx with rfl | hx
    · exact ⟨hnow, Int.le_refl _⟩
    · obtain ⟨hfirst, hlater⟩ := ih x hx c who
      exact ⟨hfirst, Int.le_trans hlater hnow⟩
  · rintro tr cfg cfg' ih ⟨tokens, -, rfl⟩
    exact ih

/-! ## The cap of a single amount -/

theorem batchContribute_within {items : List (Nat × Int)}
    (h : batchContribute env s who items = .ok s')
    (hpos : 0 < s.admin.maxContributionPerTransaction) :
    ∀ item ∈ items, item.2 ≤ s.admin.maxContributionPerTransaction := by
  simp only [batchContribute, bind_eq_ok] at h
  obtain ⟨_, -, _, -, _, -, progress, hprogress, -⟩ := h
  have hvisits := each_visits (fun progress : BatchProgress => progress.state.admin = s.admin)
    (fun mid item next hmid hstep => by
      obtain ⟨_, _, _, _, hview⟩ := acceptContribution_spec (batchContributeItem_view hstep)
      have hadmin : next.state.admin = mid.state.admin := congrArg View.admin hview
      exact hadmin.trans hmid) items _ _ rfl hprogress
  intro item hitem
  obtain ⟨mid, next, hadmin, hstep⟩ := hvisits item hitem
  obtain ⟨record, -, within⟩ := acceptContribution_within (batchContributeItem_view hstep)
  rw [← hadmin] at hpos ⊢
  exact within.transaction hpos

theorem Receipt.Valid.transaction_le {r : Receipt} {amounts : List Int} (h : r.Valid host)
    (hact : r.call.act c = .contribute who amounts)
    (hpos : 0 < r.pre.admin.maxContributionPerTransaction) :
    ∀ amount ∈ amounts, amount ≤ r.pre.admin.maxContributionPerTransaction := by
  have hdispatch := h.dispatched
  generalize r.call = call at hdispatch hact
  intro amount hamount
  cases call with
  | contribute id other single =>
      dsimp only [Call.act] at hact
      split at hact
      next =>
          obtain ⟨rfl, rfl⟩ := Act.contribute.inj hact
          simp only [dispatch, contribute, bind_eq_ok] at hdispatch
          obtain ⟨_, -, _, -, s1, hs1, -⟩ := hdispatch
          obtain ⟨record, -, within⟩ := acceptContribution_within hs1
          rw [List.mem_singleton.mp hamount]
          exact within.transaction hpos
      next => cases hact
  | batchContribute other items =>
      dsimp only [Call.act] at hact
      split at hact
      next => cases hact
      next =>
          obtain ⟨rfl, rfl⟩ := Act.contribute.inj hact
          obtain ⟨item, hitem, rfl⟩ := List.mem_map.mp hamount
          exact batchContribute_within hdispatch hpos item (List.mem_filter.mp hitem).1
  | _ =>
      dsimp only [Call.act] at hact
      first
      | cases hact
      | (split at hact <;> cases hact)

/-- The platform's cap is never negative; zero stands for none. -/
theorem run_transactionCap_nonneg (run : Run (machine host) tr cfg) :
    0 ≤ cfg.state.admin.maxContributionPerTransaction := by
  refine run.invariant
    (I := fun _ cfg => 0 ≤ cfg.state.admin.maxContributionPerTransaction) ?_ ?_ ?_
  · rintro r cfg ⟨⟨-, hinvoke⟩, ⟨tokens, hpre⟩, ⟨admin, token, platformFee, hcall⟩, rfl⟩
    rw [hpre, hcall] at hinvoke
    simp only [invoke, dispatch, init, bind_eq_ok, pure_eq_ok] at hinvoke
    obtain ⟨_, -, _, -, _, -, _, -, _, -, _, -, hpost⟩ := hinvoke
    rw [← hpost]
  · rintro tr cfg r cfg' run ih ⟨hvalid, -, hpre, rfl⟩
    have sane := run_sane run
    rw [← hpre] at sane ih
    rcases (hvalid.effect sane.toConfigured).admin with hsame | ⟨store, hstep, hstore⟩
    · have hadmin : r.post.admin = r.pre.admin := hsame
      rw [hadmin]
      exact ih
    · have hadmin : r.post.admin = store := hstore
      rw [hadmin]
      generalize r.call = call at hstep
      cases hstep with
      | contributionCap byAdmin nonneg => exact nonneg
      | _ => exact ih
  · rintro tr cfg cfg' ih ⟨tokens, -, rfl⟩
    exact ih

/-- The caps bound what they are compared with in every state, the lifetime total only
grows, and each accepted amount is within the cap on single amounts. -/
theorem contributionCaps_hold (run : Run (machine host) tr cfg) :
    (∀ c campaign, cfg.state.campaigns.campaign c = some campaign → ∀ who,
      (0 < campaign.maxContributionPerUser →
        cfg.state.contributions.lifetimeContribution c who ≤ campaign.maxContributionPerUser) ∧
      ∀ cap, cfg.state.contributions.personalCap c who = some cap →
        0 ≤ cfg.state.contributions.contribution c who ∧
        cfg.state.contributions.contribution c who ≤ cap ∧
        (0 < campaign.maxContributionPerUser → cap ≤ campaign.maxContributionPerUser)) ∧
    (∀ c who, cfg.state.campaigns.campaign c = none →
      cfg.state.contributions.personalCap c who = none) ∧
    (∀ r ∈ tr, ∀ c who,
      r.pre.contributions.lifetimeContribution c who ≤
        r.post.contributions.lifetimeContribution c who ∧
      r.post.contributions.lifetimeContribution c who ≤
        cfg.state.contributions.lifetimeContribution c who) ∧
    ∀ r ∈ tr, ∀ c who amounts, r.call.act c = .contribute who amounts →
      r.pre.admin.maxContributionPerTransaction ≠ 0 →
      ∀ amount ∈ amounts, amount ≤ r.pre.admin.maxContributionPerTransaction := by
  have capped := run_capped run
  refine ⟨fun c campaign hcampaign who => ?_, fun c who hnone => ?_, run_lifetime_le run,
    fun r hr c who amounts hact hcap => ?_⟩
  · have ha := View.account_of_campaign (v := view cfg.state) hcampaign
    have haccount := capped.account c _ ha
    refine ⟨fun hpos => haccount.lifetime hpos who, fun cap hcap => ?_⟩
    obtain ⟨hle, hmax⟩ := haccount.personal who cap hcap
    exact ⟨(run_books run ha).1.contribution_nonneg who, hle, hmax⟩
  · exact capped.free c (by rw [View.account, ← campaign_view, hnone]; rfl) who
  · have hcaps : ∀ r ∈ tr, ∀ c who amounts, r.call.act c = .contribute who amounts →
        r.pre.admin.maxContributionPerTransaction ≠ 0 →
        ∀ amount ∈ amounts, amount ≤ r.pre.admin.maxContributionPerTransaction := by
      refine run_receipts ?_ ?_ run
      · rintro r cfg ⟨-, -, ⟨admin, token, platformFee, hcall⟩, -⟩ c who amounts hact
        rw [hcall] at hact
        cases hact
      · intro tr cfg r run hvalid hpre c who amounts hact hcap
        have hnonneg := run_transactionCap_nonneg run
        rw [← hpre] at hnonneg
        exact hvalid.transaction_le hact (Int.lt_iff_le_and_ne.mpr ⟨hnonneg, hcap.symm⟩)
    exact hcaps r hr c who amounts hact hcap

/-- A campaign with a cap of its own, a contributor who sets a lower one and a cap on
single amounts. -/
def Sample.capped : List Request :=
  [ask 0 creator (.createCampaign { params [0] 0 with maxContributionPerUser := 60000 }),
    ask 0 admin (.verifyCampaign 1), ask 0 admin (.setMaxContributionPerTx admin 30000),
    ask 1 alice (.contribute 1 alice 20000), ask 2 alice (.setPersonalCap 1 alice 50000),
    ask 3 alice (.batchContribute alice [(1, 10000), (1, 20000)])]

theorem contributionCaps_sample :
    ∃ tr cfg, Run (machine Sample.host) tr cfg ∧
      cfg.state.contributions.personalCap 1 Sample.alice = some 50000 ∧
      cfg.state.contributions.contribution 1 Sample.alice = 50000 ∧
      cfg.state.contributions.contribution 1 Sample.alice ≤ 50000 := by
  have h : Sample.Ends 0 Sample.capped fun _ cfg =>
      (cfg.state.campaigns.campaign 1).isSome ∧
        cfg.state.contributions.personalCap 1 Sample.alice = some 50000 ∧
        cfg.state.contributions.contribution 1 Sample.alice = 50000 := by
    decide +kernel
  obtain ⟨tr, cfg, run, hcampaign, hcap, hcontribution⟩ := h.run
  obtain ⟨campaign, hcampaign⟩ := Option.isSome_iff_exists.mp hcampaign
  obtain ⟨hcaps, -⟩ := contributionCaps_hold run
  exact ⟨tr, cfg, run, hcap, hcontribution,
    ((hcaps 1 campaign hcampaign Sample.alice).2 50000 hcap).2.1⟩

end ProofOfHeart
