import ProofOfHeart.Account.Act

/-! # Campaigns along a run

The history of a campaign is read off the receipts of a run: the acts of their
calls and the transfers these made. `account_run` is the induction rule that the
laws about one campaign use: what holds of a newborn account and is kept by every
`AccountStep` holds of the account in every state a run reaches.
-/

namespace ProofOfHeart

open Checked Function Trace

/-! ## What a run has paid -/

/-- What a call moves that makes the act, if the act is of the given kind. -/
def Act.pays (kind : Act → Bool) (act : Act) (moves : List Transfer) : Int :=
  if kind act then (moves.map Transfer.amount).sum else 0

/-- What the acts of one kind on campaign `c` have moved. -/
def paidFor (kind : Act → Bool) (c : Nat) (tr : List Receipt) : Int :=
  (tr.map fun r => (r.call.act c).pays kind r.post.tokens.moved).sum

def Act.isContribution : Act → Bool
  | .contribute .. => true
  | _ => false

def Act.isRefund : Act → Bool
  | .refund _ => true
  | _ => false

def Act.isWithdraw : Act → Bool
  | .withdraw => true
  | _ => false

def Act.isRelease : Act → Bool
  | .release => true
  | _ => false

def Act.isMilestoneClaim : Act → Bool
  | .claimMilestone _ => true
  | _ => false

def Act.isDeposit : Act → Bool
  | .deposit _ => true
  | _ => false

def Act.isRevenueClaim : Act → Bool
  | .claimRevenue _ | .claimCreatorRevenue => true
  | _ => false

/-- The creator is paid from the contributions. -/
def Act.isPayout (act : Act) : Bool := act.isWithdraw || act.isMilestoneClaim

def Act.contributed : Act → Int
  | .contribute _ amounts => amounts.sum
  | _ => 0

/-- Everything contributed to campaign `c`, singly or in a batch. -/
def contributedTo (c : Nat) (tr : List Receipt) : Int :=
  (tr.map fun r => (r.call.act c).contributed).sum

section History

variable {kind : Act → Bool} {c : Nat} {r : Receipt} {tr : List Receipt}

@[simp] theorem paidFor_nil : paidFor kind c [] = 0 := rfl

theorem paidFor_cons : paidFor kind c (r :: tr) =
    (r.call.act c).pays kind r.post.tokens.moved + paidFor kind c tr := rfl

theorem Act.pays_of_not {act : Act} {moves : List Transfer} (h : kind act = false) :
    act.pays kind moves = 0 := by
  rw [Act.pays, h, if_neg Bool.false_ne_true]

@[simp] theorem contributedTo_nil : contributedTo c [] = 0 := rfl

theorem contributedTo_cons : contributedTo c (r :: tr) =
    (r.call.act c).contributed + contributedTo c tr := rfl

theorem paidFor_eq_zero_of_none (h : ∀ r ∈ tr, kind (r.call.act c) = false) :
    paidFor kind c tr = 0 := by
  induction tr with
  | nil => rfl
  | cons r rest ih =>
      rw [paidFor_cons, Act.pays_of_not (h r List.mem_cons_self), Int.zero_add]
      exact ih fun x hx => h x (List.mem_cons_of_mem _ hx)

/-- While no call acts on a campaign its history is empty. -/
theorem paidFor_eq_zero (hkind : kind .other = false) (h : ∀ r ∈ tr, r.call.act c = .other) :
    paidFor kind c tr = 0 :=
  paidFor_eq_zero_of_none fun r hr => by rw [h r hr, hkind]

theorem contributedTo_eq_zero (h : ∀ r ∈ tr, r.call.act c = .other) : contributedTo c tr = 0 := by
  induction tr with
  | nil => rfl
  | cons r rest ih =>
      rw [contributedTo_cons, h r List.mem_cons_self]
      exact (Int.zero_add _).trans (ih fun x hx => h x (List.mem_cons_of_mem _ hx))

end History

/-! ## What holds of every state -/

/-- The settings are in force and within their bounds. -/
structure View.Configured (v : View) : Prop where
  initialized : v.admin.initialized = true
  administered : ∃ admin, v.admin.admin = some admin
  feeBound : v.admin.platformFee.getD 300 ≤ platformFeeMaxBps

structure View.Sane (v : View) : Prop extends View.Registered v, View.Configured v

theorem Stepped.registered {env : Env} {v v' : View} {call : Call} (h : Stepped env v call v')
    (reg : v.Registered) : v'.Registered where
  exists_iff c := by
    constructor
    · rintro ⟨a', ha'⟩
      cases hc : v.account c with
      | some a =>
          have hold := (reg.exists_iff c).mp ⟨a, hc⟩
          rcases h.count with hcount | ⟨hcount, -⟩ <;> omega
      | none =>
          rcases (h.free c hc).2 with ⟨hnone, -⟩ | ⟨hcount, a, -, hborn⟩
          · rw [hnone] at ha'
            cases ha'
          · cases hborn
            omega
    · rintro ⟨hpos, hle⟩
      by_cases hold : c ≤ v.campaignCount
      · obtain ⟨a, ha⟩ := (reg.exists_iff c).mpr ⟨hpos, hold⟩
        obtain ⟨delta, -, hstep⟩ := h.existing
        obtain ⟨a', ha', -⟩ := hstep c a ha
        exact ⟨a', ha'⟩
      · rcases h.count with hcount | ⟨hcount, hnew⟩
        · omega
        · rwa [show c = v.campaignCount + 1 by omega]
  blank c hnone := by
    cases hc : v.account c with
    | some a =>
        obtain ⟨delta, -, hstep⟩ := h.existing
        obtain ⟨a', ha', -⟩ := hstep c a hc
        rw [hnone] at ha'
        cases ha'
    | none =>
        rcases (h.free c hc).2 with ⟨-, hfunds⟩ | ⟨-, a, ha, -⟩
        · rw [hfunds, reg.blank c hc]
        · rw [hnone] at ha
          cases ha

/-- Only the administration changes the settings. -/
theorem Effect.admin {env : Env} {v v' : View} {call : Call} (h : Effect env v call v') :
    v'.admin = v.admin ∨ ∃ store, AdminStep env v call store ∧ v'.admin = store := by
  cases h with
  | administer h =>
      obtain ⟨store, hstep, rfl⟩ := h
      exact .inr ⟨store, hstep, rfl⟩
  | batch batched => exact .inl batched.admin
  | verifications h => exact .inl h.unchanged.2.1
  | _ => exact .inl rfl

theorem Effect.configured {env : Env} {v v' : View} {call : Call} (h : Effect env v call v')
    (conf : v.Configured) : v'.Configured := by
  rcases h.admin with hsame | ⟨store, hstep, hstore⟩
  · exact ⟨hsame ▸ conf.initialized, hsame ▸ conf.administered, hsame ▸ conf.feeBound⟩
  · have hkept : store.initialized = true ∧ (∃ admin, store.admin = some admin) ∧
        store.platformFee.getD 300 ≤ platformFeeMaxBps := by
      cases hstep with
      | fee byAdmin bounded => exact ⟨conf.initialized, conf.administered, bounded⟩
      | handOver => exact ⟨conf.initialized, ⟨_, rfl⟩, conf.feeBound⟩
      | _ => exact ⟨conf.initialized, conf.administered, conf.feeBound⟩
    exact ⟨hstore ▸ hkept.1, hstore ▸ hkept.2.1, hstore ▸ hkept.2.2⟩

/-! ## The rules for runs -/

theorem AccountStep.of_tokens {env : Env} {v : View} {tokens : Tokens} {c : Nat} {act : Act}
    {moves : List Transfer} {delta : Int} {a a' : Account}
    (h : AccountStep env { v with tokens := tokens } c act moves delta a a') :
    AccountStep env v c act moves delta a a' := by
  cases h <;> constructor <;> assumption

theorem Born.of_tokens {env : Env} {v : View} {tokens : Tokens} {call : Call} {c : Nat}
    {a : Account} (h : Born env { v with tokens := tokens } call c a) : Born env v call c a := by
  cases h
  constructor <;> assumption

variable {host : Host} {tr : List Receipt} {cfg : Config}

theorem Receipt.Valid.dispatched {r : Receipt} (h : r.Valid host) :
    dispatch r.env r.pre.clearMoved r.call = .ok r.post := by
  have hinvoke := h.2
  simp only [invoke, bind_eq_ok] at hinvoke
  obtain ⟨_, -, hdispatch⟩ := hinvoke
  exact hdispatch

theorem Receipt.Valid.not_deploys {r : Receipt} (h : r.Valid host)
    (conf : (view r.pre).Configured) : r.call.deploys = false :=
  dispatch_not_deploys (s := r.pre.clearMoved) conf.initialized h.dispatched

theorem Receipt.Valid.effect {r : Receipt} (h : r.Valid host) (sane : (view r.pre).Configured) :
    Effect r.env (view r.pre.clearMoved) r.call (view r.post) :=
  dispatch_effect (h.not_deploys sane) h.dispatched

theorem Receipt.Valid.stepped {r : Receipt} (h : r.Valid host) (sane : (view r.pre).Sane) :
    Stepped r.env (view r.pre) r.call (view r.post) := by
  have hstepped := (h.effect sane.toConfigured).stepped
    ⟨sane.exists_iff, sane.blank⟩ rfl
  obtain ⟨⟨delta, hraised, hexisting⟩, hfree, hcount⟩ := hstepped
  refine ⟨⟨delta, hraised, fun c a ha => ?_⟩, fun c hnone => ⟨(hfree c hnone).1, ?_⟩, hcount⟩
  · obtain ⟨a', ha', hstep⟩ := hexisting c a ha
    exact ⟨a', ha', hstep.of_tokens⟩
  · rcases (hfree c hnone).2 with hsame | ⟨hnext, a, ha, hborn⟩
    · exact .inl hsame
    · exact .inr ⟨hnext, a, ha, hborn.of_tokens⟩

/-- What `init` leaves: settings, and nothing else. -/
structure View.Fresh (v : View) : Prop where
  configured : v.Configured
  campaign : ∀ c, v.campaign c = none
  funds : ∀ c, v.funds c = .blank
  campaignCount : v.campaignCount = 0
  activeCount : v.activeCount = 0
  totalRaised : v.totalRaised = 0
  creators : v.creators = ⟨fun _ => 0, fun _ _ => [], fun _ _ => none⟩

theorem start_fresh {r : Receipt} (h : (machine host).Start r cfg) : (view cfg.state).Fresh := by
  obtain ⟨⟨-, hinvoke⟩, ⟨tokens, hpre⟩, ⟨admin, token, platformFee, hcall⟩, rfl⟩ := h
  rw [hpre, hcall] at hinvoke
  simp only [invoke, dispatch, init, bind_eq_ok, rejectIf_eq_ok, pure_eq_ok] at hinvoke
  obtain ⟨_, -, _, -, _, -, _, -, _, hfee, _, -, hpost⟩ := hinvoke
  rw [← hpost]
  exact ⟨⟨rfl, ⟨_, rfl⟩, Nat.le_of_not_lt hfee⟩, fun _ => rfl, fun _ => rfl, rfl, rfl, rfl, rfl⟩

theorem View.Fresh.account_none {v : View} (h : v.Fresh) (c : Nat) : v.account c = none := by
  rw [View.account, h.campaign]
  rfl

theorem View.Fresh.sane {v : View} (h : v.Fresh) : v.Sane where
  exists_iff c := by
    rw [h.account_none, h.campaignCount]
    simp
    omega
  blank c _ := h.funds c
  toConfigured := h.configured

theorem run_sane (run : Run (machine host) tr cfg) : (view cfg.state).Sane := by
  refine run.invariant (I := fun _ cfg => (view cfg.state).Sane) ?_ ?_ ?_
  · intro r cfg h
    exact (start_fresh h).sane
  · rintro tr cfg r cfg' - sane ⟨hvalid, -, hpre, rfl⟩
    rw [← hpre] at sane
    have hreg := (hvalid.stepped sane).registered sane.toRegistered
    have hconf := (hvalid.effect sane.toConfigured).configured
      ⟨sane.initialized, sane.administered, sane.feeBound⟩
    exact ⟨hreg, hconf⟩
  · rintro tr cfg cfg' sane ⟨tokens, -, rfl⟩
    exact ⟨⟨sane.exists_iff, sane.blank⟩,
      ⟨sane.initialized, sane.administered, sane.feeBound⟩⟩

/-- One call in a run, as campaign `c` sees it. -/
structure Passage (host : Host) (c : Nat) (tr : List Receipt) (cfg : Config) (r : Receipt)
    (act : Act) (moves : List Transfer) (delta : Int) (a a' : Account) : Prop where
  run : Run (machine host) tr cfg
  pre : r.pre = cfg.state
  time : cfg.ledger.timestamp ≤ r.env.timestamp
  before : (view r.pre).account c = some a
  configured : (view r.pre).Configured
  hact : r.call.act c = act
  hmoves : r.post.tokens.moved = moves
  step : AccountStep r.env (view r.pre) c act moves delta a a'

theorem Passage.paidFor_cons {kind : Act → Bool} {c : Nat} {r : Receipt} {act : Act}
    {moves : List Transfer} {delta : Int} {a a' : Account}
    (passage : Passage host c tr cfg r act moves delta a a') :
    paidFor kind c (r :: tr) = act.pays kind moves + paidFor kind c tr := by
  rw [ProofOfHeart.paidFor_cons, passage.hact, passage.hmoves]

/-- Before its creation no call acts on a campaign. -/
theorem run_absent (run : Run (machine host) tr cfg) {c : Nat}
    (hnone : (view cfg.state).account c = none) : ∀ r ∈ tr, r.call.act c = .other := by
  revert hnone
  refine run.invariant (I := fun tr cfg =>
    (view cfg.state).account c = none → ∀ r ∈ tr, r.call.act c = .other) ?_ ?_ ?_
  · rintro r cfg ⟨-, -, ⟨admin, token, platformFee, hcall⟩, -⟩ - x hx
    rw [List.mem_singleton.mp hx, hcall]
    rfl
  · rintro tr cfg r cfg' run ih ⟨hvalid, -, hpre, rfl⟩ hgone
    have sane := run_sane run
    rw [← hpre] at sane ih
    have hstepped := hvalid.stepped sane
    have hbefore : (view r.pre).account c = none := by
      cases hc : (view r.pre).account c with
      | none => rfl
      | some a =>
          obtain ⟨delta, -, hexisting⟩ := hstepped.existing
          obtain ⟨a', ha', -⟩ := hexisting c a hc
          rw [hgone] at ha'
          cases ha'
    intro x hx
    rcases List.mem_cons.mp hx with rfl | hx
    · exact (hstepped.free c hbefore).1
    · exact ih hbefore x hx
  · rintro tr cfg cfg' ih ⟨tokens, -, rfl⟩
    exact ih

/-- The induction rule for one campaign. The condition `C` is assumed of every
receipt, and the invariant may speak about the history and the time. -/
theorem account_run {C : Receipt → Prop} {I : List Receipt → Nat → Account → Prop} {c : Nat}
    (born : ∀ {tr r a}, (∀ x ∈ r :: tr, x.call.act c = .other) →
      Born r.env (view r.pre) r.call c a → I (r :: tr) r.env.timestamp a)
    (step : ∀ {tr cfg r act moves delta a a'}, Passage host c tr cfg r act moves delta a a' →
      (∀ x ∈ tr, C x) → C r → I tr cfg.ledger.timestamp a → I (r :: tr) r.env.timestamp a')
    (run : Run (machine host) tr cfg) (hC : ∀ r ∈ tr, C r) {a : Account}
    (ha : (view cfg.state).account c = some a) : I tr cfg.ledger.timestamp a := by
  suffices h : ∀ a, (view cfg.state).account c = some a → I tr cfg.ledger.timestamp a from h a ha
  refine run.guarded (C := C) (I := fun tr cfg =>
    ∀ a, (view cfg.state).account c = some a → I tr cfg.ledger.timestamp a) ?_ ?_ ?_ hC
  · intro r cfg hstart _ a ha
    rw [(start_fresh hstart).account_none] at ha
    cases ha
  · rintro tr cfg r cfg' run hearlier ih hr ⟨hvalid, hledger, hpre, rfl⟩ a' ha'
    have sane := run_sane run
    have habsent := run_absent run (c := c)
    rw [← hpre] at sane ih habsent
    have hstepped := hvalid.stepped sane
    cases hc : (view r.pre).account c with
    | none =>
        obtain ⟨hact, ⟨hstill, -⟩ | ⟨-, b, hb, hborn⟩⟩ := hstepped.free c hc
        · rw [hstill] at ha'
          cases ha'
        · rw [Option.some.inj (ha'.symm.trans hb)]
          exact born (List.forall_mem_cons.mpr ⟨hact, habsent hc⟩) hborn
    | some a =>
        obtain ⟨delta, -, hexisting⟩ := hstepped.existing
        obtain ⟨b, hb, hstep⟩ := hexisting c a hc
        rw [Option.some.inj (ha'.symm.trans hb)]
        exact step ⟨run, hpre, hledger.1, hc, sane.toConfigured, rfl, rfl, hstep⟩ hearlier hr
          (ih a hc)
  · rintro tr cfg cfg' ih ⟨tokens, -, rfl⟩
    exact ih

/-- The same rule without a condition. -/
theorem account_invariant {I : List Receipt → Nat → Account → Prop} {c : Nat}
    (born : ∀ {tr r a}, (∀ x ∈ r :: tr, x.call.act c = .other) →
      Born r.env (view r.pre) r.call c a → I (r :: tr) r.env.timestamp a)
    (step : ∀ {tr cfg r act moves delta a a'}, Passage host c tr cfg r act moves delta a a' →
      I tr cfg.ledger.timestamp a → I (r :: tr) r.env.timestamp a')
    (run : Run (machine host) tr cfg) {a : Account}
    (ha : (view cfg.state).account c = some a) : I tr cfg.ledger.timestamp a :=
  account_run (C := fun _ => True) born (fun passage _ _ hI => step passage hI) run
    (fun _ _ => trivial) ha

end ProofOfHeart
