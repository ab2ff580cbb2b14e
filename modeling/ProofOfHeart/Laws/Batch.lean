import ProofOfHeart.Account.Failure
import ProofOfHeart.Account.History
import ProofOfHeart.Board.Register
import ProofOfHeart.Lib.Payments

/-! # A batch of contributions and the same contributions one by one

Both accept each item in the same way. A single contribution is paid at once and also
keeps the statistics of its campaign; a batch adds up what is owed in each token and
pays at the end. Accepting an item looks at neither the tokens nor the statistics, so
that the two are runs of one shop with two ways of paying.
-/

namespace ProofOfHeart

open Checked Function Payments Trace

variable {env : Env} {s t : State} {c : Nat} {who : Address} {amount : Int} {token : Address}
  {leader : Nat → Option Address} {lastTime : Nat → Nat} {w : Tokens}

/-! ## What accepting a contribution does not look at -/

/-- The same store with other statistics and other tokens. -/
def State.retouch (s : State) (leader : Nat → Option Address) (lastTime : Nat → Nat)
    (w : Tokens) : State :=
  { s with
    contributions.topContributor := leader
    contributions.lastContributionTime := lastTime
    tokens := w }

theorem snapshotFeeRecipient_retouch {campaign : Campaign} :
    Mirrors (State.retouch · leader lastTime w) (snapshotFeeRecipient s c campaign)
      (snapshotFeeRecipient (s.retouch leader lastTime w) c campaign) :=
  .branch (.check fun _ => .done rfl) (.done rfl)

theorem countContributor_retouch {lifetime : Int} :
    Mirrors (State.retouch · leader lastTime w) (countContributor s c lifetime)
      (countContributor (s.retouch leader lastTime w) c lifetime) :=
  .branch (.check fun _ => .done rfl) (.done rfl)

theorem updateContributionAccounting_retouch {campaign : Campaign} {current lifetime : Int} :
    Mirrors (State.retouch · leader lastTime w)
      (updateContributionAccounting s c who campaign current lifetime amount)
      (updateContributionAccounting (s.retouch leader lastTime w) c who campaign current lifetime
        amount) :=
  .next snapshotFeeRecipient_retouch fun _ => .check fun _ => .check fun _ => .check fun _ =>
    .check fun _ => .next countContributor_retouch fun _ => .check fun _ => .done rfl

theorem checkBurstGuard_retouch {campaign : Campaign} :
    Mirrors (State.retouch · leader lastTime w) (checkBurstGuard env s c campaign amount)
      (checkBurstGuard env (s.retouch leader lastTime w) c campaign amount) :=
  .check fun _ => .check fun _ => .check fun _ => .check fun _ => .check fun _ =>
    .branch (.done rfl) (.check fun _ => .check fun _ => .done rfl)

theorem acceptContribution_retouch :
    Mirrors (State.retouch · leader lastTime w) (acceptContribution env s c who amount)
      (acceptContribution env (s.retouch leader lastTime w) c who amount) :=
  .check fun _ => .check fun _ => .check fun _ => .check fun _ => .check fun _ => .check fun _ =>
    .check fun _ => .check fun _ => .check fun _ => .next checkBurstGuard_retouch fun _ =>
      updateContributionAccounting_retouch

/-! ## One contribution -/

/-- Item accepted, with what it costs in the currency of its campaign. -/
def Accepted (env : Env) (who : Address) (s : State) (item : Nat × Int) (t : State)
    (token : Address) (cost : Int) : Prop :=
  acceptContribution env s item.1 who item.2 = .ok t ∧
    getCampaignToken t item.1 = .ok token ∧ cost = item.2

/-- Who signs, and that the contract is not paused. -/
def Admits (env : Env) (who : Address) (s : State) : Prop :=
  env.auth who = true ∧ s.admin.paused = false ∧ s.admin.autoPaused = false

/-- The guard against bursts bounds the amount, and the accounting the new total. -/
theorem acceptContribution_bounds (h : acceptContribution env s c who amount = .ok t) :
    0 < amount ∧ I128.InRange (amount * bpsDenominator) ∧
      I128.InRange (s.contributions.contribution c who + amount) := by
  simp only [acceptContribution, checkBurstGuard, updateContributionAccounting, bind_eq_ok,
    rejectIf_eq_ok, okOr_eq_ok, I128.checkedMul_eq_some, I128.checkedAdd_eq_some] at h
  obtain ⟨_, hpos, _, -, _, -, _, -, _, -, _, -, _, -, _, -, _, -, _, ⟨_, ⟨-, hburst⟩, -⟩, _, -, _,
    -, _, -, _, ⟨-, hcurrent⟩, -⟩ := h
  exact ⟨Int.not_le.mp hpos, hburst, hcurrent⟩

theorem acceptContribution_admin (h : acceptContribution env s c who amount = .ok t) :
    t.admin = s.admin := by
  obtain ⟨a, -, -, -, hview⟩ := acceptContribution_spec h
  exact congrArg View.admin hview

theorem acceptContribution_tokens (h : acceptContribution env s c who amount = .ok t) :
    t.tokens = s.tokens := by
  obtain ⟨a, -, -, -, hview⟩ := acceptContribution_spec h
  exact congrArg View.tokens hview

theorem updateTopContributor_retouch {total : Int} :
    updateTopContributor (s.retouch leader lastTime w) c who total =
      s.retouch (update leader c (some (nextLeader (leader c) (s.contributions.contribution c)
        who total))) lastTime w := by
  have hread : (s.retouch leader lastTime w).contributions.topContributor c = leader c := rfl
  have hheld : (s.retouch leader lastTime w).contributions.contribution c =
    s.contributions.contribution c := rfl
  unfold updateTopContributor nextLeader
  rw [hread, hheld]
  cases hleader : leader c with
  | none => rfl
  | some top =>
      dsimp only
      split
      next => rw [← hleader, update_eq_self]
      next => rfl

/-- A single contribution: accepted, paid at once, and recorded in the statistics. -/
theorem contribute_retouch :
    contribute env (s.retouch leader lastTime w) c who amount = .ok t ↔
      Admits env who s ∧ ∃ s' token, Accepted env who s (c, amount) s' token amount ∧
        amount ≤ w.balance token who ∧
        t = s'.retouch
          (update leader c (some (nextLeader (leader c) (s'.contributions.contribution c) who
            (s.contributions.contribution c who + amount))))
          (update lastTime c env.timestamp) (w.move ⟨token, who, contractAddress, amount⟩) := by
  have hcurrent : (s.retouch leader lastTime w).contributions.contribution c who =
    s.contributions.contribution c who := rfl
  simp only [contribute, requireAuth, bind_eq_ok, rejectIf_eq_ok, okOr_eq_ok,
    I128.checkedAdd_eq_some, acceptContribution_retouch.eq_ok, Bool.not_eq_false, hcurrent]
  constructor
  · rintro ⟨_, hauth, _, hopen, _, ⟨s', hs', rfl⟩, _, ⟨rfl, -⟩, token, htoken, htransfer⟩
    rw [updateTopContributor_retouch] at htoken htransfer
    obtain ⟨-, hafford, rfl⟩ := transfer_eq_ok.mp htransfer
    exact ⟨⟨hauth, requireNotPaused_eq_ok.mp hopen⟩, s', token, ⟨hs', htoken, rfl⟩, hafford, rfl⟩
  · rintro ⟨⟨hauth, hopen⟩, s', token, ⟨hs', htoken, -⟩, hafford, rfl⟩
    obtain ⟨hpos, -, htotal⟩ := acceptContribution_bounds hs'
    refine ⟨(), hauth, (), requireNotPaused_eq_ok.mpr hopen, _, ⟨s', hs', rfl⟩, _, ⟨rfl, htotal⟩,
      token, ?_, ?_⟩
    · rw [updateTopContributor_retouch]
      exact htoken
    · rw [updateTopContributor_retouch]
      exact transfer_eq_ok.mpr ⟨Int.le_of_lt hpos, hafford, rfl⟩

/-! ## Purses -/

variable {balance : Address → Address → Int} {purse purse' : Address → Int}
  {moved : List Transfer} {item : Nat × Int} {items : List (Nat × Int)} {cost : Int}

/-- The balances once `who` has paid the contract down to `purse`. -/
def paidDown (balance : Address → Address → Int) (who : Address) (purse : Address → Int) :
    Address → Address → Int := fun token holder =>
  if holder = who then purse token
  else if holder = contractAddress then
    balance token contractAddress + (balance token who - purse token)
  else balance token holder

theorem paidDown_start : paidDown balance who (fun token => balance token who) = balance := by
  funext token holder
  unfold paidDown
  split
  next h => rw [h]
  next =>
      split
      next h => rw [h, Int.sub_self, Int.add_zero]
      next => rfl

theorem paidDown_self : paidDown balance who purse token who = purse token := if_pos rfl

/-- A payment to the contract lowers the purse. -/
theorem move_paidDown (hwho : who ≠ contractAddress) :
    (Tokens.mk (paidDown balance who purse) moved).move ⟨token, who, contractAddress, amount⟩ =
      ⟨paidDown balance who (update purse token (purse token - amount)),
        moved ++ [⟨token, who, contractAddress, amount⟩]⟩ := by
  simp only [Tokens.move, Tokens.mk.injEq, and_true]
  funext other holder
  by_cases hother : other = token
  · subst hother
    rw [update_self]
    by_cases hcontract : holder = contractAddress
    · subst hcontract
      rw [update_self, update_of_ne hwho.symm]
      simp only [paidDown, if_neg hwho.symm, if_true, update_self]
      omega
    · rw [update_of_ne hcontract]
      by_cases hholder : holder = who
      · subst hholder
        rw [update_self, paidDown_self, paidDown_self, update_self]
      · rw [update_of_ne hholder]
        simp only [paidDown, if_neg hholder, if_neg hcontract]
  · rw [update_of_ne hother]
    simp only [paidDown, update_of_ne hother]

theorem accepted_positive : Positive (Accepted env who) := by
  rintro s item t token cost ⟨haccept, -, rfl⟩
  exact (acceptContribution_bounds haccept).1

theorem Accepted.admits (h : Accepted env who s item t token cost) (hs : Admits env who s) :
    Admits env who t := by
  have hadmin := acceptContribution_admin h.1
  exact ⟨hs.1, hadmin ▸ hs.2.1, hadmin ▸ hs.2.2⟩

/-! ## The calls one after another -/

/-- One contribution for each item, in one ledger. -/
def contributeEach (env : Env) (s : State) (contributor : Address) (items : List (Nat × Int)) :
    Outcome State :=
  each (fun s item => invoke env s (.contribute item.1 contributor item.2)) s items

/-- The item fits the types of `contribute`. -/
def fits (item : Nat × Int) : Prop := isU32 item.1 ∧ I128.InRange item.2

theorem invoke_contribute (hwho : who ≠ contractAddress) :
    invoke env (s.retouch leader lastTime ⟨paidDown balance who purse, moved⟩)
      (.contribute item.1 who item.2) = .ok t ↔
      fits item ∧ Admits env who s ∧ ∃ s' token, Accepted env who s item s' token item.2 ∧
        item.2 ≤ purse token ∧
        t = s'.retouch
          (update leader item.1 (some (nextLeader (leader item.1)
            (s'.contributions.contribution item.1) who
            (s.contributions.contribution item.1 who + item.2))))
          (update lastTime item.1 env.timestamp)
          ⟨paidDown balance who (update purse token (purse token - item.2)),
            [⟨token, who, contractAddress, item.2⟩]⟩ := by
  have hclear : (s.retouch leader lastTime ⟨paidDown balance who purse, moved⟩).clearMoved =
    s.retouch leader lastTime ⟨paidDown balance who purse, []⟩ := rfl
  simp only [invoke, bind_eq_ok, rejectIf_eq_ok, not_not, exists_const, hclear, dispatch,
    contribute_retouch, move_paidDown hwho, paidDown_self, List.nil_append]
  rfl

theorem contributeEach_pays (hwho : who ≠ contractAddress) :
    contributeEach env (s.retouch leader lastTime ⟨paidDown balance who purse, moved⟩) who items =
      .ok t → (∀ item ∈ items, fits item) ∧ ∃ s' purse' leader' lastTime' moved',
        PaysAtOnce (Accepted env who) s purse items s' purse' ∧
        t = s'.retouch leader' lastTime' ⟨paidDown balance who purse', moved'⟩ := by
  unfold contributeEach
  induction items generalizing s leader lastTime purse moved with
  | nil =>
      intro h
      rw [each_nil, Except.ok.injEq] at h
      exact ⟨fun _ hitem => absurd hitem List.not_mem_nil, s, purse, leader, lastTime, moved, .nil,
        h.symm⟩
  | cons item rest ih =>
      intro h
      obtain ⟨mid, hmid, hrest⟩ := each_cons_eq_ok.mp h
      obtain ⟨hfits, -, s₁, token, haccepted, hafford, rfl⟩ := (invoke_contribute hwho).mp hmid
      obtain ⟨hall, s', purse', leader', lastTime', moved', hpays, rfl⟩ := ih hrest
      exact ⟨List.forall_mem_cons.mpr ⟨hfits, hall⟩, s', purse', leader', lastTime', moved',
        .cons haccepted hafford hpays, rfl⟩

theorem contributeEach_of_pays (leader : Nat → Option Address) (lastTime : Nat → Nat)
    (balance : Address → Address → Int) (moved : List Transfer) (hwho : who ≠ contractAddress)
    (hfits : ∀ item ∈ items, fits item) (hadmits : Admits env who s) {s' : State}
    (h : PaysAtOnce (Accepted env who) s purse items s' purse') :
    ∃ leader' lastTime' moved',
      contributeEach env (s.retouch leader lastTime ⟨paidDown balance who purse, moved⟩) who items =
        .ok (s'.retouch leader' lastTime' ⟨paidDown balance who purse', moved'⟩) := by
  unfold contributeEach
  induction h generalizing leader lastTime moved with
  | nil => exact ⟨leader, lastTime, moved, rfl⟩
  | @cons s s₁ s' purse purse' item rest token cost accepts afford next ih =>
      obtain ⟨hitem, hrest⟩ := List.forall_mem_cons.mp hfits
      obtain rfl := accepts.2.2
      have hstep : invoke env (s.retouch leader lastTime ⟨paidDown balance who purse, moved⟩)
          (.contribute item.1 who item.2) = .ok _ :=
        (invoke_contribute hwho).mpr ⟨hitem, hadmits, s₁, token, accepts, afford, rfl⟩
      obtain ⟨leader', lastTime', moved', hlast⟩ :=
        ih _ _ _ hrest (accepts.admits hadmits)
      exact ⟨leader', lastTime', moved', each_cons_eq_ok.mpr ⟨_, hstep, hlast⟩⟩

/-! ## What a batch owes -/

variable {owed : Owed} {n : Nat} {progress progress' : BatchProgress}

@[simp] theorem Owed.get_nil : Owed.get [] token = 0 := rfl

theorem Owed.get_cons {first : Address} {held : Int} :
    Owed.get ((first, held) :: owed) token = if token = first then held else owed.get token := by
  rw [Owed.get, List.lookup_cons]
  by_cases h : token = first
  · simp [h]
  · simp [h, beq_false_of_ne h, Owed.get]

theorem Owed.get_set : (owed.set token amount).get = update owed.get token amount := by
  funext other
  induction owed with
  | nil => simp [Owed.set, Owed.get_cons, update_apply]
  | cons debt rest ih =>
      obtain ⟨first, held⟩ := debt
      rw [Owed.set]
      split
      next h =>
          subst h
          rw [Owed.get_cons, update_apply]
          split
          next => rfl
          next hother => rw [Owed.get_cons, if_neg hother]
      next h =>
          split
          next => rw [Owed.get_cons, update_apply]
          next =>
              rw [Owed.get_cons, ih, update_apply, update_apply, Owed.get_cons]
              by_cases hfirst : other = first
              · rw [if_pos hfirst, if_pos hfirst, hfirst, if_neg (Ne.symm h)]
              · rw [if_neg hfirst, if_neg hfirst]

theorem Owed.mem_set {debt : Address × Int} (h : debt ∈ owed.set token amount) :
    debt = (token, amount) ∨ debt ∈ owed := by
  induction owed with
  | nil => exact .inl (List.mem_singleton.mp h)
  | cons head rest ih =>
      obtain ⟨first, held⟩ := head
      rw [Owed.set] at h
      split at h
      next =>
          rcases List.mem_cons.mp h with h | h
          · exact .inl h
          · exact .inr (List.mem_cons_of_mem _ h)
      next =>
          split at h
          next => exact (List.mem_cons.mp h).imp id id
          next =>
              rcases List.mem_cons.mp h with h | h
              · exact .inr (h ▸ List.mem_cons_self)
              · exact (ih h).imp id (List.mem_cons_of_mem _)

/-- The tokens of a batch come in their order, each once. -/
def Owed.Sorted (owed : Owed) : Prop := owed.Pairwise fun debt later => debt.1.id < later.1.id

theorem Owed.Sorted.set (h : owed.Sorted) : (owed.set token amount).Sorted := by
  unfold Owed.Sorted at h ⊢
  induction owed with
  | nil => exact List.pairwise_singleton ..
  | cons head rest ih =>
      obtain ⟨first, held⟩ := head
      obtain ⟨hfirst, hrest⟩ := List.pairwise_cons.mp h
      rw [Owed.set]
      split
      next heq => exact List.pairwise_cons.mpr ⟨fun debt hdebt => heq ▸ hfirst debt hdebt, hrest⟩
      next hne =>
          split
          next hlt =>
              refine List.pairwise_cons.mpr ⟨fun debt hdebt => ?_, h⟩
              rcases List.mem_cons.mp hdebt with rfl | hdebt
              · exact hlt
              · exact Nat.lt_trans hlt (hfirst debt hdebt)
          next hge =>
              refine List.pairwise_cons.mpr ⟨fun debt hdebt => ?_, ih hrest⟩
              rcases Owed.mem_set hdebt with rfl | hdebt
              · have hids : first.id ≠ token.id := fun heq => hne (congrArg Address.mk heq.symm)
                exact Nat.lt_of_le_of_ne (Nat.le_of_not_lt hge) hids
              · exact hfirst debt hdebt

theorem Owed.Sorted.get_of_mem (h : owed.Sorted) {debt : Address × Int} (hdebt : debt ∈ owed) :
    owed.get debt.1 = debt.2 := by
  unfold Owed.Sorted at h
  induction owed with
  | nil => cases hdebt
  | cons head rest ih =>
      obtain ⟨first, held⟩ := head
      obtain ⟨hfirst, hrest⟩ := List.pairwise_cons.mp h
      rw [Owed.get_cons]
      rcases List.mem_cons.mp hdebt with rfl | hdebt
      · exact if_pos rfl
      · have hne : debt.1 ≠ first := fun heq => by
          have hlt := hfirst debt hdebt
          rw [heq] at hlt
          exact Nat.lt_irrefl _ hlt
        rw [if_neg hne]
        exact ih hrest hdebt

theorem Owed.mem_of_get_ne_zero (h : owed.get token ≠ 0) : (token, owed.get token) ∈ owed := by
  induction owed with
  | nil => exact absurd rfl h
  | cons head rest ih =>
      obtain ⟨first, held⟩ := head
      rw [Owed.get_cons] at h ⊢
      split
      next heq => exact heq ▸ List.mem_cons_self
      next hne =>
          rw [if_neg hne] at h
          exact List.mem_cons_of_mem _ (ih h)

/-! ## The batch -/

/-- The books of a batch after `n` items: nobody owes more than the total, and the guard
against bursts bounds each item far below the limit of the total. -/
structure Booked (n : Nat) (progress : BatchProgress) : Prop where
  sorted : progress.owed.Sorted
  positive : ∀ debt ∈ progress.owed, 0 < debt.2
  nonneg : ∀ token, 0 ≤ progress.owed.get token
  within : ∀ token, progress.owed.get token ≤ progress.total
  bounded : progress.total * bpsDenominator ≤ n * I128.maxValue

theorem Booked.start : Booked 0 ⟨s, [], 0⟩ where
  sorted := List.Pairwise.nil
  positive _ h := absurd h List.not_mem_nil
  nonneg _ := le_refl _
  within _ := le_refl _
  bounded := by simp

/-- What an accepted item does to the books. -/
def BatchProgress.add (progress : BatchProgress) (s : State) (token : Address) (cost : Int) :
    BatchProgress :=
  ⟨s, progress.owed.set token (progress.owed.get token + cost), progress.total + cost⟩

theorem Booked.add (h : Booked n progress) (haccepted : Accepted env who s item t token cost) :
    Booked (n + 1) (progress.add t token cost) := by
  obtain ⟨hpos, hburst, -⟩ := acceptContribution_bounds haccepted.1
  obtain rfl := haccepted.2.2
  refine ⟨h.sorted.set, fun debt hdebt => ?_, fun other => ?_, fun other => ?_, ?_⟩
  · have htoken := h.nonneg token
    rcases Owed.mem_set hdebt with rfl | hdebt
    · show 0 < progress.owed.get token + item.2
      omega
    · exact h.positive debt hdebt
  · have htoken := h.nonneg token
    rw [BatchProgress.add, Owed.get_set, update_apply]
    split
    next => omega
    next => exact h.nonneg other
  · have htoken := h.within token
    have hother := h.within other
    rw [BatchProgress.add, Owed.get_set, update_apply]
    dsimp only
    split
    next => omega
    next => omega
  · have hbound := h.bounded
    have hitem := hburst.2
    rw [BatchProgress.add, Int.add_mul, Int.natCast_add, Int.add_mul, Int.natCast_one, Int.one_mul]
    exact Int.add_le_add hbound hitem

/-- Twenty items never overflow a sum. -/
theorem Booked.inRange (h : Booked n progress) (hn : n ≤ maxBatchContributeSize) (token : Address) :
    I128.InRange progress.total ∧ I128.InRange (progress.owed.get token) := by
  have hbound := h.bounded
  have hlow := h.nonneg token
  have hhigh := h.within token
  have hcap : (n : Int) * I128.maxValue ≤ maxBatchContributeSize * I128.maxValue :=
    Int.mul_le_mul_of_nonneg_right (Int.ofNat_le.mpr hn) (by decide)
  have hbps : (bpsDenominator : Int) = 10000 := rfl
  have hsize : (maxBatchContributeSize : Int) = 20 := rfl
  have hmax : I128.maxValue = 170141183460469231731687303715884105727 := rfl
  have hmin : I128.minValue ≤ 0 := by decide
  rw [hbps] at hbound
  rw [hsize] at hcap
  unfold I128.InRange
  omega

theorem batchContributeItem_eq_ok (h : Booked n progress) (hn : n < maxBatchContributeSize) :
    batchContributeItem env who progress item = .ok progress' ↔
      ∃ s token, Accepted env who progress.state item s token item.2 ∧
        progress' = progress.add s token item.2 := by
  simp only [batchContributeItem, bind_eq_ok, okOr_eq_ok, I128.checkedAdd_eq_some, pure_eq_ok]
  constructor
  · rintro ⟨s, hs, _, ⟨rfl, -⟩, token, htoken, _, ⟨rfl, -⟩, rfl⟩
    exact ⟨s, token, ⟨hs, htoken, rfl⟩, rfl⟩
  · rintro ⟨s, token, haccepted, rfl⟩
    obtain ⟨htotal, hrunning⟩ := (h.add haccepted).inRange hn token
    rw [BatchProgress.add, Owed.get_set, update_self] at hrunning
    exact ⟨s, haccepted.1, _, ⟨rfl, htotal⟩, token, haccepted.2.1, _, ⟨rfl, hrunning⟩, rfl⟩

theorem batchItems_addsUp (h : Booked n progress)
    (hn : n + items.length ≤ maxBatchContributeSize) :
    each (batchContributeItem env who) progress items = .ok progress' →
      AddsUp (Accepted env who) progress.state progress.owed.get items progress'.state
        progress'.owed.get ∧ Booked (n + items.length) progress' := by
  induction items generalizing progress n with
  | nil =>
      intro hloop
      rw [each_nil, Except.ok.injEq] at hloop
      exact hloop ▸ ⟨.nil, h⟩
  | cons item rest ih =>
      intro hloop
      rw [List.length_cons] at hn ⊢
      obtain ⟨mid, hmid, hrest⟩ := each_cons_eq_ok.mp hloop
      obtain ⟨s, token, haccepted, rfl⟩ := (batchContributeItem_eq_ok h (by omega)).mp hmid
      obtain ⟨hadds, hbooked⟩ := ih (h.add haccepted) (by omega) hrest
      rw [BatchProgress.add, Owed.get_set] at hadds
      exact ⟨.cons haccepted hadds, by rwa [Nat.add_right_comm, Nat.add_assoc] at hbooked⟩

theorem batchItems_of_addsUp {s' : State} {owed owed' : Address → Int} (h : Booked n progress)
    (hn : n + items.length ≤ maxBatchContributeSize) (hs : progress.state = s)
    (howed : progress.owed.get = owed)
    (hadds : AddsUp (Accepted env who) s owed items s' owed') :
    ∃ progress', each (batchContributeItem env who) progress items = .ok progress' ∧
      progress'.state = s' ∧ progress'.owed.get = owed' := by
  induction hadds generalizing progress n with
  | nil => exact ⟨progress, rfl, hs, howed⟩
  | @cons s t s' owed owed' item rest token cost accepts next ih =>
      rw [List.length_cons] at hn
      obtain rfl := accepts.2.2
      subst hs howed
      obtain ⟨progress', hrest, hstate, hget⟩ := ih (h.add accepts) (by omega) rfl Owed.get_set
      exact ⟨progress', each_cons_eq_ok.mpr
        ⟨_, (batchContributeItem_eq_ok h (by omega)).mpr ⟨_, _, accepts, rfl⟩, hrest⟩, hstate, hget⟩

theorem less_owed_cons {amount : Int} (hfree : owed.get token = 0) :
    less (update purse token (purse token - amount)) owed.get =
      less purse (Owed.get ((token, amount) :: owed)) := by
  funext other
  rw [less, less, Owed.get_cons, update_apply]
  split
  next h => rw [h, hfree, Int.sub_zero]
  next => rfl

/-- Each debt is paid from the purse of its own token. -/
theorem payOwed_eq_ok (hwho : who ≠ contractAddress) (hsorted : owed.Sorted)
    (hpositive : ∀ debt ∈ owed, 0 < debt.2) :
    each (payOwed who) { s with tokens := ⟨paidDown balance who purse, moved⟩ } owed = .ok t ↔
      (∀ debt ∈ owed, debt.2 ≤ purse debt.1) ∧
        t = { s with tokens := ⟨paidDown balance who (less purse owed.get),
          moved ++ owed.map fun debt => ⟨debt.1, who, contractAddress, debt.2⟩⟩ } := by
  induction owed generalizing purse moved with
  | nil =>
      have hless : less purse (Owed.get []) = purse := funext fun _ => Int.sub_zero _
      simp [hless, eq_comm]
  | cons debt rest ih =>
      obtain ⟨token, amount⟩ := debt
      obtain ⟨hfirst, hrest⟩ := List.pairwise_cons.mp hsorted
      obtain ⟨hamount, hothers⟩ := List.forall_mem_cons.mp hpositive
      have hfree : Owed.get rest token = 0 := by
        by_contra hne
        have hlt := hfirst (token, Owed.get rest token) (Owed.mem_of_get_ne_zero hne)
        exact Nat.lt_irrefl _ hlt
      have hkept : ∀ debt ∈ rest,
          update purse token (purse token - amount) debt.1 = purse debt.1 := fun debt hdebt => by
        rw [update_of_ne]
        rintro heq
        have hlt := hfirst debt hdebt
        rw [heq] at hlt
        exact Nat.lt_irrefl _ hlt
      rw [each_cons_eq_ok]
      simp only [payOwed, transfer_eq_ok, paidDown_self, move_paidDown hwho]
      constructor
      · rintro ⟨_, ⟨-, hafford, rfl⟩, hloop⟩
        obtain ⟨hall, rfl⟩ := (ih hrest hothers).mp hloop
        refine ⟨List.forall_mem_cons.mpr ⟨hafford, fun debt hdebt => ?_⟩, ?_⟩
        · exact hkept debt hdebt ▸ hall debt hdebt
        · rw [less_owed_cons hfree, List.append_assoc]
          rfl
      · rintro ⟨hall, rfl⟩
        obtain ⟨hafford, hall⟩ := List.forall_mem_cons.mp hall
        refine ⟨_, ⟨Int.le_of_lt hamount, hafford, rfl⟩,
          (ih hrest hothers).mpr ⟨fun debt hdebt => ?_, ?_⟩⟩
        · exact (hkept debt hdebt).symm ▸ hall debt hdebt
        · rw [less_owed_cons hfree, List.append_assoc]
          rfl

/-- What is owed is covered token by token. -/
theorem Booked.covered (h : Booked n progress) :
    (∀ debt ∈ progress.owed, debt.2 ≤ purse debt.1) ↔
      ∀ token, 0 < progress.owed.get token → progress.owed.get token ≤ purse token := by
  constructor
  · intro hall token hpos
    exact hall _ (Owed.mem_of_get_ne_zero (ne_of_gt hpos))
  · intro hall debt hdebt
    have hget := h.sorted.get_of_mem hdebt
    rw [← hget]
    exact hall debt.1 (hget ▸ h.positive debt hdebt)

theorem addsUp_tokens {s s' : State} {owed owed' : Address → Int}
    (h : AddsUp (Accepted env who) s owed items s' owed') : s'.tokens = s.tokens := by
  induction h with
  | nil => rfl
  | cons accepts _ ih => exact ih.trans (acceptContribution_tokens accepts.1)

/-! ## The two ways of contributing -/

/-- What `who` holds of each token. -/
def State.holdings (s : State) (who : Address) : Address → Int :=
  fun token => s.tokens.balance token who

/-- What a shop that has served the items from `s` leaves when it is paid down to `purse`. -/
def State.paid (s' s : State) (who : Address) (purse : Address → Int) (moved : List Transfer) :
    State :=
  { s' with tokens := ⟨paidDown s.tokens.balance who purse, moved⟩ }

theorem paid_start {s' : State} (h : s'.tokens = s.clearMoved.tokens) :
    s'.paid s who (s.holdings who) [] = s' := by
  have hbalance : paidDown s.tokens.balance who (s.holdings who) = s.tokens.balance :=
    paidDown_start
  have htokens : s'.tokens = ⟨s.tokens.balance, []⟩ := h
  rw [State.paid, hbalance, ← htokens]

theorem invoke_batchContribute_eq_ok : invoke env s (.batchContribute who items) = .ok t ↔
    (∀ item ∈ items, fits item) ∧ Admits env who s ∧
      (items ≠ [] ∧ items.length ≤ maxBatchContributeSize) ∧
      ∃ progress, each (batchContributeItem env who) ⟨s.clearMoved, [], 0⟩ items = .ok progress ∧
        each (payOwed who) progress.state progress.owed = .ok t := by
  simp only [invoke, dispatch, batchContribute, requireAuth, bind_eq_ok, rejectIf_eq_ok, not_not,
    exists_const, requireNotPaused_eq_ok, Bool.not_eq_false, not_or, Nat.not_lt]
  constructor
  · rintro ⟨h, hauth, hopen, hsize, hrest⟩
    exact ⟨h, ⟨hauth, hopen⟩, hsize, hrest⟩
  · rintro ⟨h, ⟨hauth, hopen⟩, hsize, hrest⟩
    exact ⟨h, hauth, hopen, hsize, hrest⟩

/-- What both ways come to: the items are accepted, and the holdings cover what is owed. -/
structure Served (env : Env) (who : Address) (items : List (Nat × Int)) (s s' : State)
    (owed : Address → Int) : Prop where
  fit : ∀ item ∈ items, fits item
  admits : Admits env who s
  adds : AddsUp (Accepted env who) s.clearMoved (fun _ => 0) items s' owed
  covered : ∀ token, 0 < owed token → owed token ≤ s.holdings who token

theorem batchContribute_served (hwho : who ≠ contractAddress)
    (h : invoke env s (.batchContribute who items) = .ok t) :
    ∃ s' owed moved, Served env who items s s' owed ∧
      t = s'.paid s who (less (s.holdings who) owed) moved := by
  obtain ⟨hfits, hadmits, ⟨-, hlength⟩, progress, hloop, hpay⟩ :=
    invoke_batchContribute_eq_ok.mp h
  obtain ⟨hadds, hbooked⟩ := batchItems_addsUp Booked.start (by omega) hloop
  have hstart : progress.state.paid s who (s.holdings who) [] = progress.state :=
    paid_start (addsUp_tokens hadds)
  rw [← hstart] at hpay
  obtain ⟨hcovered, rfl⟩ := (payOwed_eq_ok hwho hbooked.sorted hbooked.positive).mp hpay
  exact ⟨progress.state, progress.owed.get, _,
    ⟨hfits, hadmits, hadds, hbooked.covered.mp hcovered⟩, rfl⟩

theorem Served.batchContribute {s' : State} {owed : Address → Int} (hwho : who ≠ contractAddress)
    (hsize : items ≠ [] ∧ items.length ≤ maxBatchContributeSize)
    (h : Served env who items s s' owed) :
    ∃ t, invoke env s (.batchContribute who items) = .ok t := by
  have hstart : Owed.get [] = fun _ => 0 := rfl
  obtain ⟨progress, hloop, -, howed⟩ := batchItems_of_addsUp Booked.start (by omega) rfl hstart
    h.adds
  obtain ⟨hadds, hbooked⟩ := batchItems_addsUp Booked.start (by omega) hloop
  have hcovered : ∀ debt ∈ progress.owed, debt.2 ≤ s.holdings who debt.1 :=
    hbooked.covered.mpr (howed ▸ h.covered)
  have hpay : each (payOwed who) (progress.state.paid s who (s.holdings who) []) progress.owed =
      .ok _ := (payOwed_eq_ok hwho hbooked.sorted hbooked.positive).mpr ⟨hcovered, rfl⟩
  rw [paid_start (addsUp_tokens hadds)] at hpay
  exact ⟨_, invoke_batchContribute_eq_ok.mpr ⟨h.fit, h.admits, hsize, progress, hloop, hpay⟩⟩

/-- The start of the sequence, with its own statistics and nothing paid yet. -/
theorem retouch_start (s : State) (who : Address) :
    s.clearMoved.retouch s.contributions.topContributor s.contributions.lastContributionTime
    ⟨paidDown s.tokens.balance who (s.holdings who), s.tokens.moved⟩ = s := by
  have hbalance : paidDown s.tokens.balance who (s.holdings who) = s.tokens.balance :=
    paidDown_start
  rw [State.retouch, hbalance]
  rfl

theorem contributeEach_served (hwho : who ≠ contractAddress) (hne : items ≠ [])
    (h : contributeEach env s who items = .ok t) :
    ∃ s' owed leader lastTime moved, Served env who items s s' owed ∧
      t = s'.retouch leader lastTime
        ⟨paidDown s.tokens.balance who (less (s.holdings who) owed), moved⟩ := by
  have hadmits : Admits env who s := by
    cases items with
    | nil => exact absurd rfl hne
    | cons item rest =>
        obtain ⟨mid, hmid, -⟩ := each_cons_eq_ok.mp h
        rw [← retouch_start s who] at hmid
        exact ((invoke_contribute hwho).mp hmid).2.1
  rw [← retouch_start s who] at h
  obtain ⟨hfits, s', purse', leader, lastTime, moved, hpays, rfl⟩ := contributeEach_pays hwho h
  obtain ⟨owed, hadds, rfl, hcovered⟩ := (paysAtOnce_iff accepted_positive).mp hpays
  exact ⟨s', owed, leader, lastTime, moved, ⟨hfits, hadmits, hadds, hcovered⟩, rfl⟩

theorem Served.contributeEach {s' : State} {owed : Address → Int} (hwho : who ≠ contractAddress)
    (h : Served env who items s s' owed) : ∃ t, contributeEach env s who items = .ok t := by
  have hpays := (paysAtOnce_iff accepted_positive).mpr ⟨owed, h.adds, rfl, h.covered⟩
  obtain ⟨leader, lastTime, moved, hloop⟩ := contributeEach_of_pays (s := s.clearMoved)
    s.contributions.topContributor s.contributions.lastContributionTime s.tokens.balance
    s.tokens.moved hwho h.fit h.admits hpays
  rw [retouch_start s who] at hloop
  exact ⟨_, hloop⟩

theorem accepted_functional : Functional (Accepted env who) := by
  rintro s item t token cost t' token' cost' ⟨haccept, htoken, rfl⟩ ⟨haccept', htoken', rfl⟩
  obtain rfl := Except.ok.inj (haccept.symm.trans haccept')
  exact ⟨rfl, Except.ok.inj (htoken.symm.trans htoken'), rfl⟩

/-! ## The law -/

/-- The store and the balances, without the leader and the last time of each campaign,
which only `contribute` keeps, and without the transfers of the latest call. -/
def State.settled (s : State) : State :=
  s.retouch (fun _ => none) (fun _ => 0) ⟨s.tokens.balance, []⟩

/-- What is stored after a call, which a failed one leaves as it was. -/
def stateAfter (env : Env) (s : State) (call : Call) : State :=
  match invoke env s call with
  | .ok t => t
  | .error _ => s

/-- In every state a batch succeeds if and only if its items succeed one by one, and then
both leave the same records, contributions, counters, burst counts, fee recipients and
balances; where an item fails the batch leaves everything as it was. -/
theorem batch_eq_sequence (hwho : who ≠ contractAddress) (hne : items ≠ [])
    (hlength : items.length ≤ maxBatchContributeSize) :
    ((∃ t, invoke env s (.batchContribute who items) = .ok t) ↔
      ∃ t, contributeEach env s who items = .ok t) ∧
    (∀ t t', invoke env s (.batchContribute who items) = .ok t →
      contributeEach env s who items = .ok t' → t.settled = t'.settled) ∧
    ((∀ t, contributeEach env s who items ≠ .ok t) →
      stateAfter env s (.batchContribute who items) = s) := by
  have hiff : (∃ t, invoke env s (.batchContribute who items) = .ok t) ↔
      ∃ t, contributeEach env s who items = .ok t := by
    constructor
    · rintro ⟨t, h⟩
      obtain ⟨s', owed, moved, served, -⟩ := batchContribute_served hwho h
      exact served.contributeEach hwho
    · rintro ⟨t, h⟩
      obtain ⟨s', owed, leader, lastTime, moved, served, -⟩ := contributeEach_served hwho hne h
      exact served.batchContribute hwho ⟨hne, hlength⟩
  refine ⟨hiff, fun t t' h h' => ?_, fun hfails => ?_⟩
  · obtain ⟨s₁, owed, moved, served, rfl⟩ := batchContribute_served hwho h
    obtain ⟨s₂, owed', leader, lastTime, moved', served', rfl⟩ := contributeEach_served hwho hne h'
    obtain ⟨rfl, rfl⟩ := served.adds.unique accepted_functional served'.adds
    rfl
  · unfold stateAfter
    split
    next t h =>
        obtain ⟨t', h'⟩ := hiff.mp ⟨t, h⟩
        exact absurd h' (hfails t')
    next => rfl

/-- Two campaigns of one creator, the second in a currency of its own. -/
def Sample.currencies : List Request :=
  [ask 0 admin (.setTokenAllowed newToken true), ask 0 creator (.createCampaign (params [0] 0)),
    ask 0 creator (.createCampaignWithToken (params [1] 0) newToken),
    ask 0 admin (.verifyCampaigns [1, 2])]

def Sample.mixed : List (Nat × Int) := [(1, 30000), (2, 20000), (1, 10000)]

theorem batch_sample : ∃ tr cfg env t t', Run (machine Sample.host) tr cfg ∧
    invoke env cfg.state (.batchContribute Sample.alice Sample.mixed) = .ok t ∧
    contributeEach env cfg.state Sample.alice Sample.mixed = .ok t' ∧
    t.settled = t'.settled ∧ t.tokens.balance Sample.newToken contractAddress = 20000 := by
  have h : Sample.Ends 300 Sample.currencies fun _ cfg =>
      (invoke ((Sample.ask 1 Sample.alice .pause).env Sample.host []) cfg.state
        (.batchContribute Sample.alice Sample.mixed)).toOption.any
          (fun t => t.tokens.balance Sample.newToken contractAddress = 20000) = true := by
    decide +kernel
  obtain ⟨tr, cfg, run, hbatch⟩ := h.run
  cases ht : invoke ((Sample.ask 1 Sample.alice .pause).env Sample.host []) cfg.state
      (.batchContribute Sample.alice Sample.mixed) with
  | error e =>
      rw [ht] at hbatch
      cases hbatch
  | ok t =>
      rw [ht] at hbatch
      obtain ⟨t', ht'⟩ := (batch_eq_sequence (by decide) (by decide) (by decide)).1.mp ⟨t, ht⟩
      have hsame := (batch_eq_sequence (by decide) (by decide) (by decide)).2.1 t t' ht ht'
      exact ⟨tr, cfg, _, t, t', run, ht, ht', hsame, of_decide_eq_true hbatch⟩

end ProofOfHeart
