import ProofOfHeart.Laws.Arithmetic
import ProofOfHeart.Laws.MilestonePlans

/-! # Claiming every milestone

The claims of the open milestones, made one after another, close the campaign if all of
them go through. A slice that rounds to nothing is refused unless it is the last one, so
this depends on the order as well as on the amounts.
-/

namespace ProofOfHeart

open Checked Function Trace

variable {host : Host} {tr : List Receipt} {cfg : Config} {env : Nat → Env} {s s' : State}
  {c : Nat} {a : Account} {v v' : View} {milestones order rest : List Milestone}
  {claimed : Nat → Bool} {milestone : Milestone} {feeTotal net raised : Int} {feeBps : Nat}

/-! ## What is left to claim -/

def unclaimedOf (milestones : List Milestone) (claimed : Nat → Bool) : List Milestone :=
  milestones.filter fun milestone => !claimed milestone.id

/-- The unclaimed milestones in some order. -/
structure Outstanding (milestones : List Milestone) (claimed : Nat → Bool)
    (order : List Milestone) : Prop where
  distinct : (order.map Milestone.id).Nodup
  exact : ∀ m, m ∈ order ↔ m ∈ milestones ∧ claimed m.id = false

theorem Outstanding.of_perm (shape : PlanShape milestones)
    (hperm : order.Perm (unclaimedOf milestones claimed)) :
    Outstanding milestones claimed order where
  distinct := by
    have hsub : ((unclaimedOf milestones claimed).map Milestone.id).Sublist
        (milestones.map Milestone.id) := List.filter_sublist.map _
    exact (hperm.map Milestone.id).nodup_iff.mpr (hsub.nodup shape.distinct)
  exact m := by
    rw [hperm.mem_iff, unclaimedOf, List.mem_filter, Bool.not_eq_true']

theorem Outstanding.head (outstanding : Outstanding milestones claimed (milestone :: rest)) :
    milestone ∈ milestones ∧ claimed milestone.id = false :=
  (outstanding.exact milestone).mp List.mem_cons_self

theorem Outstanding.id_ne {m : Milestone}
    (outstanding : Outstanding milestones claimed (milestone :: rest)) (hm : m ∈ rest) :
    m.id ≠ milestone.id := by
  have hnodup := outstanding.distinct
  rw [List.map_cons, List.nodup_cons] at hnodup
  exact fun heq => hnodup.1 (heq ▸ List.mem_map_of_mem hm)

/-- After the first claim the rest is left. -/
theorem Outstanding.tail (outstanding : Outstanding milestones claimed (milestone :: rest)) :
    Outstanding milestones (update claimed milestone.id true) rest where
  distinct := by
    have hnodup := outstanding.distinct
    rw [List.map_cons, List.nodup_cons] at hnodup
    exact hnodup.2
  exact m := by
    constructor
    · intro hm
      rw [update_of_ne (outstanding.id_ne hm)]
      exact (outstanding.exact m).mp (List.mem_cons_of_mem _ hm)
    · rintro ⟨hmem, hopen⟩
      have hne : m.id ≠ milestone.id := fun heq => by
        rw [heq, update_self] at hopen
        cases hopen
      rw [update_of_ne hne] at hopen
      rcases List.mem_cons.mp ((outstanding.exact m).mpr ⟨hmem, hopen⟩) with rfl | hm
      · exact absurd rfl hne
      · exact hm

/-- The first claim is the last one exactly when nothing is left after it. -/
theorem Outstanding.last_iff (outstanding : Outstanding milestones claimed (milestone :: rest)) :
    allClaimed milestones claimed milestone.id = true ↔ rest = [] := by
  rw [allClaimed_iff_others]
  constructor
  · intro hall
    refine List.eq_nil_iff_forall_not_mem.mpr fun m hm => ?_
    obtain ⟨hmem, hopen⟩ := (outstanding.exact m).mp (List.mem_cons_of_mem _ hm)
    have hclaimed := hall m hmem (outstanding.id_ne hm)
    rw [hopen] at hclaimed
    cases hclaimed
  · rintro rfl m hmem hne
    by_contra hopen
    have hm := (outstanding.exact m).mpr ⟨hmem, Bool.eq_false_of_not_eq_true hopen⟩
    exact hne (congrArg Milestone.id (List.mem_singleton.mp hm))

/-! ## The payments of an order -/

/-- What the claims pay when they are made in the given order. -/
def paysOf (milestones : List Milestone) (feeTotal net : Int) :
    (Nat → Bool) → List Milestone → List MilestonePay
  | _, [] => []
  | claimed, milestone :: rest =>
      payMilestone milestones claimed milestone feeTotal net ::
        paysOf milestones feeTotal net (update claimed milestone.id true) rest

def MilestonePay.total (pay : MilestonePay) : Int := pay.fee + pay.creator

def totalOf (pays : List MilestonePay) : Int := (pays.map MilestonePay.total).sum

@[simp] theorem totalOf_nil : totalOf [] = 0 := rfl

@[simp] theorem totalOf_cons {pay : MilestonePay} {pays : List MilestonePay} :
    totalOf (pay :: pays) = pay.total + totalOf pays := List.sum_cons

/-- The slices of the other milestones leave something for the last one. -/
theorem last_pos_iff (hnet : 0 ≤ net) (shape : PlanShape milestones)
    (mem : milestone ∈ milestones) (unclaimed : claimed milestone.id = false) :
    0 < net - slicesOf net (claimedOf milestones claimed) ↔ 0 < net := by
  have hslices := slicesOf_nonneg hnet (claimedOf milestones claimed)
  refine ⟨fun h => by omega, fun hpos => Int.sub_pos_of_lt ?_⟩
  have htake : bpsOf (claimedOf milestones (update claimed milestone.id true)) =
      bpsOf (claimedOf milestones claimed) + milestone.payoutBps :=
    Parts.sumTaken_take shape.distinct mem unclaimed
  have hle : bpsOf (claimedOf milestones (update claimed milestone.id true)) ≤ bpsDenominator :=
    bpsOf_claimed_le shape
  have hbps := shape.positive milestone mem
  rw [slicesOf_eq]
  refine Shares.floors_lt (by decide) hpos (by simp) ?_
  rw [← bpsOf_cast]
  have hwhole : (bpsDenominator : Int) = 10000 := rfl
  omega

/-- The creator gets something from a claim: anything from the last one, and from any other
what its slice does not lose in rounding. -/
theorem creatorPay_pos_iff (hnet : 0 ≤ net) (hfee : 0 ≤ feeTotal) (shape : PlanShape milestones)
    (outstanding : Outstanding milestones claimed (milestone :: rest)) :
    0 < (payMilestone milestones claimed milestone feeTotal net).creator ↔
      if rest = [] then 0 < net else bpsDenominator ≤ net * milestone.payoutBps := by
  obtain ⟨mem, unclaimed⟩ := outstanding.head
  rw [payMilestone_eq hfee shape mem unclaimed, sliceOf]
  dsimp only
  by_cases hrest : rest = []
  · rw [if_pos (outstanding.last_iff.mpr hrest), if_pos hrest]
    exact last_pos_iff hnet shape mem unclaimed
  · rw [if_neg (mt outstanding.last_iff.mp hrest), if_neg hrest]
    exact Shares.floor_pos_iff (by decide) hnet (Int.natCast_nonneg _)

/-- All claims of an order pay the creator something. -/
theorem paysOf_pos_iff (hnet : 0 ≤ net) (hfee : 0 ≤ feeTotal) (shape : PlanShape milestones)
    (hsome : order ≠ []) (outstanding : Outstanding milestones claimed order) :
    (∀ pay ∈ paysOf milestones feeTotal net claimed order, 0 < pay.creator) ↔
      0 < net ∧ ∀ m ∈ order.dropLast, bpsDenominator ≤ net * m.payoutBps := by
  induction order generalizing claimed with
  | nil => exact absurd rfl hsome
  | cons milestone rest ih =>
      rw [paysOf, List.forall_mem_cons, creatorPay_pos_iff hnet hfee shape outstanding]
      cases rest with
      | nil => simp [paysOf]
      | cons next rest =>
          rw [ih (List.cons_ne_nil _ _) outstanding.tail, if_neg (List.cons_ne_nil _ _),
            List.dropLast_cons_cons, List.forall_mem_cons]
          exact and_left_comm

/-- Together they pay what the slices claimed before have left. -/
theorem paysOf_total (shape : PlanShape milestones) (hraised : 0 ≤ raised)
    (hfee : feeBps ≤ platformFeeMaxBps) (hsome : order ≠ [])
    (outstanding : Outstanding milestones claimed order) :
    totalOf (paysOf milestones (ceilBps raised feeBps) (raised - ceilBps raised feeBps) claimed
      order) = raised - sliced raised feeBps milestones claimed := by
  induction order generalizing claimed with
  | nil => exact absurd rfl hsome
  | cons milestone rest ih =>
      obtain ⟨mem, unclaimed⟩ := outstanding.head
      obtain ⟨-, hsum⟩ := payMilestone_sum shape mem unclaimed hraised hfee
      rw [paysOf, totalOf_cons, MilestonePay.total]
      cases rest with
      | nil =>
          rw [if_pos (outstanding.last_iff.mpr rfl)] at hsum
          rw [paysOf, totalOf_nil]
          omega
      | cons next rest =>
          rw [if_neg (mt outstanding.last_iff.mp (List.cons_ne_nil _ _))] at hsum
          rw [ih (List.cons_ne_nil _ _) outstanding.tail]
          omega

/-! ## One claim -/

/-- What a claim needs besides its checks: it pays the creator something, what it computes
fits, and what it pays is held. -/
structure ClearsFirst (v : View) (c : Nat) (a : Account) (milestone : Milestone) : Prop where
  pos : 0 < (v.milestonePay a milestone).creator
  fits : FitsMilestone v a milestone
  held : v.Affords c a.record.creator [v.milestonePay a milestone]

/-- Everything is ready for the claims on `c` but the payments. -/
structure Claiming (s : State) (c : Nat) (a : Account) : Prop where
  account : (view s).account c = some a
  unpaused : s.admin.paused = false ∧ s.admin.autoPaused = false
  typed : isU32 c ∧ ∀ m ∈ a.funds.milestones, isU32 m.id
  verified : ∀ m ∈ a.funds.milestones, m.verified = true
  slicing : (view s).Slicing a
  counted : (view s).totalRaised ≤ I128.maxValue

section Claim

variable {env : Env}

theorem Claiming.invoke_eq (claiming : Claiming s c a) (mem : milestone ∈ a.funds.milestones) :
    invoke env s (.claimMilestone c milestone.id) =
      claimMilestone env s.clearMoved c milestone.id := by
  have typed : (Call.claimMilestone c milestone.id).WellTyped :=
    ⟨claiming.typed.1, claiming.typed.2 milestone mem⟩
  rw [ProofOfHeart.invoke_eq typed]
  rfl

theorem Claiming.claim_iff (claiming : Claiming s c a) (payable : a.Payable)
    (signed : env.auth a.record.creator = true) (mem : milestone ∈ a.funds.milestones)
    (unclaimed : a.funds.claimed milestone.id = false) :
    (∃ s', invoke env s (.claimMilestone c milestone.id) = .ok s') ↔
      ClearsFirst (view s) c a milestone := by
  obtain ⟨shape, hraised, hle, hfee⟩ := claiming.slicing
  have slicing : (view s.clearMoved).Slicing a := ⟨shape, hraised, hle, hfee⟩
  have hbalance : (view s.clearMoved).tokens.balance = (view s).tokens.balance := rfl
  have gated := fun pos => slicing.gated claiming.account
    ⟨signed, claiming.unpaused, payable, mem, claiming.verified milestone mem, unclaimed⟩ pos
  rw [claiming.invoke_eq mem]
  constructor
  · rintro ⟨s', hclaim⟩
    obtain ⟨b, token, admin, other, hb, -, hmem, hid, -, -, -, pos, currency, hadmin, hcovers, -⟩ :=
      claimMilestone_spec hclaim
    obtain rfl := Option.some.inj (claiming.account.symm.trans hb)
    obtain rfl := List.inj_on_of_nodup_map shape.distinct hmem mem hid
    refine ⟨pos, by_contra fun hfits => ?_, token, admin, currency, hadmin, ?_⟩
    · rw [(gated pos).fails hfits] at hclaim
      cases hclaim
    · rw [List.flatMap_singleton]
      exact (Tokens.covers_congr hbalance).mp hcovers
  · rintro ⟨pos, hfits, hafford⟩
    cases hclaim : claimMilestone env s.clearMoved c milestone.id with
    | ok s' => exact ⟨s', rfl⟩
    | error abort =>
        obtain ⟨-, hshort⟩ := (gated pos).remains hfits abort hclaim
        exact absurd ((View.affords_congr (by rfl) (by rfl) hbalance).mpr hafford) hshort

/-- What a claim leaves behind. -/
structure ClaimDone (v v' : View) (c : Nat) (a : Account) (milestone : Milestone) : Prop where
  account : v'.account c = some (a.claimMilestone milestone.id)
  admin : v'.admin = v.admin
  currency : v'.currency c = v.currency c
  totalRaised : v'.totalRaised = v.totalRaised - (v.milestonePay a milestone).total
  balance : ∀ token admin, v.currency c = some token → v.admin.admin = some admin →
    v'.tokens.balance = ((claimTransfers token admin a.record.creator
      (v.milestonePay a milestone)).foldl Tokens.move v.tokens).balance

theorem claimTransfers_foldl {token admin creator : Address} {pay : MilestonePay} {w : Tokens} :
    (claimTransfers token admin creator pay).foldl Tokens.move w =
      (if pay.fee > 0 then w.move ⟨token, contractAddress, admin, pay.fee⟩ else w).move
        ⟨token, contractAddress, creator, pay.creator⟩ := by
  unfold claimTransfers
  split <;> rfl

theorem Claiming.done (claiming : Claiming s c a) (mem : milestone ∈ a.funds.milestones)
    (hclaim : invoke env s (.claimMilestone c milestone.id) = .ok s') :
    ClaimDone (view s) (view s') c a milestone := by
  rw [claiming.invoke_eq mem] at hclaim
  obtain ⟨b, token, admin, other, hb, -, hmem, hid, -, -, -, -, currency, hadmin, -, hview⟩ :=
    claimMilestone_spec hclaim
  obtain rfl := Option.some.inj (claiming.account.symm.trans hb)
  obtain rfl := List.inj_on_of_nodup_map claiming.slicing.shape.distinct hmem mem hid
  have hcleared : (view s.clearMoved).tokens.balance = (view s).tokens.balance := rfl
  have hadmins : (view s').admin = (view s).admin := by
    rw [hview]
    rfl
  have hfunds := (View.account_eq_some.mp claiming.account).2
  refine ⟨?_, hadmins, View.currency_congr ?_ (congrArg AdminStore.token hadmins), ?_, ?_⟩
  · rw [hview]
    exact View.setAccount_account_self
  · rw [hview, hfunds]
    simp [View.setAccount, Account.claimMilestone]
  · rw [hview]
    rfl
  · intro token' admin' currency' hadmin'
    obtain rfl := Option.some.inj (currency.symm.trans currency')
    obtain rfl := Option.some.inj (hadmin.symm.trans hadmin')
    rw [← Tokens.foldl_balance _ hcleared, claimTransfers_foldl]
    exact congrArg (fun v : View => v.tokens.balance) hview

/-- The terms of a claim are those of the claims after it. -/
theorem ClaimDone.effectiveFee (done : ClaimDone v v' c a milestone) :
    v'.effectiveFee (a.claimMilestone milestone.id).record = v.effectiveFee a.record := by
  rw [Account.claimMilestone_record, View.effectiveFee, View.effectiveFee, done.admin]

theorem ClaimDone.slicing (done : ClaimDone v v' c a milestone) (slicing : v.Slicing a) :
    v'.Slicing (a.claimMilestone milestone.id) where
  shape := slicing.shape
  raised_nonneg := by
    rw [Account.claimMilestone_record]
    exact slicing.raised_nonneg
  raised_le := by
    rw [Account.claimMilestone_record]
    exact slicing.raised_le
  fee_le := by
    rw [done.effectiveFee]
    exact slicing.fee_le

theorem Claiming.next (claiming : Claiming s c a) (mem : milestone ∈ a.funds.milestones)
    (unclaimed : a.funds.claimed milestone.id = false)
    (pos : 0 < ((view s).milestonePay a milestone).creator)
    (done : ClaimDone (view s) (view s') c a milestone) :
    Claiming s' c (a.claimMilestone milestone.id) where
  account := done.account
  unpaused := by
    rw [admin_view, done.admin]
    exact claiming.unpaused
  typed := claiming.typed
  verified := claiming.verified
  slicing := done.slicing claiming.slicing
  counted := by
    obtain ⟨shape, hraised, -, hfee⟩ := claiming.slicing
    obtain ⟨hplatform, -⟩ := payMilestone_sum shape mem unclaimed hraised hfee
    have hcounted := claiming.counted
    rw [done.totalRaised, MilestonePay.total]
    rw [View.milestonePay] at pos ⊢
    omega

/-- Unless it was the last claim the campaign stays payable. -/
theorem Account.Payable.claim {milestoneId : Nat} (payable : a.Payable)
    (hmore : ¬ allClaimed a.funds.milestones a.funds.claimed milestoneId = true) :
    (a.claimMilestone milestoneId).Payable := by
  have hrecord : (a.claimMilestone milestoneId).record = a.record := by
    rw [Account.claimMilestone, if_neg hmore]
  constructor <;> rw [hrecord]
  · exact payable.verified
  · exact payable.notCancelled
  · exact payable.notWithdrawn
  · exact payable.raised
  · exact payable.goalMet

end Claim

/-! ## The claims of an order -/

/-- What the present fee leaves of what was raised. -/
def View.netRaised (v : View) (a : Account) : Int :=
  a.record.amountRaised - ceilBps a.record.amountRaised (v.effectiveFee a.record)

/-- What the claims pay at the present amount raised and fee. -/
def View.milestonePays (v : View) (a : Account) (order : List Milestone) : List MilestonePay :=
  paysOf a.funds.milestones (ceilBps a.record.amountRaised (v.effectiveFee a.record))
    (v.netRaised a) a.funds.claimed order

theorem ClaimDone.netRaised (done : ClaimDone v v' c a milestone) :
    v'.netRaised (a.claimMilestone milestone.id) = v.netRaised a := by
  rw [View.netRaised, done.effectiveFee, Account.claimMilestone_record, View.netRaised]

theorem ClaimDone.milestonePays (done : ClaimDone v v' c a milestone) :
    v.milestonePays a (milestone :: rest) =
      v.milestonePay a milestone :: v'.milestonePays (a.claimMilestone milestone.id) rest := by
  rw [View.milestonePays, View.milestonePays, done.netRaised, done.effectiveFee,
    Account.claimMilestone_record]
  rfl

/-- All claims of an order pay the creator something, what they compute fits, and what they
pay is held. -/
structure Clears (v : View) (c : Nat) (a : Account) (order : List Milestone) : Prop where
  positive : ∀ pay ∈ v.milestonePays a order, 0 < pay.creator
  fits : ∀ m ∈ a.funds.milestones, a.funds.claimed m.id = true ∨ m ∈ order →
    I128.InRange (v.netRaised a * m.payoutBps)
  counted : I128.InRange (v.totalRaised - totalOf (v.milestonePays a order))
  held : v.Affords c a.record.creator (v.milestonePays a order)

theorem clears_one (mem : milestone ∈ a.funds.milestones) :
    Clears v c a [milestone] ↔ ClearsFirst v c a milestone := by
  have hpays : v.milestonePays a [milestone] = [v.milestonePay a milestone] := rfl
  have htotal : totalOf [v.milestonePay a milestone] = (v.milestonePay a milestone).fee +
      (v.milestonePay a milestone).creator := Int.add_zero _
  constructor
  · rintro ⟨positive, fits, counted, held⟩
    rw [hpays] at positive counted held
    rw [htotal] at counted
    refine ⟨positive _ List.mem_cons_self, ⟨⟨fun m hm hclaimed => ?_, ?_⟩, counted⟩, held⟩
    · exact fits m hm (.inl hclaimed)
    · exact fits milestone mem (.inr List.mem_cons_self)
  · rintro ⟨pos, ⟨⟨hclaimed, hhead⟩, counted⟩, held⟩
    rw [← htotal] at counted
    refine ⟨?_, fun m hm hdue => ?_, counted, held⟩
    · rw [hpays, List.forall_mem_singleton]
      exact pos
    · rcases hdue with hnow | hnow
      · exact hclaimed m hm hnow
      · rwa [List.mem_singleton.mp hnow]

/-- The claims of an order pay what was raised less the slices claimed before. -/
theorem View.Slicing.total_pays (slicing : v.Slicing a) (hsome : order ≠ [])
    (outstanding : Outstanding a.funds.milestones a.funds.claimed order) :
    totalOf (v.milestonePays a order) = a.record.amountRaised - sliced a.record.amountRaised
      (v.effectiveFee a.record) a.funds.milestones a.funds.claimed :=
  paysOf_total slicing.shape slicing.raised_nonneg slicing.fee_le hsome outstanding

/-- The first of several payments is no more than all of them. -/
theorem View.Slicing.first_le (slicing : v.Slicing a)
    (outstanding : Outstanding a.funds.milestones a.funds.claimed (milestone :: rest))
    (hsome : rest ≠ []) :
    (v.milestonePay a milestone).total ≤ totalOf (v.milestonePays a (milestone :: rest)) := by
  have hrest : totalOf (paysOf a.funds.milestones _ (v.netRaised a) _ rest) = _ :=
    paysOf_total slicing.shape slicing.raised_nonneg slicing.fee_le hsome outstanding.tail
  have hle : sliced a.record.amountRaised (v.effectiveFee a.record) a.funds.milestones
      (update a.funds.claimed milestone.id true) ≤ a.record.amountRaised :=
    sliced_le slicing.shape slicing.raised_nonneg slicing.fee_le
  have hcons : totalOf (v.milestonePays a (milestone :: rest)) =
    (v.milestonePay a milestone).total + totalOf (paysOf a.funds.milestones _ _ _ rest) := rfl
  rw [hcons, hrest]
  omega

theorem View.Slicing.pay_pos (slicing : v.Slicing a)
    (outstanding : Outstanding a.funds.milestones a.funds.claimed (milestone :: rest))
    (pos : 0 < (v.milestonePay a milestone).creator) :
    0 < (v.milestonePay a milestone).total := by
  obtain ⟨mem, unclaimed⟩ := outstanding.head
  obtain ⟨hplatform, -⟩ := payMilestone_sum slicing.shape mem unclaimed slicing.raised_nonneg
    slicing.fee_le
  have hfee : 0 ≤ (v.milestonePay a milestone).fee := hplatform
  rw [MilestonePay.total]
  omega

theorem Clears.first (clears : Clears v c a (milestone :: rest)) (slicing : v.Slicing a)
    (outstanding : Outstanding a.funds.milestones a.funds.claimed (milestone :: rest))
    (hmax : v.totalRaised ≤ I128.maxValue) (hsome : rest ≠ []) : ClearsFirst v c a milestone := by
  obtain ⟨positive, fits, counted, held⟩ := clears
  have pos := positive _ List.mem_cons_self
  have hpays := slicing.pay_pos outstanding pos
  have hle := slicing.first_le outstanding hsome
  refine ⟨pos, ⟨⟨fun m hm hclaimed => fits m hm (.inl hclaimed),
    fits milestone outstanding.head.1 (.inr List.mem_cons_self)⟩, ?_⟩, held.head⟩
  obtain ⟨hlow, -⟩ := counted
  change I128.InRange (v.totalRaised - (v.milestonePay a milestone).total)
  exact ⟨by omega, by omega⟩

/-- After the first claim the rest clears. -/
theorem Clears.later (clears : Clears v c a (milestone :: rest))
    (done : ClaimDone v v' c a milestone) (shape : PlanShape a.funds.milestones)
    (mem : milestone ∈ a.funds.milestones) :
    Clears v' c (a.claimMilestone milestone.id) rest := by
  obtain ⟨positive, fits, counted, held⟩ := clears
  rw [done.milestonePays] at positive counted held
  refine ⟨fun pay hpay => positive pay (List.mem_cons_of_mem _ hpay), fun m hm hdue => ?_, ?_, ?_⟩
  · rw [done.netRaised]
    refine fits m hm ?_
    rcases hdue with hclaimed | hrest
    · by_cases hid : m.id = milestone.id
      · rw [List.inj_on_of_nodup_map shape.distinct hm mem hid]
        exact .inr List.mem_cons_self
      · exact .inl ((update_of_ne hid _ _).symm.trans hclaimed)
    · exact .inr (List.mem_cons_of_mem _ hrest)
  · rwa [done.totalRaised, Int.sub_sub, ← totalOf_cons]
  · obtain ⟨token, admin, currency, hadmin, hcovers⟩ := held
    rw [List.flatMap_cons, Tokens.covers_append] at hcovers
    refine ⟨token, admin, by rw [done.currency, currency], by rw [done.admin, hadmin], ?_⟩
    rw [Account.claimMilestone_record, Tokens.covers_congr (done.balance _ _ currency hadmin)]
    exact hcovers.2

/-- What clears first, with a rest that clears after it. -/
theorem ClaimDone.clears (done : ClaimDone v v' c a milestone)
    (first : ClearsFirst v c a milestone)
    (later : Clears v' c (a.claimMilestone milestone.id) rest) :
    Clears v c a (milestone :: rest) := by
  obtain ⟨pos, ⟨⟨hclaimed, hhead⟩, -⟩, hafford⟩ := first
  obtain ⟨positive, fits, counted, held⟩ := later
  refine ⟨?_, fun m hm hdue => ?_, ?_, ?_⟩
  · rw [done.milestonePays, List.forall_mem_cons]
    exact ⟨pos, positive⟩
  · rcases hdue with hnow | horder
    · exact hclaimed m hm hnow
    · rcases List.mem_cons.mp horder with rfl | hrest
      · exact hhead
      · rw [← done.netRaised]
        exact fits m hm (.inr hrest)
  · rw [done.totalRaised, Int.sub_sub] at counted
    rwa [done.milestonePays, totalOf_cons]
  · obtain ⟨token, admin, currency, hadmin, hfirst⟩ := hafford
    obtain ⟨token', admin', currency', hadmin', hrest⟩ := held
    rw [done.currency] at currency'
    rw [done.admin] at hadmin'
    obtain rfl := Option.some.inj (currency.symm.trans currency')
    obtain rfl := Option.some.inj (hadmin.symm.trans hadmin')
    rw [List.flatMap_singleton] at hfirst
    rw [Account.claimMilestone_record, Tokens.covers_congr (done.balance _ _ currency hadmin)]
      at hrest
    refine ⟨token, admin, currency, hadmin, ?_⟩
    rw [done.milestonePays, List.flatMap_cons, Tokens.covers_append]
    exact ⟨hfirst, hrest⟩

/-! ## What the payments take -/

theorem paysOf_nonneg (hnet : 0 ≤ net) (hfee : 0 ≤ feeTotal) (shape : PlanShape milestones)
    (outstanding : Outstanding milestones claimed order) :
    ∀ pay ∈ paysOf milestones feeTotal net claimed order, 0 ≤ pay.fee ∧ 0 ≤ pay.creator := by
  induction order generalizing claimed with
  | nil => exact fun pay hpay => nomatch hpay
  | cons milestone rest ih =>
      obtain ⟨mem, unclaimed⟩ := outstanding.head
      rw [paysOf, List.forall_mem_cons, payMilestone_eq hfee shape mem unclaimed]
      exact ⟨⟨sliceOf_nonneg hfee shape mem unclaimed, sliceOf_nonneg hnet shape mem unclaimed⟩,
        ih outstanding.tail⟩

/-- A transfer of one token from `who` to somebody else. -/
def Transfer.Leaves (token who : Address) (t : Transfer) : Prop :=
  t.token = token ∧ t.sender = who ∧ t.recipient ≠ who ∧ 0 ≤ t.amount

theorem Tokens.move_leaves {w : Tokens} {token who : Address} {t : Transfer}
    (h : t.Leaves token who) :
    (w.move t).balance token who = w.balance token who - t.amount := by
  obtain ⟨rfl, rfl, hother, -⟩ := h
  simp [move, update_of_ne hother.symm]

/-- Payments from one purse are covered when it holds their sum. -/
theorem Tokens.covers_iff {w : Tokens} {token who : Address} {moves : List Transfer}
    (hsome : moves ≠ []) (hleaves : ∀ t ∈ moves, t.Leaves token who) :
    w.Covers moves ↔ (moves.map Transfer.amount).sum ≤ w.balance token who := by
  induction moves generalizing w with
  | nil => exact absurd rfl hsome
  | cons t rest ih =>
      obtain ⟨hfirst, hrest⟩ := List.forall_mem_cons.mp hleaves
      have hbalance := Tokens.move_leaves (w := w) hfirst
      obtain ⟨rfl, rfl, -, -⟩ := hfirst
      rw [Covers, List.map_cons, List.sum_cons]
      cases rest with
      | nil => simp [Covers]
      | cons next rest =>
          rw [ih (List.cons_ne_nil _ _) hrest, hbalance]
          have hlater : 0 ≤ ((next :: rest).map Transfer.amount).sum := by
            refine List.sum_nonneg fun x hx => ?_
            obtain ⟨u, hu, rfl⟩ := List.mem_map.mp hx
            exact (hrest u hu).2.2.2
          omega

theorem claimTransfers_sum {token admin creator : Address} {pays : List MilestonePay}
    (hpays : ∀ pay ∈ pays, 0 ≤ pay.fee ∧ 0 ≤ pay.creator) :
    ((pays.flatMap (claimTransfers token admin creator)).map Transfer.amount).sum =
      totalOf pays := by
  induction pays with
  | nil => rfl
  | cons pay rest ih =>
      obtain ⟨⟨hfee, -⟩, hrest⟩ := List.forall_mem_cons.mp hpays
      rw [List.flatMap_cons, List.map_append, List.sum_append, ih hrest, ← cuts_sum,
        platformCut_claim hfee, creatorCut_claim, totalOf_cons, MilestonePay.total]

theorem claimTransfers_leaves {token admin creator : Address} {pay : MilestonePay}
    (hadmin : admin ≠ contractAddress) (hcreator : creator ≠ contractAddress)
    (hpay : 0 ≤ pay.fee ∧ 0 ≤ pay.creator) :
    ∀ t ∈ claimTransfers token admin creator pay, t.Leaves token contractAddress := by
  intro t ht
  rcases List.mem_append.mp ht with hfee | hlast
  · split at hfee
    next =>
        rw [List.mem_singleton.mp hfee]
        exact ⟨rfl, rfl, hadmin, hpay.1⟩
    next => cases hfee
  · rw [List.mem_singleton.mp hlast]
    exact ⟨rfl, rfl, hcreator, hpay.2⟩

/-- Where neither party is the contract itself, it must hold what the claims pay. -/
theorem claims_covered_iff {w : Tokens} {token admin creator : Address} {pays : List MilestonePay}
    (hadmin : admin ≠ contractAddress) (hcreator : creator ≠ contractAddress) (hsome : pays ≠ [])
    (hpays : ∀ pay ∈ pays, 0 ≤ pay.fee ∧ 0 ≤ pay.creator) :
    w.Covers (pays.flatMap (claimTransfers token admin creator)) ↔
      totalOf pays ≤ w.balance token contractAddress := by
  have hne : pays.flatMap (claimTransfers token admin creator) ≠ [] := by
    obtain ⟨pay, hpay⟩ := List.exists_mem_of_ne_nil _ hsome
    have hlast : Transfer.mk token contractAddress creator pay.creator ∈
        claimTransfers token admin creator pay := List.mem_append_right _ List.mem_cons_self
    exact List.ne_nil_of_mem (List.mem_flatMap.mpr ⟨pay, hpay, hlast⟩)
  rw [Tokens.covers_iff hne, claimTransfers_sum hpays]
  intro t ht
  obtain ⟨pay, hpay, hmem⟩ := List.mem_flatMap.mp ht
  exact claimTransfers_leaves hadmin hcreator (hpays pay hpay) t hmem

/-- Where neither the creator nor the admin is the contract, the payments are held when what
the slices claimed before have left is. -/
theorem View.Slicing.affords_iff {admin : Address} (slicing : v.Slicing a) (hsome : order ≠ [])
    (outstanding : Outstanding a.funds.milestones a.funds.claimed order)
    (hadmin : v.admin.admin = some admin) (admin_ne : admin ≠ contractAddress)
    (creator_ne : a.record.creator ≠ contractAddress) :
    v.Affords c a.record.creator (v.milestonePays a order) ↔
      ∃ token, v.currency c = some token ∧
        a.record.amountRaised - sliced a.record.amountRaised (v.effectiveFee a.record)
          a.funds.milestones a.funds.claimed ≤ v.tokens.balance token contractAddress := by
  obtain ⟨hfee, hnet⟩ := ceilBps_bounds slicing.raised_nonneg slicing.fee_le
  have hpays : ∀ pay ∈ v.milestonePays a order, 0 ≤ pay.fee ∧ 0 ≤ pay.creator :=
    paysOf_nonneg hnet hfee slicing.shape outstanding
  have hne : v.milestonePays a order ≠ [] := by
    cases order with
    | nil => exact absurd rfl hsome
    | cons => exact List.cons_ne_nil _ _
  rw [← slicing.total_pays hsome outstanding]
  constructor
  · rintro ⟨token, other, currency, hother, hcovers⟩
    obtain rfl := Option.some.inj (hadmin.symm.trans hother)
    exact ⟨token, currency, (claims_covered_iff admin_ne creator_ne hne hpays).mp hcovers⟩
  · rintro ⟨token, currency, hheld⟩
    exact ⟨token, admin, currency, hadmin,
      (claims_covered_iff admin_ne creator_ne hne hpays).mpr hheld⟩

/-! ## The loop -/

/-- The claims of the milestones one after another, each in its own context. -/
def claimEach (env : Nat → Env) (c : Nat) (s : State) (order : List Milestone) : Outcome State :=
  each (fun s milestone => invoke (env milestone.id) s (.claimMilestone c milestone.id)) s order

theorem claimEach_cons : (∃ s', claimEach env c s (milestone :: rest) = .ok s') ↔
    ∃ s1, invoke (env milestone.id) s (.claimMilestone c milestone.id) = .ok s1 ∧
      ∃ s', claimEach env c s1 rest = .ok s' := by
  simp only [claimEach, each_cons_eq_ok]
  exact exists_comm.trans (exists_congr fun _ => exists_and_left)

/-- The claims go through exactly when every one clears. By induction on the order: each
claim leaves the state ready for the next. -/
theorem Claiming.loop_iff (claiming : Claiming s c a) (payable : a.Payable) (hsome : order ≠ [])
    (outstanding : Outstanding a.funds.milestones a.funds.claimed order)
    (signed : ∀ id, (env id).auth a.record.creator = true) :
    (∃ s', claimEach env c s order = .ok s') ↔ Clears (view s) c a order := by
  induction order generalizing s a with
  | nil => exact absurd rfl hsome
  | cons milestone rest ih =>
      obtain ⟨mem, unclaimed⟩ := outstanding.head
      have hclaim := claiming.claim_iff payable (signed milestone.id) mem unclaimed
      rw [claimEach_cons]
      cases rest with
      | nil =>
          rw [clears_one mem, ← hclaim]
          exact exists_congr fun s1 => and_iff_left ⟨s1, rfl⟩
      | cons next rest =>
          have hmore := mt outstanding.last_iff.mp (List.cons_ne_nil next rest)
          have hnext {s1 : State} (pos : 0 < ((view s).milestonePay a milestone).creator)
              (done : ClaimDone (view s) (view s1) c a milestone) :=
            ih (claiming.next mem unclaimed pos done) (payable.claim hmore)
              (List.cons_ne_nil _ _) outstanding.tail
              (by rw [Account.claimMilestone_record]; exact signed)
          constructor
          · rintro ⟨s1, hs1, hrest⟩
            have done := claiming.done mem hs1
            have first := hclaim.mp ⟨s1, hs1⟩
            exact done.clears first ((hnext first.pos done).mp hrest)
          · intro clears
            have first := clears.first claiming.slicing outstanding claiming.counted
              (List.cons_ne_nil _ _)
            obtain ⟨s1, hs1⟩ := hclaim.mpr first
            have done := claiming.done mem hs1
            have later := clears.later done claiming.slicing.shape mem
            exact ⟨s1, hs1, (hnext first.pos done).mpr later⟩

/-- The last claim closes the campaign. -/
theorem Claiming.loop_closes (claiming : Claiming s c a) (payable : a.Payable) (hsome : order ≠ [])
    (outstanding : Outstanding a.funds.milestones a.funds.claimed order)
    (signed : ∀ id, (env id).auth a.record.creator = true)
    (hloop : claimEach env c s order = .ok s') :
    ∃ b, (view s').account c = some b ∧ b.record.fundsWithdrawn = true := by
  induction order generalizing s a with
  | nil => exact absurd rfl hsome
  | cons milestone rest ih =>
      obtain ⟨mem, unclaimed⟩ := outstanding.head
      obtain ⟨s1, hs1, hrest⟩ := each_cons_eq_ok.mp hloop
      have first := (claiming.claim_iff payable (signed milestone.id) mem unclaimed).mp ⟨s1, hs1⟩
      have done := claiming.done mem hs1
      cases rest with
      | nil =>
          rw [each_nil, Except.ok.injEq] at hrest
          subst hrest
          refine ⟨_, done.account, ?_⟩
          rw [Account.claimMilestone_record, outstanding.last_iff.mpr rfl]
          rfl
      | cons next rest =>
          have hmore := mt outstanding.last_iff.mp (List.cons_ne_nil next rest)
          refine ih (claiming.next mem unclaimed first.pos done) (payable.claim hmore)
            (List.cons_ne_nil _ _) outstanding.tail ?_ hrest
          rw [Account.claimMilestone_record]
          exact signed

/-- Whether an order clears can be read off the amounts. -/
theorem View.Slicing.clears_iff (slicing : v.Slicing a) (hsome : order ≠ [])
    (outstanding : Outstanding a.funds.milestones a.funds.claimed order) :
    Clears v c a order ↔
      (0 < v.netRaised a ∧ ∀ m ∈ order.dropLast, bpsDenominator ≤ v.netRaised a * m.payoutBps) ∧
      (∀ m ∈ a.funds.milestones, I128.InRange (v.netRaised a * m.payoutBps)) ∧
      I128.InRange (v.totalRaised - (a.record.amountRaised - sliced a.record.amountRaised
        (v.effectiveFee a.record) a.funds.milestones a.funds.claimed)) ∧
      v.Affords c a.record.creator (v.milestonePays a order) := by
  obtain ⟨hfee, hnet⟩ := ceilBps_bounds slicing.raised_nonneg slicing.fee_le
  have hpos := paysOf_pos_iff hnet hfee slicing.shape hsome outstanding
  have htotal := slicing.total_pays hsome outstanding
  have hdue : ∀ m ∈ a.funds.milestones, a.funds.claimed m.id = true ∨ m ∈ order := by
    intro m hm
    by_cases hopen : a.funds.claimed m.id = false
    · exact .inr ((outstanding.exact m).mpr ⟨hm, hopen⟩)
    · exact .inl (Bool.eq_true_of_not_eq_false hopen)
  constructor
  · rintro ⟨positive, fits, counted, held⟩
    exact ⟨hpos.mp positive, fun m hm => fits m hm (hdue m hm), htotal ▸ counted, held⟩
  · rintro ⟨positive, fits, counted, held⟩
    exact ⟨hpos.mpr positive, fun m hm _ => fits m hm, htotal ▸ counted, held⟩

/-! ## In a run -/

/-- The identifiers of all plans are machine words. -/
def View.WordIds (v : View) : Prop := ∀ c, ∀ id ∈ (v.funds c).milestones.map Milestone.id, isU32 id

theorem Receipt.Valid.typed {r : Receipt} (h : r.Valid host) : r.call.WellTyped := by
  have hinvoke := h.2
  simp only [invoke, bind_eq_ok, rejectIf_eq_ok, not_not] at hinvoke
  obtain ⟨_, htyped, -⟩ := hinvoke
  exact htyped

/-- Only a new plan brings new identifiers. -/
theorem PlanStep.words {call : Call} {milestones' : List Milestone} {claimed' : Nat → Bool}
    (h : PlanStep c call milestones claimed milestones' claimed') (typed : call.WellTyped)
    (words : ∀ id ∈ milestones.map Milestone.id, isU32 id) :
    ∀ id ∈ milestones'.map Milestone.id, isU32 id := by
  cases h with
  | kept | claim => exact words
  | plan =>
      rw [unverified_ids]
      intro id hid
      obtain ⟨m, hm, rfl⟩ := List.mem_map.mp hid
      exact (typed.2 m hm).1
  | mark =>
      rw [verifiedAt_ids]
      exact words

theorem Receipt.Valid.wordIds {r : Receipt} (h : r.Valid host) (sane : (view r.pre).Sane)
    (words : (view r.pre).WordIds) : (view r.post).WordIds := fun c =>
  (h.planStep sane.toConfigured c).words h.typed (words c)

theorem run_wordIds (run : Run (machine host) tr cfg) : (view cfg.state).WordIds := by
  refine run.invariant (I := fun _ cfg => (view cfg.state).WordIds) ?_ ?_ ?_
  · intro r cfg hstart c
    rw [(start_fresh hstart).funds]
    exact fun id hid => nomatch hid
  · rintro tr cfg r cfg' run words ⟨hvalid, -, hpre, rfl⟩
    have sane := run_sane run
    rw [← hpre] at words sane
    exact hvalid.wordIds sane words
  · rintro tr cfg cfg' words ⟨tokens, -, rfl⟩
    exact words

/-- A plan of which everything is claimed has been closed. -/
def Account.Finished (a : Account) : Prop :=
  a.funds.milestones ≠ [] →
    (∀ id ∈ a.funds.milestones.map Milestone.id, a.funds.claimed id = true) →
      a.record.fundsWithdrawn = true

theorem run_finished (run : Run (machine host) tr cfg)
    (ha : (view cfg.state).account c = some a) : a.Finished := fun hsome hall =>
  (run_closedWhenClaimed run ha hsome).mpr fun m hm => hall m.id (List.mem_map_of_mem hm)

/-! ## The law -/

/-- A funded campaign whose milestones the admin has all verified. -/
structure ReadyToClose (s : State) (c : Nat) (campaign : Campaign) : Prop where
  stored : s.campaigns.campaign c = some campaign
  unpaused : s.admin.paused = false ∧ s.admin.autoPaused = false
  verified : campaign.isVerified = true
  notCancelled : campaign.isCancelled = false
  notWithdrawn : campaign.fundsWithdrawn = false
  goalMet : campaign.fundingGoal ≤ campaign.amountRaised
  raised : 0 < campaign.amountRaised
  planned : s.campaigns.campaignMilestones c ≠ []
  marked : ∀ m ∈ s.campaigns.campaignMilestones c, m.verified = true

theorem ReadyToClose.payable {campaign : Campaign} (ready : ReadyToClose s c campaign)
    {funds : Funds} : (Account.mk campaign funds).Payable :=
  ⟨ready.verified, ready.notCancelled, ready.notWithdrawn, ne_of_gt ready.raised,
    ready.goalMet⟩

/-- The claims of the order all go through, and leave the campaign withdrawn. -/
def Completes (env : Nat → Env) (s : State) (c : Nat) (order : List Milestone) : Prop :=
  ∃ s' campaign, claimEach env c s order = .ok s' ∧ s'.campaigns.campaign c = some campaign ∧
    campaign.fundsWithdrawn = true

/-- What the fee in force leaves of what was raised. -/
def netOf (s : State) (campaign : Campaign) : Int :=
  campaign.amountRaised - ceilBps campaign.amountRaised (effectiveFee s campaign)

/-- The fee leaves something, every slice but the last survives the rounding, the products
and the counter fit, and the contract holds the payments. -/
structure Completable (s : State) (c : Nat) (campaign : Campaign) (order : List Milestone) :
    Prop where
  leaves : 0 < netOf s campaign
  slices : ∀ m ∈ order.dropLast, bpsDenominator ≤ netOf s campaign * m.payoutBps
  fits : ∀ m ∈ s.campaigns.campaignMilestones c, I128.InRange (netOf s campaign * m.payoutBps)
  counted : I128.InRange (s.contributions.totalRaised - (campaign.amountRaised -
    sliced campaign.amountRaised (effectiveFee s campaign) (s.campaigns.campaignMilestones c)
      (s.campaigns.milestoneClaimed c)))
  held : ∃ token admin, getCampaignToken s c = .ok token ∧ s.admin.admin = some admin ∧
    s.tokens.Covers ((paysOf (s.campaigns.campaignMilestones c)
      (ceilBps campaign.amountRaised (effectiveFee s campaign)) (netOf s campaign)
      (s.campaigns.milestoneClaimed c) order).flatMap
        (claimTransfers token admin campaign.creator))

theorem completable_iff {campaign : Campaign} : Completable s c campaign order ↔
    (0 < (view s).netRaised ⟨campaign, (view s).funds c⟩ ∧ ∀ m ∈ order.dropLast,
      bpsDenominator ≤ (view s).netRaised ⟨campaign, (view s).funds c⟩ * m.payoutBps) ∧
    (∀ m ∈ ((view s).funds c).milestones,
      I128.InRange ((view s).netRaised ⟨campaign, (view s).funds c⟩ * m.payoutBps)) ∧
    I128.InRange ((view s).totalRaised - (campaign.amountRaised - sliced campaign.amountRaised
      ((view s).effectiveFee campaign) ((view s).funds c).milestones
      ((view s).funds c).claimed)) ∧
    (view s).Affords c campaign.creator
      ((view s).milestonePays ⟨campaign, (view s).funds c⟩ order) := by
  simp only [View.Affords, ← getCampaignToken_eq_ok]
  constructor
  · rintro ⟨leaves, slices, fits, counted, held⟩
    exact ⟨⟨leaves, slices⟩, fits, counted, held⟩
  · rintro ⟨⟨leaves, slices⟩, fits, counted, held⟩
    exact ⟨leaves, slices, fits, counted, held⟩

/-- Something is left to claim, in any order. -/
structure Remaining (s : State) (c : Nat) (campaign : Campaign) (order : List Milestone) :
    Prop where
  slicing : (view s).Slicing ⟨campaign, (view s).funds c⟩
  outstanding : Outstanding ((view s).funds c).milestones ((view s).funds c).claimed order
  some : order ≠ []

theorem run_remaining (run : Run (machine host) tr cfg) {campaign : Campaign}
    (ready : ReadyToClose cfg.state c campaign)
    (hperm : order.Perm (unclaimedOf (cfg.state.campaigns.campaignMilestones c)
      (cfg.state.campaigns.milestoneClaimed c))) : Remaining cfg.state c campaign order := by
  have ha := View.account_of_campaign (v := view cfg.state) ready.stored
  have slicing := run_slicing run ha ready.planned
  have outstanding := Outstanding.of_perm slicing.shape hperm
  refine ⟨slicing, outstanding, ?_⟩
  rintro rfl
  have hclosed := run_finished run ha ready.planned fun id hid => by
    obtain ⟨m, hm, rfl⟩ := List.mem_map.mp hid
    by_contra hopen
    have hleft := (outstanding.exact m).mpr ⟨hm, Bool.eq_false_of_not_eq_true hopen⟩
    exact List.not_mem_nil hleft
  exact Bool.noConfusion (ready.notWithdrawn.symm.trans hclosed)

/-- The claims of the open milestones, in a given order, close the campaign exactly when no
slice but the last one is lost in rounding and the amounts are covered. -/
theorem milestones_complete_iff (run : Run (machine host) tr cfg) {campaign : Campaign}
    (ready : ReadyToClose cfg.state c campaign)
    (hperm : order.Perm (unclaimedOf (cfg.state.campaigns.campaignMilestones c)
      (cfg.state.campaigns.milestoneClaimed c)))
    (signed : ∀ id, (env id).auth campaign.creator = true) :
    Completes env cfg.state c order ↔ Completable cfg.state c campaign order := by
  have ha := View.account_of_campaign (v := view cfg.state) ready.stored
  obtain ⟨slicing, outstanding, hsome⟩ := run_remaining run ready hperm
  have hwords := run_wordIds run c
  have claiming : Claiming cfg.state c ⟨campaign, (view cfg.state).funds c⟩ :=
    ⟨ha, ready.unpaused, ⟨run_isU32 run ready.stored,
      fun m hm => hwords m.id (List.mem_map_of_mem hm)⟩, ready.marked, slicing,
      (run_bounded run).totalRaised⟩
  rw [completable_iff, ← slicing.clears_iff hsome outstanding,
    ← claiming.loop_iff ready.payable hsome outstanding signed]
  constructor
  · rintro ⟨s', -, hloop, -⟩
    exact ⟨s', hloop⟩
  · rintro ⟨s', hloop⟩
    obtain ⟨b, hb, hclosed⟩ :=
      claiming.loop_closes ready.payable hsome outstanding signed hloop
    exact ⟨s', b.record, hloop, (View.account_eq_some.mp hb).1, hclosed⟩

/-- The goal is met, and both halves are still to be claimed. -/
def Sample.met : List Request :=
  planned ++ [ask 1 alice (.contribute 1 alice 50000), ask 1 bob (.contribute 1 bob 50000)]

/-- The creator signs every claim. -/
def Sample.claims : Nat → Env := fun _ => Sample.env 2 Sample.creator

theorem milestones_complete_sample :
    ∃ tr cfg, Run (machine Sample.host) tr cfg ∧
      Completes Sample.claims cfg.state 1 (unclaimedOf (cfg.state.campaigns.campaignMilestones 1)
        (cfg.state.campaigns.milestoneClaimed 1)) := by
  have h : Sample.Ends 300 Sample.met fun _ cfg =>
      (cfg.state.admin.paused = false ∧ cfg.state.admin.autoPaused = false) ∧
      cfg.state.admin.admin = some Sample.admin ∧
      (cfg.state.campaigns.campaignMilestones 1 ≠ [] ∧
        ∀ m ∈ cfg.state.campaigns.campaignMilestones 1, m.verified = true ∧ m.payoutBps = 5000) ∧
      ∃ campaign ∈ cfg.state.campaigns.campaign 1, campaign.creator = Sample.creator ∧
        (campaign.isVerified = true ∧ campaign.isCancelled = false ∧
          campaign.fundsWithdrawn = false) ∧
        (campaign.fundingGoal ≤ campaign.amountRaised ∧ 0 < campaign.amountRaised) ∧
        netOf cfg.state campaign = 97000 ∧
        campaign.amountRaised - sliced campaign.amountRaised (effectiveFee cfg.state campaign)
          (cfg.state.campaigns.campaignMilestones 1) (cfg.state.campaigns.milestoneClaimed 1) =
            100000 ∧
        cfg.state.contributions.totalRaised = 100000 ∧
        ∃ token ∈ (view cfg.state).currency 1,
          100000 ≤ cfg.state.tokens.balance token contractAddress := by
    decide +kernel
  obtain ⟨tr, cfg, run, unpaused, hadmin, ⟨hplan, hmarked⟩, campaign, stored, hcreator,
    ⟨verified, notCancelled, notWithdrawn⟩, ⟨goalMet, raised⟩, hnet, hleft, htotal, token,
    currency, hheld⟩ := h.run
  have ready : ReadyToClose cfg.state 1 campaign :=
    ⟨stored, unpaused, verified, notCancelled, notWithdrawn, goalMet, raised, hplan,
      fun m hm => (hmarked m hm).1⟩
  obtain ⟨slicing, outstanding, hsome⟩ := run_remaining run ready (List.Perm.refl _)
  have hnet' : (view cfg.state).netRaised ⟨campaign, (view cfg.state).funds 1⟩ = 97000 := hnet
  have hleft' : campaign.amountRaised - sliced campaign.amountRaised
      ((view cfg.state).effectiveFee campaign) ((view cfg.state).funds 1).milestones
      ((view cfg.state).funds 1).claimed = 100000 := hleft
  refine ⟨tr, cfg, run, (milestones_complete_iff run ready (List.Perm.refl _) fun _ => ?_).mpr
    (completable_iff.mpr ⟨⟨?_, fun m hm => ?_⟩, fun m hm => ?_, ?_, ?_⟩)⟩
  · rw [hcreator]
    rfl
  · rw [hnet']
    decide
  · have hmem := (outstanding.exact m).mp (List.mem_of_mem_dropLast hm)
    rw [hnet', (hmarked m hmem.1).2]
    decide
  · rw [hnet', (hmarked m hm).2]
    decide
  · rw [← totalRaised_view, htotal, hleft']
    decide
  · refine (slicing.affords_iff hsome outstanding hadmin (by decide) ?_).mpr
      ⟨token, currency, hleft' ▸ hheld⟩
    rw [hcreator]
    decide

/-- With a lowered minimum, a campaign that raises a single unit for two halves. -/
def Sample.tiny : List Request :=
  [ask 0 admin (.setMinCampaignFundingGoal admin 1),
    ask 0 creator (.createCampaign { params [0] 0 with fundingGoal := 1 }),
    ask 0 admin (.verifyCampaign 1), ask 0 creator (.setMilestones 1 halves),
    ask 0 admin (.verifyMilestone admin 1 0), ask 0 admin (.verifyMilestone admin 1 1),
    ask 1 alice (.contribute 1 alice 1)]

/-- Each half rounds to nothing, so in no order are both claimed. -/
theorem milestones_locked :
    ∃ tr cfg campaign, Run (machine Sample.host) tr cfg ∧ ReadyToClose cfg.state 1 campaign ∧
      (∀ id, (Sample.claims id).auth campaign.creator = true) ∧
      ∀ order, order.Perm (unclaimedOf (cfg.state.campaigns.campaignMilestones 1)
          (cfg.state.campaigns.milestoneClaimed 1)) →
        ¬ Completes Sample.claims cfg.state 1 order := by
  have h : Sample.Ends 0 Sample.tiny fun _ cfg =>
      (cfg.state.admin.paused = false ∧ cfg.state.admin.autoPaused = false) ∧
      (∃ campaign ∈ cfg.state.campaigns.campaign 1, campaign.creator = Sample.creator ∧
        (campaign.isVerified = true ∧ campaign.isCancelled = false ∧
          campaign.fundsWithdrawn = false) ∧
        campaign.fundingGoal ≤ campaign.amountRaised ∧ 0 < campaign.amountRaised) ∧
      (cfg.state.campaigns.campaignMilestones 1 ≠ [] ∧
        ∀ m ∈ cfg.state.campaigns.campaignMilestones 1, m.verified = true) ∧
      unclaimedOf (cfg.state.campaigns.campaignMilestones 1)
        (cfg.state.campaigns.milestoneClaimed 1) ≠ [] ∧
      ∀ m ∈ unclaimedOf (cfg.state.campaigns.campaignMilestones 1)
          (cfg.state.campaigns.milestoneClaimed 1),
        (invoke (Sample.claims m.id) cfg.state (.claimMilestone 1 m.id)).isOk = false := by
    decide +kernel
  obtain ⟨tr, cfg, run, unpaused, ⟨campaign, stored, hcreator,
    ⟨verified, notCancelled, notWithdrawn⟩, goalMet, raised⟩, ⟨hplan, hmarked⟩, hopen, hfails⟩ :=
    h.run
  refine ⟨tr, cfg, campaign, run, ⟨stored, unpaused, verified, notCancelled, notWithdrawn, goalMet,
    raised, hplan, hmarked⟩, fun _ => ?_, ?_⟩
  · rw [hcreator]
    rfl
  · rintro order hperm ⟨s', -, hloop, -⟩
    cases order with
    | nil => exact hopen hperm.nil_eq.symm
    | cons milestone rest =>
        obtain ⟨s1, hs1, -⟩ := each_cons_eq_ok.mp hloop
        have hnot := hfails milestone (hperm.subset List.mem_cons_self)
        rw [hs1] at hnot
        cases hnot

end ProofOfHeart
