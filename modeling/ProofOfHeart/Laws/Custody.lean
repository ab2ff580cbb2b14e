import ProofOfHeart.Laws.Batch
import ProofOfHeart.Laws.RevenueSharing
import ProofOfHeart.Laws.Sovereignty
import ProofOfHeart.Laws.TokenMigration

/-! # Custody of the tokens

All campaigns keep their money in one account of each token. Unless the contract
itself signs a call, its balance in a token grows by at least what the call brings
the campaigns that settle in this token, so that it always covers all that these
campaigns have taken in and not paid out.
-/

namespace ProofOfHeart

open Checked Function Payments Trace

variable {host : Host} {tr : List Receipt} {cfg : Config} {c : Nat} {a : Account}
  {env : Env} {v v' : View} {call : Call} {s s' : State} {who token : Address} {amount : Int}
  {moves : List Transfer} {items : List (Nat × Int)}

/-! ## What a call brings -/

/-- The contract pays something out. -/
def Act.paysOut : Act → Bool
  | .refund _ | .withdraw | .release | .claimMilestone _ | .cancel | .claimRevenue _
  | .claimCreatorRevenue => true
  | _ => false

/-- What an act takes in for its campaign, less what it pays out. -/
def Act.brings (act : Act) (moves : List Transfer) : Int :=
  act.contributed + act.pays Act.isDeposit moves - act.pays Act.paysOut moves

/-- What has come in for campaign `c` and not gone out again. -/
def keptFor (c : Nat) (tr : List Receipt) : Int :=
  (tr.map fun r => (r.call.act c).brings r.post.tokens.moved).sum

theorem keptFor_cons {r : Receipt} : keptFor c (r :: tr) =
    (r.call.act c).brings r.post.tokens.moved + keptFor c tr := rfl

theorem keptFor_eq_zero (h : ∀ r ∈ tr, r.call.act c = .other) : keptFor c tr = 0 := by
  induction tr with
  | nil => rfl
  | cons r rest ih =>
      rw [keptFor_cons, h r List.mem_cons_self, ih fun x hx => h x (List.mem_cons_of_mem _ hx)]
      rfl

/-- What a call brings the campaigns that settle in one token. -/
def View.brings (v : View) (call : Call) (moves : List Transfer) (token : Address) : Int :=
  ∑ c ∈ v.ids, if v.currency c = some token then (call.act c).brings moves else 0

theorem View.brings_single (hc : c ∈ v.ids)
    (hother : ∀ other, other ≠ c → call.act other = .other) : v.brings call moves token =
      if v.currency c = some token then (call.act c).brings moves else 0 := by
  refine Finset.sum_eq_single c (fun other _ hne => ?_) (fun hnot => absurd hc hnot)
  rw [hother other hne]
  exact ite_self _

theorem View.brings_none (h : ∀ c, (call.act c).brings moves = 0) :
    v.brings call moves token = 0 :=
  Finset.sum_eq_zero fun c _ => by rw [h c, ite_self]

/-! ## The balance of the contract -/

/-- What the contract holds of a token. -/
def Tokens.held (w : Tokens) (token : Address) : Int := w.balance token contractAddress

theorem Tokens.held_in {w : Tokens} {sender other : Address} (hsender : sender ≠ contractAddress) :
    (w.move ⟨token, sender, contractAddress, amount⟩).held other =
      w.held other + if other = token then amount else 0 := by
  by_cases htoken : other = token
  · subst htoken
    simp [Tokens.held, Tokens.move, update_of_ne hsender.symm]
  · simp [Tokens.held, Tokens.move, htoken]

/-- A payment to the contract itself takes nothing from it. -/
theorem Tokens.held_out {w : Tokens} {t : Transfer} (hsender : t.sender = contractAddress)
    (hpos : 0 ≤ t.amount) :
    w.held token - (if token = t.token then t.amount else 0) ≤ (w.move t).held token := by
  by_cases htoken : token = t.token
  · subst htoken
    by_cases hrecipient : t.recipient = contractAddress
    · simp [Tokens.held, Tokens.move, hsender, hrecipient, hpos]
    · simp [Tokens.held, Tokens.move, hsender, update_of_ne (Ne.symm hrecipient)]
  · simp [Tokens.held, Tokens.move, htoken]

/-! ## A batch -/

theorem acceptContribution_currency (h : acceptContribution env s c who amount = .ok s')
    (other : Nat) : (view s').currency other = (view s).currency other := by
  obtain ⟨a, ha, -, -, hview⟩ := acceptContribution_spec h
  rw [hview]
  refine View.currency_congr ?_ rfl
  by_cases hother : other = c
  · subst hother
    simp [View.setAccount, Account.contribute, (View.account_eq_some.mp ha).2]
  · simp [View.setAccount, hother]

/-- The amounts of a batch that go to campaigns with the given currency. -/
def amountsIn (v : View) (token : Address) (items : List (Nat × Int)) : List (Nat × Int) :=
  items.filter fun item => v.currency item.1 = some token

/-- A batch owes in each token the amounts for the campaigns that settle in it. -/
theorem addsUp_owed {owed owed' : Address → Int}
    (h : AddsUp (Accepted env who) s owed items s' owed') (token : Address) :
    owed' token = owed token + ((amountsIn (view s) token items).map Prod.snd).sum := by
  induction h with
  | nil => exact (Int.add_zero _).symm
  | @cons s t s' owed owed' item rest paid cost accepts next ih =>
      obtain ⟨haccept, hcurrency, rfl⟩ := accepts
      have hsame := acceptContribution_currency haccept
      have hpaid : (view s).currency item.1 = some paid :=
        (hsame item.1).symm.trans ((getCampaignToken_eq_ok t).mp hcurrency)
      have hrest : amountsIn (view t) token rest = amountsIn (view s) token rest := by
        unfold amountsIn
        simp only [hsame]
      rw [ih, hrest, amountsIn, amountsIn, List.filter_cons, hpaid]
      by_cases htoken : token = paid
      · subst htoken
        simp only [update_self, decide_true, if_true, List.map_cons, List.sum_cons]
        omega
      · have hne : ¬ some paid = some token := fun heq => htoken (Option.some.inj heq).symm
        rw [update_of_ne htoken, decide_eq_false hne, if_neg Bool.false_ne_true]

theorem Act.brings_batch : ((Call.batchContribute who items).act c).brings moves =
    (amountsTo c items).sum := by
  rw [Call.act]
  split
  next hempty =>
      rw [hempty]
      rfl
  next => simp [Act.brings, Act.contributed, Act.pays, Act.isDeposit, Act.paysOut]

theorem View.brings_batch (h : ∀ item ∈ items, item.1 ∈ v.ids) :
    v.brings (.batchContribute who items) moves token =
      ((amountsIn v token items).map Prod.snd).sum := by
  have hids : ∀ item ∈ amountsIn v token items, item.1 ∈ v.ids :=
    fun item hitem => h item (List.mem_filter.mp hitem).1
  rw [← sum_amountsTo hids]
  refine Finset.sum_congr rfl fun c _ => ?_
  rw [Act.brings_batch]
  unfold amountsTo amountsIn
  rw [List.filter_filter]
  split
  next hcurrency =>
      congr 2
      refine List.filter_congr fun item _ => ?_
      by_cases hc : item.1 = c
      · simp [hc, hcurrency]
      · simp [hc]
  next hcurrency =>
      symm
      rw [List.filter_eq_nil_iff.mpr]
      · rfl
      · intro item _
        by_cases hc : item.1 = c
        · simp [hc, hcurrency]
        · simp [hc]

/-! ## One call -/

/-- A batch pays the contract all that it owes. -/
theorem batch_custody (reg : (view s).Registered) (hwho : who ≠ contractAddress)
    (h : invoke env s (.batchContribute who items) = .ok s') (token : Address) :
    s'.tokens.held token =
      s.tokens.held token + (view s).brings (.batchContribute who items) moves token := by
  have hids : ∀ item ∈ items, item.1 ∈ (view s).ids := by
    have hvalid : Receipt.Valid env.host ⟨env, .batchContribute who items, s, s'⟩ := ⟨rfl, h⟩
    intro item hitem
    obtain ⟨-, a, ha, -⟩ := (batchContribute_spec hvalid.dispatched).accepted item hitem
    exact reg.mem_ids ha
  obtain ⟨t, owed, moved, served, rfl⟩ := batchContribute_served hwho h
  have howed : owed token = 0 + ((amountsIn (view s) token items).map Prod.snd).sum :=
    addsUp_owed served.adds token
  have hpaid : (t.paid s who (less (s.holdings who) owed) moved).tokens.held token =
      s.tokens.held token + (s.holdings who token - less (s.holdings who) owed token) := by
    simp only [Tokens.held, State.paid, paidDown, if_neg hwho.symm, if_true]
    rfl
  rw [hpaid, View.brings_batch hids, less, howed]
  omega

theorem Account.Edit.brings {now : Nat} {record : Campaign} (h : a.Edit c now call record)
    (other : Nat) : (call.act other).brings moves = 0 := by
  cases h with
  | extend =>
      rw [Call.act]
      split <;> rfl
  | verify verifiable hcall => rcases hcall with rfl | rfl | ⟨ids, -, rfl⟩ <;> rfl
  | _ => rfl

/-- What comes in is paid by somebody else. -/
theorem View.custody_in {sender paid : Address} {w : Tokens} (hc : c ∈ v.ids)
    (hother : ∀ other, other ≠ c → call.act other = .other) (hsender : sender ≠ contractAddress)
    (currency : v.currency c = some paid) (hbrings : (call.act c).brings moves ≤ amount) :
    w.held token + v.brings call moves token ≤
      (w.move ⟨paid, sender, contractAddress, amount⟩).held token := by
  rw [View.brings_single hc hother, Tokens.held_in hsender, currency]
  by_cases htoken : token = paid
  · rw [if_pos (congrArg some htoken.symm), if_pos htoken]
    omega
  · rw [if_neg fun heq => htoken (Option.some.inj heq).symm, if_neg htoken]

/-- No tokens move, and the call brings nothing. -/
theorem View.custody_same {w w' : Tokens} (hsame : w' = w)
    (h : ∀ c, (call.act c).brings moves = 0) :
    w.held token + v.brings call moves token ≤ w'.held token := by
  rw [View.brings_none h, hsame, Int.add_zero]

/-- Payments of the contract in one currency. -/
def Outgoing (paid : Address) (outs : List Transfer) : Prop :=
  ∀ t ∈ outs, t.token = paid ∧ t.sender = contractAddress ∧ 0 ≤ t.amount

theorem Outgoing.held {paid : Address} {outs : List Transfer} (h : Outgoing paid outs)
    (w : Tokens) : w.held token - (if token = paid then (outs.map Transfer.amount).sum else 0) ≤
      (outs.foldl Tokens.move w).held token := by
  induction outs generalizing w with
  | nil => simp
  | cons t rest ih =>
      obtain ⟨⟨htoken, hsender, hpos⟩, hrest⟩ := List.forall_mem_cons.mp h
      have hfirst : w.held token - (if token = paid then t.amount else 0) ≤ (w.move t).held token :=
        htoken ▸ Tokens.held_out hsender hpos
      have hlater := ih hrest (w.move t)
      rw [List.foldl_cons, List.map_cons, List.sum_cons]
      split at hfirst
      next heq =>
          rw [if_pos heq] at hlater
          rw [if_pos heq]
          omega
      next hne =>
          rw [if_neg hne] at hlater
          rw [if_neg hne]
          omega

theorem Tokens.moved_moves (w : Tokens) (outs : List Transfer) :
    (outs.foldl Tokens.move w).moved = w.moved ++ outs := by
  induction outs generalizing w with
  | nil => exact (List.append_nil _).symm
  | cons t rest ih =>
      rw [List.foldl_cons, ih, Tokens.move, List.append_assoc]
      rfl

theorem Act.brings_out {act : Act} (h : act.paysOut = true) :
    act.brings moves = -(moves.map Transfer.amount).sum := by
  cases act with
  | contribute | plan | adminCancel | extend | deposit | other => cases h
  | _ => simp [Act.brings, Act.contributed, Act.pays, Act.isDeposit, Act.paysOut]

theorem View.custody_out {paid : Address} (outs : List Transfer) (hc : c ∈ v.ids)
    (hother : ∀ other, other ≠ c → call.act other = .other)
    (hact : (call.act c).paysOut = true) (currency : v.currency c = some paid)
    (hmoved : v.tokens.moved = []) (hout : Outgoing paid outs) :
    v.tokens.held token + v.brings call (outs.foldl Tokens.move v.tokens).moved token ≤
      (outs.foldl Tokens.move v.tokens).held token := by
  have hheld : v.tokens.held token - _ ≤ _ := hout.held v.tokens
  rw [View.brings_single hc hother, currency, Act.brings_out hact, Tokens.moved_moves, hmoved,
    List.nil_append]
  by_cases htoken : token = paid
  · rw [if_pos htoken] at hheld
    rw [if_pos (congrArg some htoken.symm)]
    omega
  · rw [if_neg htoken] at hheld
    rw [if_neg fun heq => htoken (Option.some.inj heq).symm]
    omega

/-- Whatever a single call brings the campaigns that settle in a token, the contract
holds more of it afterwards. -/
theorem dispatch_custody (reg : (view s).Registered) (hcall : call.deploys = false)
    (h : dispatch env s call = .ok s') (hmoved : s.tokens.moved = [])
    (hbatch : ∀ who items, call ≠ .batchContribute who items)
    (hself : env.auth contractAddress = false) (token : Address) :
    s.tokens.held token + (view s).brings call s'.tokens.moved token ≤ s'.tokens.held token := by
  have heffect := dispatch_effect hcall h
  have hbefore : s.tokens = (view s).tokens := rfl
  have hafter : s'.tokens = (view s').tokens := rfl
  rw [hbefore] at hmoved ⊢
  rw [hafter]
  generalize hpost : view s' = v' at heffect
  cases heffect with
  | @contribute c who amount a paid ha accepts pos currency =>
      refine View.custody_in (reg.mem_ids ha) (fun other hc => if_neg hc)
        (Ne.symm (Call.wallet_ne hself rfl h)) currency (Int.le_of_eq ?_)
      simp [Call.act, Act.brings, Act.contributed, Act.pays, Act.isDeposit, Act.paysOut]
  | batch => exact absurd rfl (hbatch _ _)
  | @refund c who a paid ha refundable pos currency =>
      exact View.custody_out [⟨paid, contractAddress, who, a.funds.contribution who⟩]
        (reg.mem_ids ha) (fun other hc => if_neg hc) (by rw [Call.act, if_pos rfl]; rfl) currency
        hmoved (List.forall_mem_singleton.mpr ⟨rfl, rfl, Int.le_of_lt pos⟩)
  | @withdraw c a paid recipient ha payable noPlan currency hrecipient feePos creatorPos =>
      exact View.custody_out [⟨paid, contractAddress, recipient, ((view s).split a).fee⟩,
          ⟨paid, contractAddress, a.record.creator, ((view s).split a).creator⟩]
        (reg.mem_ids ha) (fun other hc => if_neg hc) (by rw [Call.act, if_pos rfl]; rfl) currency
        hmoved (List.forall_mem_cons.mpr ⟨⟨rfl, rfl, feePos⟩,
          List.forall_mem_singleton.mpr ⟨rfl, rfl, creatorPos⟩⟩)
  | @release c a paid reserve ha hreserve unreleased due withdrawn currency pos =>
      exact View.custody_out [⟨paid, contractAddress, a.record.creator, reserve.amount⟩]
        (reg.mem_ids ha) (fun other hc => if_neg hc) (by rw [Call.act, if_pos rfl]; rfl) currency
        hmoved (List.forall_mem_singleton.mpr ⟨rfl, rfl, pos⟩)
  | @claimMilestone c a paid admin milestone ha payable mem marked unclaimed pos currency =>
      by_cases hfee : ((view s).milestonePay a milestone).fee > 0
      · simp only [if_pos hfee]
        exact View.custody_out
          [⟨paid, contractAddress, admin, ((view s).milestonePay a milestone).fee⟩,
            ⟨paid, contractAddress, a.record.creator, ((view s).milestonePay a milestone).creator⟩]
          (reg.mem_ids ha) (fun other hc => if_neg hc) (by rw [Call.act, if_pos rfl]; rfl) currency
          hmoved (List.forall_mem_cons.mpr ⟨⟨rfl, rfl, Int.le_of_lt hfee⟩,
            List.forall_mem_singleton.mpr ⟨rfl, rfl, Int.le_of_lt pos⟩⟩)
      · simp only [if_neg hfee]
        exact View.custody_out
          [⟨paid, contractAddress, a.record.creator, ((view s).milestonePay a milestone).creator⟩]
          (reg.mem_ids ha) (fun other hc => if_neg hc) (by rw [Call.act, if_pos rfl]; rfl) currency
          hmoved (List.forall_mem_singleton.mpr ⟨rfl, rfl, Int.le_of_lt pos⟩)
  | @cancel c a paid ha live unpaid goalMissed currency =>
      by_cases hpool : a.funds.pool > 0
      · simp only [if_pos hpool]
        exact View.custody_out [⟨paid, contractAddress, a.record.creator, a.funds.pool⟩]
          (reg.mem_ids ha) (fun other hc => if_neg hc) (by rw [Call.act, if_pos rfl]; rfl)
          (currency hpool) hmoved (List.forall_mem_singleton.mpr ⟨rfl, rfl, Int.le_of_lt hpool⟩)
      · simp only [if_neg hpool]
        refine View.custody_same rfl fun other => ?_
        rw [Call.act, hmoved]
        split <;> rfl
  | @deposit c amount a paid ha shares raised pos currency =>
      obtain ⟨record, hrecord, hsigned⟩ := depositRevenue_signed h
      obtain rfl : record = a.record :=
        Option.some.inj (hrecord.symm.trans (View.account_eq_some.mp ha).1)
      refine View.custody_in (reg.mem_ids ha) (fun other hc => if_neg hc) ?_ currency
        (Int.le_of_eq ?_)
      · intro heq
        rw [heq, hself] at hsigned
        cases hsigned
      · simp [Call.act, Act.brings, Act.contributed, Act.pays, Act.isDeposit, Act.paysOut,
          Tokens.move, hmoved]
  | @claimRevenue c who a paid ha shares contributed raised undrawn pos currency =>
      exact View.custody_out [⟨paid, contractAddress, who, a.claimable who⟩]
        (reg.mem_ids ha) (fun other hc => if_neg hc) (by rw [Call.act, if_pos rfl]; rfl) currency
        hmoved (List.forall_mem_singleton.mpr ⟨rfl, rfl, Int.le_of_lt pos⟩)
  | @claimCreatorRevenue c a paid ha sharing undrawn currency =>
      exact View.custody_out [⟨paid, contractAddress, a.record.creator,
          a.creatorSide a.funds.pool - a.funds.creatorClaimed⟩]
        (reg.mem_ids ha) (fun other hc => if_neg hc) (by rw [Call.act, if_pos rfl]; rfl) currency
        hmoved (List.forall_mem_singleton.mpr ⟨rfl, rfl, Int.sub_nonneg_of_le
          (Int.le_of_lt undrawn)⟩)
  | edit ha hedit => exact View.custody_same rfl hedit.brings
  | create hcall =>
      refine View.custody_same rfl fun c => ?_
      rcases hcall with ⟨rfl, -⟩ | ⟨token, rfl, -⟩ <;> rfl
  | plan | adminCancel =>
      refine View.custody_same rfl fun c => ?_
      rw [Call.act]
      split <;> rfl
  | verifyMilestone | handOver => exact View.custody_same rfl fun c => rfl
  | verifications hverified =>
      exact View.custody_same hverified.unchanged.2.2.2.2.2.2 fun c => rfl
  | administer hadmin =>
      obtain ⟨store, hstep, rfl⟩ := hadmin
      refine View.custody_same rfl fun c => ?_
      cases hstep <;> rfl
  | outside houtside =>
      refine View.custody_same rfl fun c => ?_
      cases call with
      | _ => first | rfl | cases houtside

/-! ## Along a run -/

theorem Receipt.Valid.custody {r : Receipt} (h : r.Valid host) (sane : (view r.pre).Sane)
    (hself : r.env.auth contractAddress = false) (token : Address) :
    r.pre.tokens.held token + (view r.pre).brings r.call r.post.tokens.moved token ≤
      r.post.tokens.held token := by
  by_cases hbatch : ∃ who items, r.call = .batchContribute who items
  · obtain ⟨who, items, hcall⟩ := hbatch
    have hdispatch := h.dispatched
    have hinvoke := h.2
    rw [hcall] at hinvoke hdispatch ⊢
    exact Int.le_of_eq (batch_custody sane.toRegistered
      (Ne.symm (Call.wallet_ne hself rfl hdispatch)) hinvoke token).symm
  · have sane' : (view r.pre.clearMoved).Registered := ⟨sane.exists_iff, sane.blank⟩
    exact dispatch_custody sane' (h.not_deploys sane.toConfigured) h.dispatched rfl
      (fun who items hcall => hbatch ⟨who, items, hcall⟩) hself token

/-- The currency of a campaign changes only with the platform token. -/
theorem Receipt.Valid.currency {r : Receipt} (h : r.Valid host) (sane : (view r.pre).Sane)
    (ha : (view r.pre).account c = some a) :
    (view r.post).currency c = (view r.pre).currency c ∨
      ∃ admin, r.call = .acceptTokenUpdate admin ∧ r.pre.campaigns.campaignToken c = none := by
  obtain ⟨⟨delta, -, hexisting⟩, -, -⟩ := h.stepped sane
  obtain ⟨a', ha', hstep⟩ := hexisting c a ha
  have htoken : ((view r.post).funds c).token = ((view r.pre).funds c).token := by
    rw [(View.account_eq_some.mp ha').2, (View.account_eq_some.mp ha).2, hstep.token_kept]
  rcases (h.effect sane.toConfigured).token with hsame | ⟨admin, hcall, -⟩
  · exact .inl (View.currency_congr htoken hsame)
  · cases hpinned : ((view r.pre).funds c).token with
    | none => exact .inr ⟨admin, hcall, hpinned⟩
    | some token =>
        left
        unfold View.currency
        rw [htoken, hpinned]

/-- The platform token changes only while nothing is kept for the campaigns that
settle in it. -/
def MigratesEmpty (tr : List Receipt) : Prop :=
  ∀ later r earlier, tr = later ++ r :: earlier → ∀ admin, r.call = .acceptTokenUpdate admin →
    ∀ c, r.pre.campaigns.campaignToken c = none → keptFor c earlier = 0

/-- The contract starts without debts in the token, never signs as a party of its own,
and leaves nothing behind in a token it gives up. -/
structure Custodial (token : Address) (tr : List Receipt) : Prop where
  start : ∀ r ∈ tr, r.call.deploys = true → 0 ≤ r.pre.tokens.held token
  party : ∀ r ∈ tr, r.env.auth contractAddress = false
  migrates : MigratesEmpty tr

theorem Custodial.earlier {r : Receipt} (h : Custodial token (r :: tr)) : Custodial token tr where
  start x hx := h.start x (List.mem_cons_of_mem _ hx)
  party x hx := h.party x (List.mem_cons_of_mem _ hx)
  migrates := (forall_split_cons.mp h.migrates).2

/-- What is kept for all campaigns that settle in one token. -/
def keptIn (token : Address) (tr : List Receipt) (v : View) : Int :=
  ∑ c ∈ v.ids, if v.currency c = some token then keptFor c tr else 0

/-- One call adds to what is kept in a token exactly what it brings. -/
theorem keptIn_step {r : Receipt} (run : Run (machine host) tr cfg) (hvalid : r.Valid host)
    (hpre : r.pre = cfg.state) (hmigrates : MigratesEmpty (r :: tr)) (token : Address) :
    keptIn token (r :: tr) (view r.post) =
      keptIn token tr (view r.pre) + (view r.pre).brings r.call r.post.tokens.moved token := by
  have sane := run_sane run
  have habsent := fun c => run_absent run (c := c)
  rw [← hpre] at sane habsent
  obtain ⟨hexisting, hfree, hcount⟩ := hvalid.stepped sane
  have hempty := (forall_split_cons.mp hmigrates).1
  have hold : ∀ c ∈ (view r.pre).ids,
      (if (view r.post).currency c = some token then keptFor c (r :: tr) else 0) =
        (if (view r.pre).currency c = some token then keptFor c tr else 0) +
          if (view r.pre).currency c = some token then
            (r.call.act c).brings r.post.tokens.moved else 0 := by
    intro c hc
    obtain ⟨a, ha⟩ := sane.account_of_mem hc
    rw [keptFor_cons]
    rcases hvalid.currency sane ha with hsame | ⟨admin, hcall, hunpinned⟩
    · rw [hsame]
      split
      next => exact Int.add_comm _ _
      next => rfl
    · -- nothing is kept for the campaign whose currency changes
      rw [hempty admin hcall c hunpinned, hcall]
      simp [Call.act, Act.brings, Act.contributed, Act.pays, Act.isDeposit, Act.paysOut]
  have hboth : ∑ c ∈ (view r.pre).ids,
      (if (view r.post).currency c = some token then keptFor c (r :: tr) else 0) =
        keptIn token tr (view r.pre) + (view r.pre).brings r.call r.post.tokens.moved token := by
    rw [Finset.sum_congr rfl hold, Finset.sum_add_distrib]
    rfl
  rcases hcount with hsame | ⟨hnext, -⟩
  · have hids : (view r.post).ids = (view r.pre).ids := by rw [View.ids, View.ids, hsame]
    rw [keptIn, hids, hboth]
  · have hnone := sane.next_none
    have hacts : ∀ x ∈ r :: tr, x.call.act ((view r.pre).campaignCount + 1) = .other :=
      List.forall_mem_cons.mpr ⟨(hfree _ hnone).1, habsent _ hnone⟩
    have hids : (view r.post).ids = Finset.Icc 1 ((view r.pre).campaignCount + 1) := by
      rw [View.ids, hnext]
    rw [keptIn, hids, Finset.sum_Icc_succ_top (Nat.le_add_left 1 _), keptFor_eq_zero hacts,
      ite_self, Int.add_zero]
    exact hboth

theorem run_keptIn (run : Run (machine host) tr cfg) (hcustody : Custodial token tr) :
    keptIn token tr (view cfg.state) ≤ cfg.state.tokens.held token := by
  revert hcustody
  refine run.invariant (I := fun tr cfg => Custodial token tr →
    keptIn token tr (view cfg.state) ≤ cfg.state.tokens.held token) ?_ ?_ ?_
  · rintro r cfg hstart hcustody
    have hfresh := start_fresh hstart
    obtain ⟨hvalid, -, ⟨admin, platform, platformFee, hcall⟩, rfl⟩ := hstart
    have hnone : keptIn token [r] (view r.post) = 0 := by
      rw [keptIn, View.ids, hfresh.campaignCount]
      rfl
    have hkept : r.post.tokens.held token = r.pre.tokens.held token := by
      have hinit := hvalid.dispatched
      rw [hcall] at hinit
      simp only [dispatch, init, bind_eq_ok, pure_eq_ok] at hinit
      obtain ⟨_, -, _, -, _, -, _, -, _, -, hpost⟩ := hinit
      rw [← hpost]
      rfl
    rw [hnone, hkept]
    exact hcustody.start r (List.mem_singleton_self r) (by rw [hcall]; rfl)
  · rintro tr cfg r cfg' run ih ⟨hvalid, hledger, hpre, rfl⟩ hcustody
    have hbefore := ih hcustody.earlier
    have sane := run_sane run
    rw [← hpre] at sane hbefore
    rw [keptIn_step run hvalid hpre hcustody.migrates]
    have hcall := hvalid.custody sane (hcustody.party r List.mem_cons_self) token
    dsimp only
    omega
  · rintro tr cfg cfg' ih ⟨tokens, hdrift, rfl⟩ hcustody
    exact Int.le_trans (ih hcustody) (hdrift token)

/-! ## What is kept for a campaign -/

def Act.isCreatorCancel : Act → Bool
  | .cancel => true
  | _ => false

theorem keptFor_eq : keptFor c tr = contributedTo c tr + paidFor Act.isDeposit c tr -
    (paidFor Act.isRefund c tr + paidFor Act.isWithdraw c tr + milestonesPaid c tr +
      paidFor Act.isRelease c tr + paidFor Act.isRevenueClaim c tr +
      paidFor Act.isCreatorCancel c tr) := by
  induction tr with
  | nil => rfl
  | cons r rest ih =>
      have hact : (r.call.act c).pays Act.paysOut r.post.tokens.moved =
          (r.call.act c).pays Act.isRefund r.post.tokens.moved +
            (r.call.act c).pays Act.isWithdraw r.post.tokens.moved +
            (r.call.act c).pays Act.isMilestoneClaim r.post.tokens.moved +
            (r.call.act c).pays Act.isRelease r.post.tokens.moved +
            (r.call.act c).pays Act.isRevenueClaim r.post.tokens.moved +
            (r.call.act c).pays Act.isCreatorCancel r.post.tokens.moved := by
        cases r.call.act c <;> simp [Act.pays, Act.paysOut, Act.isRefund, Act.isWithdraw,
          Act.isMilestoneClaim, Act.isRelease, Act.isRevenueClaim, Act.isCreatorCancel]
      have hmilestones : milestonesPaid c (r :: rest) =
          (r.call.act c).pays Act.isMilestoneClaim r.post.tokens.moved +
            milestonesPaid c rest := rfl
      rw [keptFor_cons, ih, Act.brings, hact, hmilestones]
      simp only [contributedTo_cons, paidFor_cons]
      omega

theorem Call.cancel_of_act (h : (call.act c).isCreatorCancel = true) :
    call = .cancelCampaign c := by
  cases call with
  | cancelCampaign id =>
      by_cases hid : c = id
      · rw [hid]
      · rw [Call.act, if_neg hid] at h
        cases h
  | _ =>
      simp only [Call.act] at h
      first | cases h | (split at h <;> cases h)

/-- A creator can cancel only before any revenue has come in. -/
theorem run_cancel_pays (run : Run (machine host) tr cfg) (c : Nat) :
    paidFor Act.isCreatorCancel c tr = 0 := by
  suffices h : ∀ r ∈ tr, (r.call.act c).pays Act.isCreatorCancel r.post.tokens.moved = 0 by
    refine List.sum_eq_zero fun x hx => ?_
    obtain ⟨r, hr, rfl⟩ := List.mem_map.mp hx
    exact h r hr
  refine run_receipts ?_ ?_ run
  · rintro r cfg ⟨-, -, ⟨admin, platform, platformFee, hcall⟩, -⟩
    rw [hcall]
    rfl
  · intro tr cfg r run hvalid hpre
    cases hcancel : (r.call.act c).isCreatorCancel with
    | false => exact Act.pays_of_not hcancel
    | true =>
        have hdispatch := hvalid.dispatched
        rw [Call.cancel_of_act hcancel] at hdispatch
        obtain ⟨a, token, ha, live, unpaid, -, -, hview⟩ := cancelCampaign_spec hdispatch
        have hrun : (view cfg.state).account c = some a := hpre ▸ ha
        obtain ⟨hpool, -⟩ := (run_revenueBooks run hrun).unpaid unpaid
        have hmoved : r.post.tokens.moved = [] := by
          have htokens := congrArg (fun v : View => v.tokens.moved) hview
          simp only [hpool, gt_iff_lt, Int.lt_irrefl, if_false] at htokens
          exact htokens
        rw [Act.pays, hmoved, List.map_nil, List.sum_nil, ite_self]

/-- What is kept for a campaign is what is left of its contributions after refunds and
payouts, and what is left of its revenue. -/
theorem run_keptFor (run : Run (machine host) tr cfg)
    (ha : (view cfg.state).account c = some a) : keptFor c tr =
      a.record.effectiveAmountRaised -
        (paidFor Act.isWithdraw c tr + milestonesPaid c tr + paidFor Act.isRelease c tr) +
      (a.funds.pool - a.funds.distributed - a.funds.creatorClaimed) := by
  have tallied := run_tallied run ha
  have revenue := run_revenueBooks run ha
  rw [keptFor_eq, run_cancel_pays run c, tallied.raised, tallied.refunded, ← revenue.deposits,
    revenue.paid]
  omega

/-! ## The law -/

/-- The platform token may change. -/
def Call.migrates : Call → Bool
  | .acceptTokenUpdate _ => true
  | _ => false

theorem migratesEmpty_of_none (h : ∀ r ∈ tr, r.call.migrates = false) : MigratesEmpty tr := by
  rintro later r earlier rfl admin hcall
  have hnot := h r (List.mem_append_right _ List.mem_cons_self)
  rw [hcall] at hnot
  cases hnot

/-- A campaign in a currency of its own is partly refunded after another one in the
platform token has been paid out. -/
def Sample.twoTokens : List Request :=
  currencies ++ [ask 1 alice (.batchContribute alice mixed),
    ask 2 bob (.contribute 1 bob 70000), ask 2 bob (.contribute 2 bob 5000),
    ask 3 creator (.withdrawFunds 1), ask 900000 alice (.claimRefund 2 alice)]

end ProofOfHeart
