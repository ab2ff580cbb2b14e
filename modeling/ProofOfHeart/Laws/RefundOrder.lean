import ProofOfHeart.Laws.CreatorIndex
import ProofOfHeart.Laws.Exits

/-! # Everybody is refunded, in whatever order

The contributors of a campaign that is refundable claim one after another. What they
hold together is kept for them from the start, so that every claim goes through, and
what the claims leave depends on who has claimed but not on the order.
-/

namespace ProofOfHeart

open Checked Function Table Trace Balances

variable {host : Host} {tr : List Receipt} {cfg : Config} {s s' : State} {c : Nat}
  {env : Env} {who token : Address} {campaign : Campaign} {order rest : List Address}
  {envs : Address → Env} {fees : Nat → Nat}

/-! ## What several refunds leave -/

/-- What some contributors hold together. -/
def heldBy (s : State) (c : Nat) (order : List Address) : Int :=
  (order.map (s.contributions.contribution c)).sum

/-- The balances once the contract has paid each listed holder its amount. -/
def paidBack (balance amount : Address → Int) (order : List Address) (holder : Address) : Int :=
  if holder = contractAddress then balance holder - (order.map amount).sum
  else if holder ∈ order then balance holder + amount holder else balance holder

/-- The global counter has lost a cancelled campaign as a whole. -/
def uncounted (s : State) (c : Nat) (amount : Int) : Int :=
  if (s.campaigns.campaign c).any Campaign.isCancelled then s.contributions.totalRaised
  else s.contributions.totalRaised - amount

/-- What a refund does to the record. -/
def Campaign.giveBack (amount : Int) (campaign : Campaign) : Campaign :=
  { campaign with effectiveAmountRaised := campaign.effectiveAmountRaised - amount }

/-- The store when the listed contributors have been refunded. -/
def State.refunded (s : State) (c : Nat) (token : Address) (order : List Address) : State :=
  { s with
    campaigns.campaign := update s.campaigns.campaign c
      ((s.campaigns.campaign c).map (Campaign.giveBack (heldBy s c order)))
    contributions := { s.contributions with
      contribution := update s.contributions.contribution c
        (wipe (s.contributions.contribution c) 0 order)
      personalCap := update s.contributions.personalCap c
        (wipe (s.contributions.personalCap c) none order)
      contributorCount := update s.contributions.contributorCount c
        (s.contributions.contributorCount c - order.length)
      totalRaised := uncounted s c (heldBy s c order) }
    revenue.revenueClaimed := update s.revenue.revenueClaimed c
      (wipe (s.revenue.revenueClaimed c) 0 order)
    tokens :=
      { balance := update s.tokens.balance token
          (paidBack (s.tokens.balance token) (s.contributions.contribution c) order)
        moved := [] } }

theorem heldBy_perm {order order' : List Address} (h : order.Perm order') :
    heldBy s c order = heldBy s c order' := (h.map _).sum_eq

theorem State.refunded_nil : s.refunded c token [] = s.clearMoved := by
  have hrecord : Campaign.giveBack 0 = id := by
    funext campaign
    simp [Campaign.giveBack]
  have hpaid : paidBack (s.tokens.balance token) (s.contributions.contribution c) [] =
      s.tokens.balance token := by
    funext holder
    simp [paidBack]
  simp [State.refunded, heldBy, uncounted, hpaid, hrecord, State.clearMoved]

theorem paidBack_cons {balance amount : Address → Int} (hwho : who ≠ contractAddress)
    (hrest : who ∉ rest) : paidBack balance amount (who :: rest) =
      paidBack (paidBack balance amount [who]) (wipe amount 0 [who]) rest := by
  have hsum : (rest.map (wipe amount 0 [who])).sum = (rest.map amount).sum := by
    refine congrArg List.sum (List.map_congr_left fun other hother => wipe_of_notMem ?_)
    rw [List.mem_singleton]
    rintro rfl
    exact hrest hother
  funext holder
  by_cases hparty : holder = contractAddress
  · simp only [paidBack, if_pos hparty, hsum, List.map_cons, List.sum_cons, List.map_nil,
      List.sum_nil]
    omega
  by_cases hholder : holder = who
  · subst hholder
    simp [paidBack, hparty, hrest]
  · by_cases hmem : holder ∈ rest
    · simp [paidBack, hparty, hholder, hmem, wipe]
    · simp [paidBack, hparty, hholder, hmem]

theorem heldBy_refunded (h : who ∉ rest) :
    heldBy (s.refunded c token [who]) c rest = heldBy s c rest := by
  refine congrArg List.sum (List.map_congr_left fun other hother => ?_)
  have hne : other ∉ [who] := fun hmem => h (List.mem_singleton.mp hmem ▸ hother)
  exact (congrFun (update_self ..) other).trans (wipe_of_notMem hne)

theorem heldBy_cons :
    heldBy s c (who :: rest) = s.contributions.contribution c who + heldBy s c rest := rfl

theorem uncounted_refunded {amount : Int} : uncounted (s.refunded c token [who]) c amount =
    uncounted s c (s.contributions.contribution c who + amount) := by
  have hflag : ((s.refunded c token [who]).campaigns.campaign c).any Campaign.isCancelled =
      (s.campaigns.campaign c).any Campaign.isCancelled := by
    simp only [State.refunded, update_self]
    cases s.campaigns.campaign c <;> rfl
  rw [uncounted, hflag, uncounted]
  simp only [State.refunded, uncounted, heldBy, List.map_cons, List.map_nil, List.sum_cons,
    List.sum_nil]
  split <;> omega

theorem Campaign.giveBack_add (first second : Int) :
    giveBack (first + second) = giveBack second ∘ giveBack first := by
  funext campaign
  simp [giveBack, Int.sub_sub]

/-- A first refund and then the others. -/
theorem State.refunded_cons (hwho : who ≠ contractAddress) (hrest : who ∉ rest) :
    s.refunded c token (who :: rest) = (s.refunded c token [who]).refunded c token rest := by
  have hcount (count : Nat) :
      count - (who :: rest).length = count - [who].length - rest.length := by
    simp only [List.length_cons, List.length_nil]
    omega
  have hone : heldBy s c [who] = s.contributions.contribution c who := Int.add_zero _
  conv_rhs => rw [State.refunded, heldBy_refunded hrest, uncounted_refunded]
  simp only [State.refunded, update_self, update_idem, wipe_wipe, List.singleton_append,
    heldBy_cons, Option.map_map, ← paidBack_cons hwho hrest, hcount, hone, Campaign.giveBack_add]

theorem decrementContributorCount_eq : decrementContributorCount s c =
    setContributorCount s c (s.contributions.contributorCount c - 1) := by
  unfold decrementContributorCount
  dsimp only
  split
  next => rfl
  next hnone =>
      rw [show s.contributions.contributorCount c - 1 = s.contributions.contributorCount c by omega]
      simp [setContributorCount]

theorem deductRefund_eq {t t' : State} {amount : Int}
    (h : deductRefund t campaign amount = .ok t')
    (hflag : (s.campaigns.campaign c).any Campaign.isCancelled = campaign.isCancelled)
    (htotal : t.contributions.totalRaised = s.contributions.totalRaised) :
    t' = setTotalRaisedGlobal t (uncounted s c amount) := by
  unfold deductRefund at h
  rw [uncounted, hflag, ← htotal]
  split at h
  next hcancelled =>
      rw [← pure_eq_ok.mp h, if_pos hcancelled]
      rfl
  next hlive =>
      simp only [bind_eq_ok, okOr_eq_ok, I128.checkedSub_eq_some, pure_eq_ok] at h
      obtain ⟨_, ⟨rfl, -⟩, rfl⟩ := h
      rw [if_neg hlive]

theorem paidBack_one (amount : Address → Int) (w : Tokens) (hwho : who ≠ contractAddress)
    (token : Address) :
    (w.move ⟨token, contractAddress, who, amount who⟩).balance =
      update w.balance token (paidBack (w.balance token) amount [who]) := by
  refine congrArg (update w.balance token) (funext fun holder => ?_)
  by_cases hparty : holder = contractAddress
  · subst hparty
    simp [paidBack, update_of_ne hwho.symm]
  · by_cases hholder : holder = who
    · subst hholder
      simp [paidBack, hparty]
    · simp [paidBack, hparty, hholder]

/-- One refund. -/
theorem claimRefund_refunded (currency : (view s).currency c = some token)
    (hwho : who ≠ contractAddress) (h : claimRefund env s c who = .ok s') :
    s'.clearMoved = s.refunded c token [who] := by
  simp only [claimRefund, getCampaignOrError, bind_eq_ok, rejectIf_eq_ok, okOr_eq_ok,
    I128.checkedSub_eq_some, decrementContributorCount_eq] at h
  obtain ⟨_, -, _, -, record, hrecord, _, -, _, -, _, ⟨rfl, -⟩, s1, hs1, paid, hpaid, h⟩ := h
  obtain rfl := deductRefund_eq hs1 (s := s) (c := c) (by rw [hrecord]; rfl) rfl
  have hsame : getCampaignToken s c = .ok paid := hpaid
  obtain rfl := Option.some.inj (currency.symm.trans ((getCampaignToken_eq_ok s).mp hsame))
  obtain ⟨-, -, rfl⟩ := transfer_eq_ok.mp h
  have hone : heldBy s c [who] = s.contributions.contribution c who := Int.add_zero _
  have hpaidBack := paidBack_one (s.contributions.contribution c) s.tokens hwho token
  simp only [State.refunded, hone, hrecord, Option.map_some, Campaign.giveBack,
    List.length_singleton, ← hpaidBack, ← put_eq_wipe]
  rfl

/-! ## The claims one after another -/

/-- The listed contributors claim in turn, each in a context of its own. -/
def refundEach (envs : Address → Env) (c : Nat) (s : State) (order : List Address) :
    Outcome State :=
  each (fun s who => invoke (envs who) s (.claimRefund c who)) s order

/-- Everything the claims of some contributors need. -/
structure Refunding (envs : Address → Env) (s : State) (c : Nat) (token : Address)
    (campaign : Campaign) (order : List Address) : Prop where
  typed : isU32 c
  record : s.campaigns.campaign c = some campaign
  currency : (view s).currency c = some token
  unpaused : s.admin.paused = false ∧ s.admin.autoPaused = false
  distinct : order.Nodup
  party : contractAddress ∉ order
  signed : ∀ who ∈ order, (envs who).auth who = true
  refundable : ∀ who ∈ order, campaign.isCancelled = true ∨ failedDueToGoal (envs who) campaign
  contributed : ∀ who ∈ order, 0 < s.contributions.contribution c who
  effective : heldBy s c order ≤ campaign.effectiveAmountRaised ∧
    campaign.effectiveAmountRaised ≤ I128.maxValue
  counted : campaign.isCancelled = false → s.contributions.totalRaised ≤ I128.maxValue ∧
    I128.minValue ≤ s.contributions.totalRaised - heldBy s c order
  held : heldBy s c order ≤ s.tokens.held token

theorem Refunding.rest_nonneg (h : Refunding envs s c token campaign (who :: rest)) :
    0 ≤ heldBy s c rest := by
  refine List.sum_nonneg fun amount hamount => ?_
  obtain ⟨other, hother, rfl⟩ := List.mem_map.mp hamount
  exact Int.le_of_lt (h.contributed other (List.mem_cons_of_mem _ hother))

/-- The first claim goes through. -/
theorem Refunding.goes (h : Refunding envs s c token campaign (who :: rest)) :
    ∃ s1, invoke (envs who) s (.claimRefund c who) = .ok s1 := by
  have hpos := h.contributed who List.mem_cons_self
  have hrest := h.rest_nonneg
  have heffective := h.effective
  have hheld := h.held
  rw [heldBy_cons] at heffective hheld
  have ha : (view s.clearMoved).account c = some ⟨campaign, fundsOf s c⟩ :=
    View.account_of_campaign h.record
  have hin : I128.InRange
      (campaign.effectiveAmountRaised - s.contributions.contribution c who) := by
    have hmin : I128.minValue ≤ 0 := by decide
    exact ⟨by omega, by omega⟩
  have checks : RefundDue (envs who) s.clearMoved ⟨campaign, fundsOf s c⟩ who :=
    ⟨h.signed who List.mem_cons_self, h.unpaused, h.refundable who List.mem_cons_self,
      Int.ne_of_gt hpos⟩
  have gated := claimRefund_gated ha checks (Int.le_of_lt hpos) hin
  have typed : (Call.claimRefund c who).WellTyped := h.typed
  rw [invoke_eq typed]
  refine (gated.goes_iff fun abort habort hunpaid => ?_).mpr fun hlive => ?_
  · refine absurd (hunpaid.balance_lt h.currency) (Int.not_lt.mpr ?_)
    exact Int.le_trans (Int.le_add_of_nonneg_right hrest) hheld
  · obtain ⟨hmax, hmin⟩ := h.counted hlive
    rw [heldBy_cons] at hmin
    exact ⟨Int.le_trans hmin (Int.sub_le_sub_left (Int.le_add_of_nonneg_right hrest) _),
      Int.le_trans (Int.sub_le_self _ (Int.le_of_lt hpos)) hmax⟩

/-- After the first claim everything is there for the others. -/
theorem Refunding.next (h : Refunding envs s c token campaign (who :: rest)) :
    Refunding envs (s.refunded c token [who]) c token
      (campaign.giveBack (s.contributions.contribution c who)) rest := by
  obtain ⟨hnot, hdistinct⟩ := List.nodup_cons.mp h.distinct
  have hpos := h.contributed who List.mem_cons_self
  have hone : heldBy s c [who] = s.contributions.contribution c who := Int.add_zero _
  have hwho : contractAddress ≠ who := fun heq => h.party (heq ▸ List.mem_cons_self)
  have hheld : (s.refunded c token [who]).tokens.held token =
      s.tokens.held token - s.contributions.contribution c who := by
    simp [Tokens.held, State.refunded, paidBack]
  refine ⟨h.typed, ?_, h.currency, h.unpaused, hdistinct,
    fun hmem => h.party (List.mem_cons_of_mem _ hmem),
    fun other hother => h.signed other (List.mem_cons_of_mem _ hother),
    fun other hother => h.refundable other (List.mem_cons_of_mem _ hother),
    fun other hother => ?_, ?_, fun hlive => ?_, ?_⟩
  · simp [State.refunded, h.record, hone]
  · have hne : other ∉ [who] := fun hmem => hnot (List.mem_singleton.mp hmem ▸ hother)
    have hkept : (s.refunded c token [who]).contributions.contribution c other =
        s.contributions.contribution c other :=
      (congrFun (update_self ..) other).trans (wipe_of_notMem hne)
    rw [hkept]
    exact h.contributed other (List.mem_cons_of_mem _ hother)
  · have heffective := h.effective
    rw [heldBy_cons] at heffective
    rw [heldBy_refunded hnot]
    dsimp only [Campaign.giveBack]
    omega
  · obtain ⟨hmax, hmin⟩ := h.counted hlive
    rw [heldBy_cons] at hmin
    have htotal : (s.refunded c token [who]).contributions.totalRaised =
        s.contributions.totalRaised - s.contributions.contribution c who := by
      have hflag : (s.campaigns.campaign c).any Campaign.isCancelled = false := by
        rw [h.record]
        exact hlive
      simp [State.refunded, uncounted, hflag, hone]
    rw [heldBy_refunded hnot, htotal]
    omega
  · have hbefore := h.held
    rw [heldBy_cons] at hbefore
    rw [heldBy_refunded hnot, hheld]
    omega

theorem Refunding.of_clearMoved (h : Refunding envs s.clearMoved c token campaign order) :
    Refunding envs s c token campaign order :=
  ⟨h.typed, h.record, h.currency, h.unpaused, h.distinct, h.party, h.signed, h.refundable,
    h.contributed, h.effective, h.counted, h.held⟩

/-- All the claims go through. By induction on the list: a claim leaves the store ready
for the next one. -/
theorem Refunding.loop (h : Refunding envs s c token campaign order) :
    ∃ s', refundEach envs c s order = .ok s' := by
  induction order generalizing s campaign with
  | nil => exact ⟨s, rfl⟩
  | cons who rest ih =>
      obtain ⟨s1, hs1⟩ := h.goes
      have hwho : who ≠ contractAddress := fun heq => h.party (heq ▸ List.mem_cons_self)
      have hvalid : Receipt.Valid (envs who).host ⟨envs who, .claimRefund c who, s, s1⟩ :=
        ⟨rfl, hs1⟩
      have hone : s1.clearMoved = s.refunded c token [who] :=
        claimRefund_refunded (s := s.clearMoved) h.currency hwho hvalid.dispatched
      obtain ⟨s', hs'⟩ := ih (hone ▸ h.next).of_clearMoved
      exact ⟨s', each_cons_eq_ok.mpr ⟨s1, hs1, hs'⟩⟩

theorem Refunding.perm {order' : List Address} (h : Refunding envs s c token campaign order)
    (hperm : order'.Perm order) : Refunding envs s c token campaign order' where
  typed := h.typed
  record := h.record
  currency := h.currency
  unpaused := h.unpaused
  distinct := hperm.nodup_iff.mpr h.distinct
  party hmem := h.party (hperm.mem_iff.mp hmem)
  signed who hwho := h.signed who (hperm.mem_iff.mp hwho)
  refundable who hwho := h.refundable who (hperm.mem_iff.mp hwho)
  contributed who hwho := h.contributed who (hperm.mem_iff.mp hwho)
  effective := heldBy_perm hperm ▸ h.effective
  counted := heldBy_perm hperm ▸ h.counted
  held := heldBy_perm hperm ▸ h.held

/-! ## The law -/

/-- Nobody holds anything of the campaign any more. -/
structure State.Emptied (s : State) (c : Nat) : Prop where
  contribution : ∀ who, s.contributions.contribution c who = 0
  contributorCount : s.contributions.contributorCount c = 0
  effective : ∀ campaign, s.campaigns.campaign c = some campaign →
    campaign.effectiveAmountRaised = 0

theorem run_refunding (run : Run (machine host) tr cfg) (orderly : Orderly fees tr)
    (hcustody : Custodial token tr) (hcampaign : cfg.state.campaigns.campaign c = some campaign)
    (currency : (view cfg.state).currency c = some token)
    (unpaused : cfg.state.admin.paused = false ∧ cfg.state.admin.autoPaused = false)
    (distinct : order.Nodup) (party : contractAddress ∉ order)
    (signed : ∀ who ∈ order, (envs who).auth who = true)
    (refundable : ∀ who ∈ order, campaign.isCancelled = true ∨ failedDueToGoal (envs who) campaign)
    (contributed : ∀ who ∈ order, cfg.state.contributions.contribution c who ≠ 0)
    (counted : campaign.isCancelled = false →
      I128.minValue ≤ cfg.state.contributions.totalRaised - heldBy cfg.state c order)
    (hsome : order ≠ []) : Refunding envs cfg.state c token campaign order := by
  have ha := View.account_of_campaign (v := view cfg.state) hcampaign
  have sane := run_sane run
  have books := (run_books run ha).1
  have bounded := run_bounded run
  obtain ⟨first, hfirst⟩ := List.exists_mem_of_ne_nil order hsome
  have hkept := run_effective_kept run orderly ha (refundable first hfirst)
  have hheld := keptFor_le_held run orderly hcustody ha currency
  have hsum : heldBy cfg.state c order ≤ campaign.effectiveAmountRaised := by
    have hle := sum_le_total books.contribution_finite books.contribution_nonneg distinct
    rwa [books.live] at hle
  have hmax : campaign.effectiveAmountRaised ≤ I128.maxValue :=
    (raised_inRange books.effective_nonneg (Int.le_trans books.effective_le
      (bounded.account _ _ ha).raised)).2
  refine ⟨?_, hcampaign, currency, unpaused, distinct, party, signed, refundable,
    fun who hwho => ?_, ⟨hsum, hmax⟩, fun hlive => ⟨bounded.totalRaised, counted hlive⟩,
    Int.le_trans hsum (Int.le_trans hkept hheld)⟩
  · exact Nat.lt_of_le_of_lt ((sane.exists_iff c).mp ⟨_, ha⟩).2 (run_count_lt run)
  · exact Int.lt_iff_le_and_ne.mpr ⟨books.contribution_nonneg who, Ne.symm (contributed who hwho)⟩

/-- When all contributors are on the list, nothing is left. -/
theorem run_emptied (run : Run (machine host) tr cfg)
    (hcampaign : cfg.state.campaigns.campaign c = some campaign) (distinct : order.Nodup)
    (hall : ∀ who, who ∈ order ↔ cfg.state.contributions.contribution c who ≠ 0) :
    (cfg.state.refunded c token order).Emptied c := by
  have ha := View.account_of_campaign (v := view cfg.state) hcampaign
  have books := (run_books run ha).1
  have hpos (who : Address) : cfg.state.contributions.contribution c who ≠ 0 ↔
      0 < cfg.state.contributions.contribution c who :=
    ⟨fun hne => Int.lt_iff_le_and_ne.mpr ⟨books.contribution_nonneg who, Ne.symm hne⟩, Int.ne_of_gt⟩
  refine ⟨fun who => ?_, ?_, fun record hrecord => ?_⟩
  · have hcell : (cfg.state.refunded c token order).contributions.contribution c who =
        wipe (cfg.state.contributions.contribution c) 0 order who := congrFun (update_self ..) who
    rw [hcell]
    by_cases hmem : who ∈ order
    · exact wipe_of_mem hmem
    · exact (wipe_of_notMem hmem).trans (not_not.mp (mt (hall who).mpr hmem))
  · have hcount := ncard_holders_eq distinct fun who => (hall who).trans (hpos who)
    have hsame : cfg.state.contributions.contributorCount c = order.length :=
      books.count.trans hcount
    simp [State.refunded, hsame]
  · have htotal : heldBy cfg.state c order = campaign.effectiveAmountRaised :=
      (total_eq_sum distinct fun who => (hall who).mpr).symm.trans books.live
    simp only [State.refunded, update_self, hcampaign, Option.map_some] at hrecord
    rw [← Option.some.inj hrecord, Campaign.giveBack, htotal]
    exact Int.sub_self _

/-- A failed campaign with two contributors. -/
def Sample.failed : List Request :=
  opened 0 ++ [ask 1 alice (.contribute 1 alice 30000), ask 1 bob (.contribute 1 bob 20000)]

end ProofOfHeart
