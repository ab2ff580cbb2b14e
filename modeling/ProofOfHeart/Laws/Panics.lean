import ProofOfHeart.Laws.Burst
import ProofOfHeart.Laws.ContributorRevenue
import ProofOfHeart.Laws.CreatorSlots
import ProofOfHeart.Laws.Listings
import ProofOfHeart.Laws.Verification
import ProofOfHeart.Laws.WindDown

/-! # Calls that panic

A call that does not go through ends in an error of the contract, in a missing signature,
in a token that refuses to pay, or in a panic. The last would be a fault of the contract:
unchecked arithmetic, an entry that is not there, a text too long for its buffer. In a
run none occurs, except that a campaign can have all the contributors it can count.
-/

namespace ProofOfHeart

open Checked Function Trace Windows Balances

variable {host : Host} {tr : List Receipt} {cfg : Config} {env : Env} {s s' : State}
  {call : Call} {c id : Nat} {who admin token : Address} {amount : Int} {a : Account}
  {campaign : Campaign}

def Abort.Panics : Abort → Prop
  | .trap .arithmetic | .trap .missingEntry | .trap .badArgument => True
  | _ => False

/-- The computation goes through or fails without a panic. -/
abbrev Quiet {α : Type} (x : Outcome α) : Prop := Avoids Abort.Panics x

@[simp] theorem not_panics_err {e : Error} : ¬ Abort.Panics (.err e) := id

@[simp] theorem not_panics_auth : ¬ Abort.Panics (.trap .auth) := id

@[simp] theorem not_panics_token : ¬ Abort.Panics (.trap .token) := id

/-- The entries that `init` writes are there. -/
structure Furnished (s : State) : Prop where
  admin : s.admin.admin ≠ none
  token : s.admin.token ≠ none

theorem Furnished.congr (h : Furnished s) (hadmin : (view s').admin = (view s).admin) :
    Furnished s' := by
  have hsame : s'.admin = s.admin := hadmin
  exact ⟨hsame ▸ h.admin, hsame ▸ h.token⟩

/-! ## The shared steps -/

section Steps

variable {α : Type} {e : Abort} {n : Nat} {x y : Int}

theorem Quiet.count {f : Nat → Outcome α} (hroom : n + 1 < 2 ^ 32) (hf : Quiet (f (n + 1))) :
    Quiet (okOr (Word.checkedAdd 32 n 1) e >>= f) :=
  .pass (okOr_eq_ok.mpr (Word.checkedAdd_eq_some.mpr ⟨rfl, hroom⟩)) hf

/-- A difference of two amounts cannot overflow. -/
theorem Quiet.minus {f : Int → Outcome α} (hx : 0 ≤ x ∧ x ≤ I128.maxValue)
    (hy : 0 ≤ y ∧ y ≤ I128.maxValue) (hf : Quiet (f (x - y))) :
    Quiet (okOr (I128.checkedSub x y) e >>= f) := by
  have hmin : I128.minValue ≤ -I128.maxValue := by decide
  refine .pass (okOr_eq_ok.mpr (I128.checkedSub_eq_some.mpr ⟨rfl, ?_, ?_⟩)) hf
  · omega
  · omega

theorem requireAuth_quiet : Quiet (requireAuth env who) := .reject id

theorem requireNotPaused_quiet : Quiet (requireNotPaused s) := .reject id

theorem getAdmin_quiet (h : Furnished s) : Quiet (getAdmin s) := by
  obtain ⟨admin, hadmin⟩ := Option.ne_none_iff_exists'.mp h.admin
  exact .of_ok (okOr_eq_ok.mpr hadmin)

theorem getToken_quiet (h : Furnished s) : Quiet (getToken s) := by
  obtain ⟨token, htoken⟩ := Option.ne_none_iff_exists'.mp h.token
  exact .of_ok (okOr_eq_ok.mpr htoken)

theorem getCampaignToken_quiet (h : Furnished s) : Quiet (getCampaignToken s c) := by
  unfold getCampaignToken
  split
  next => exact .of_ok rfl
  next => exact getToken_quiet h

theorem transfer_quiet {recipient : Address} : Quiet (transfer s token who recipient amount) := by
  unfold transfer
  split
  next =>
      intro e he
      cases he
      exact id
  next => exact .of_ok rfl

theorem payment_quiet {recipient : Address} (h : Furnished s) : Quiet
    (getCampaignToken s c >>= fun token => transfer s token who recipient amount) :=
  .bind (getCampaignToken_quiet h) fun _ _ => transfer_quiet

theorem assertAdmin_quiet (h : Furnished s) : Quiet (assertAdmin env s who) :=
  .bind (getAdmin_quiet h) fun _ _ => .check id requireAuth_quiet

theorem getCreatorCampaign_quiet : Quiet (getCreatorCampaign env s c) :=
  .found id fun _ _ => .bind requireAuth_quiet fun _ _ => .of_ok rfl

end Steps

/-! ## Creation and transfer -/

/-- Every count of campaigns is at most the count of all campaigns. -/
structure Tallies (s : State) : Prop where
  category : ∀ category, s.campaigns.categoryCampaignCount category ≤ s.campaigns.campaignCount
  creator : ∀ who, s.campaigns.creatorCampaignCount who ≤ s.campaigns.campaignCount
  active : s.campaigns.activeCampaignCount ≤ s.campaigns.campaignCount

theorem checkCreateParams_quiet {params : CreateCampaignParams} :
    Quiet (checkCreateParams env s params) := by
  refine .check id <| .check id <| .check id <| .check id <| .checked id fun htitle => ?_
  have hfits : ¬ params.title.length > campaignTitleMaxLen := fun hlong => htitle (.inr hlong)
  refine .pass (a := env.host.sha256 params.title) ?_ ?_
  · rw [hashText, rejectIf, if_neg hfits]
    rfl
  · exact .check id <| .check id <| .check id <| .check id <| .check id <| .check id <| .of_ok rfl

theorem pinnedToken_quiet {pin : Option Address} (h : Furnished s) :
    Quiet (pinnedToken s pin) := by
  cases pin with
  | none => exact .of_ok rfl
  | some token => exact .bind (getToken_quiet h) fun _ _ => .check id (.of_ok rfl)

theorem calculateDeadline_quiet {now days : Nat} : Quiet (calculateDeadline now days) :=
  .found id fun _ _ => .okOr id

theorem appendToCategory_quiet {category : Category}
    (hroom : (board s).categoryCount category + 1 < 2 ^ 32) :
    Quiet (appendToCategory s category c) := Quiet.count hroom (.of_ok rfl)

theorem appendToCreator_quiet (hroom : (view s).creators.count who + 1 < 2 ^ 32) :
    Quiet (appendToCreator s who c) := Quiet.count hroom (.of_ok rfl)

theorem createCampaignInner_quiet {params : CreateCampaignParams} {pin : Option Address}
    (furnished : Furnished s) (tallies : Tallies s) :
    Quiet (createCampaignInner env s params pin) := by
  refine .bind requireAuth_quiet fun _ _ => .bind requireNotPaused_quiet fun _ _ =>
    .check id <| .bind checkCreateParams_quiet fun _ _ =>
    .bind (pinnedToken_quiet furnished) fun pinned _ => .found id fun count hcount =>
    .bind calculateDeadline_quiet fun deadline _ => ?_
  have hroom := (Word.checkedAdd_eq_some.mp hcount).2
  refine .bind (appendToCategory_quiet ?_) fun s1 hs1 =>
    .bind (appendToCreator_quiet ?_) fun _ _ => .of_ok rfl
  · rw [board_setRevenuePool, board_setCampaignCount, board_setCampaignStartTime,
      board_setCampaign, board_setCampaignToken, board_setCampaignVesting]
    exact Nat.lt_of_le_of_lt (Nat.succ_le_succ (tallies.category _)) hroom
  · have hcount : (view s1).creators.count = (view s).creators.count := by
      rw [appendToCategory_view hs1]
      simp
    rw [hcount]
    exact Nat.lt_of_le_of_lt (Nat.succ_le_succ (tallies.creator _)) hroom

/-- The counter of the active campaigns is raised last. -/
theorem createCampaignInner_active {params : CreateCampaignParams} {pin : Option Address}
    {created : Nat × State} (h : createCampaignInner env s params pin = .ok created) :
    s.campaigns.campaignCount + 1 < 2 ^ 32 ∧
      (view created.2).activeCount = (view s).activeCount := by
  simp only [createCampaignInner, bind_eq_ok, okOr_eq_ok, Word.checkedAdd_eq_some, pure_eq_ok] at h
  obtain ⟨_, -, _, -, _, -, _, -, _, -, _, ⟨rfl, hroom⟩, _, -, s1, hs1, s2, hs2, rfl⟩ := h
  refine ⟨hroom, ?_⟩
  simp [appendToCreator_view hs2, appendToCategory_view hs1]

theorem createCampaignEntry_quiet {params : CreateCampaignParams} {pin : Option Address}
    (furnished : Furnished s) (tallies : Tallies s) :
    Quiet (createCampaignEntry env s params pin) := by
  refine .bind (createCampaignInner_quiet furnished tallies) fun created hcreated => ?_
  obtain ⟨hroom, hactive⟩ := createCampaignInner_active hcreated
  have hsame : created.2.campaigns.activeCampaignCount = s.campaigns.activeCampaignCount := hactive
  have hle := tallies.active
  refine .bind (Quiet.count ?_ (.of_ok rfl)) fun _ _ => .of_ok rfl
  omega

theorem removeFromCreator_quiet : Quiet (removeFromCreator s who c) :=
  .found id fun _ _ => .check id <| .check id <| .found id fun _ _ => .of_ok rfl

/-- The heir of a campaign does not have all campaigns yet. -/
theorem acceptCampaignTransfer_quiet
    (hroom : ∀ campaign, s.campaigns.campaign c = some campaign → ∀ heir, heir ≠ campaign.creator →
      (view s).creators.count heir + 1 < 2 ^ 32) :
    Quiet (acceptCampaignTransfer env s c) := by
  refine .found id fun campaign hcampaign => .check id <| .bind requireNotPaused_quiet fun _ _ =>
    .found id fun heir _ => .bind requireAuth_quiet fun _ _ => .checked id fun hheir =>
    .bind removeFromCreator_quiet fun s1 hs1 => .bind (appendToCreator_quiet ?_) fun _ _ =>
    .of_ok rfl
  have hother : (view s1).creators.count heir = (view s).creators.count heir := by
    obtain ⟨bucketIdx, slotIdx, last, -, -, -, hview⟩ := removeFromCreator_view hs1
    rw [hview]
    simp [CreatorIndex.remove, hheir]
  rw [hother]
  exact hroom campaign hcampaign heir hheir

/-! ## Contributions -/

/-- What a row of contributions of one address needs: the counts of the ledgers are small,
and a campaign that gets a new contributor has room for one. -/
structure Receptive (who : Address) (s : State) (items : List (Nat × Int)) : Prop where
  furnished : Furnished s
  burst : ∀ c, ((board s).burst c).2 ≤ 10
  nonneg : ∀ c, 0 ≤ ((view s).funds c).lifetime who
  room : ∀ item ∈ items, ((view s).funds item.1).lifetime who = 0 →
    ((view s).funds item.1).contributors + 1 < 2 ^ 32

theorem checkContributionCaps_quiet {lifetime : Int} :
    Quiet (checkContributionCaps campaign lifetime amount) :=
  .branch (.found id fun _ _ => .reject id) (.of_ok rfl)

theorem checkPersonalCap_quiet {cap : Option Int} {current : Int} :
    Quiet (checkPersonalCap cap current amount) := by
  cases cap with
  | none => exact .of_ok rfl
  | some cap => exact .found id fun _ _ => .reject id

theorem checkBurstGuard_quiet (hburst : ((board s).burst c).2 ≤ 10) :
    Quiet (checkBurstGuard env s c campaign amount) := by
  refine .found id fun _ _ => .found id fun _ _ => .check id <| .found id fun _ _ =>
    .found id fun _ _ => .branch (.of_ok rfl) (.bind ?_ fun _ _ => .check id (.of_ok rfl))
  have hroom : ((board s).burst c).2 + 1 < 2 ^ 32 := by omega
  exact .branch (.of_ok (okOr_eq_ok.mpr (Word.checkedAdd_eq_some.mpr ⟨rfl, hroom⟩))) (.of_ok rfl)

theorem countContributor_quiet {lifetime : Int}
    (hroom : lifetime = 0 → ((view s).funds c).contributors + 1 < 2 ^ 32) :
    Quiet (countContributor s c lifetime) := by
  unfold countContributor
  split
  next hfirst => exact Quiet.count (hroom hfirst) (.of_ok rfl)
  next => exact .of_ok rfl

theorem updateContributionAccounting_quiet {current lifetime : Int} (furnished : Furnished s)
    (hroom : lifetime = 0 → ((view s).funds c).contributors + 1 < 2 ^ 32) :
    Quiet (updateContributionAccounting s c who campaign current lifetime amount) := by
  have hsnapshot : Quiet (snapshotFeeRecipient s c campaign) :=
    .branch (.bind (getAdmin_quiet furnished) fun _ _ => .of_ok rfl) (.of_ok rfl)
  refine .bind hsnapshot fun s1 hs1 => .found id fun _ _ => .found id fun _ _ =>
    .found id fun _ _ => .found id fun _ _ => .bind (countContributor_quiet fun hfirst => ?_)
      fun _ _ => .found id fun _ _ => .of_ok rfl
  rw [view_setLifetimeContribution, view_setContribution, view_setCampaign,
    snapshotFeeRecipient_view hs1]
  simpa using hroom hfirst

theorem acceptContribution_quiet {items : List (Nat × Int)}
    (h : Receptive who s ((c, amount) :: items)) :
    Quiet (acceptContribution env s c who amount) := by
  refine .check id <| .found id fun campaign _ => .check id <| .check id <| .check id <|
    .check id <| .bind (.reject id) fun _ _ => .bind checkContributionCaps_quiet fun _ _ =>
    .bind checkPersonalCap_quiet fun _ _ => .bind (checkBurstGuard_quiet (h.burst c)) fun s1 hs1 =>
    updateContributionAccounting_quiet (h.furnished.congr ?_) fun hfirst => ?_
  · exact congrArg View.admin (checkBurstGuard_view hs1)
  · rw [checkBurstGuard_view hs1]
    exact h.room (c, amount) List.mem_cons_self hfirst

theorem Receptive.step {items : List (Nat × Int)} (h : Receptive who s ((c, amount) :: items))
    (haccept : acceptContribution env s c who amount = .ok s') : Receptive who s' items := by
  obtain ⟨a, ha, -, hpos, hview⟩ := acceptContribution_spec haccept
  have hfunds := (View.account_eq_some.mp ha).2
  have hcounts := acceptContribution_counts haccept
  have hother : ∀ d, d ≠ c → (view s').funds d = (view s).funds d := fun d hd => by
    rw [hview]
    exact update_of_ne hd _ _
  have hself : ((view s').funds c).lifetime who = ((view s).funds c).lifetime who + amount := by
    rw [hview, hfunds]
    simp [View.setAccount, Account.contribute]
  have hbefore := h.nonneg c
  refine ⟨h.furnished.congr (by rw [hview]; rfl), fun d => ?_, fun d => ?_,
    fun item hitem hfirst => ?_⟩
  · by_cases hd : d = c
    · subst hd
      obtain ⟨record, hrecord, -⟩ := hcounts.bounded
      exact (hcounts.spends record hrecord).count_le (h.burst d)
    · rw [(hcounts.others d hd).2]
      exact h.burst d
  · by_cases hd : d = c
    · subst hd
      omega
    · rw [hother d hd]
      exact h.nonneg d
  · by_cases hd : item.1 = c
    · rw [hd] at hfirst
      omega
    · rw [hother item.1 hd] at hfirst ⊢
      exact h.room item (List.mem_cons_of_mem _ hitem) hfirst

theorem contribute_quiet (h : Receptive who s [(c, amount)]) :
    Quiet (contribute env s c who amount) := by
  refine .bind requireAuth_quiet fun _ _ => .bind requireNotPaused_quiet fun _ _ =>
    .bind (acceptContribution_quiet h) fun s1 hs1 => .found id fun total _ =>
    payment_quiet ((h.step hs1).furnished.congr ?_)
  exact congrArg View.admin updateTopContributor_view

theorem payOwed_quiet {debts : List (Address × Int)} : Quiet (each (payOwed who) s debts) :=
  .loop (fun _ _ => transfer_quiet) debts s

theorem batchContribute_quiet {items : List (Nat × Int)} (h : Receptive who s items) :
    Quiet (batchContribute env s who items) := by
  refine .bind requireAuth_quiet fun _ _ => .bind requireNotPaused_quiet fun _ _ => .check id <|
    .bind ?_ fun _ _ => payOwed_quiet
  refine .each (I := fun (progress : BatchProgress) rest => Receptive who progress.state rest)
    (fun progress item rest hreceptive => ?_) (fun progress item rest next hreceptive hnext => ?_)
    items ⟨s, [], 0⟩ h
  · refine .bind (acceptContribution_quiet hreceptive) fun s1 hs1 => .found id fun _ _ =>
      .bind (getCampaignToken_quiet (hreceptive.step hs1).furnished) fun _ _ =>
      .found id fun _ _ => .of_ok rfl
  · exact hreceptive.step (batchContributeItem_view hnext)

/-! ## Payouts -/

theorem claimRefund_quiet (furnished : Furnished s) : Quiet (claimRefund env s c who) := by
  refine .bind requireAuth_quiet fun _ _ => .bind requireNotPaused_quiet fun _ _ =>
    .found id fun campaign _ => .check id <| .check id <| .found id fun effective _ => ?_
  refine .bind (.branch (.of_ok rfl) (.found id fun _ _ => .of_ok rfl)) fun s1 hs1 =>
    payment_quiet (furnished.congr ?_)
  rw [deductRefund_view hs1]
  simp [removeContribution, removeRevenueClaimed]

theorem ceilShare_quiet {bps : Nat} : Quiet (ceilShare amount bps) :=
  .found id fun _ _ => .found id fun _ _ => .of_ok rfl

theorem withholdReserve_quiet {delayDays : Nat} (hdelay : delayDays * secondsPerDay < 2 ^ 64) :
    Quiet (withholdReserve env s c delayDays amount) :=
  .branch (.pass (okOr_eq_ok.mpr (Word.checkedMul_eq_some.mpr ⟨rfl, hdelay⟩))
    (.found id fun _ _ => .of_ok rfl)) (.of_ok rfl)

theorem feeRecipientOf_quiet (furnished : Furnished s) : Quiet (feeRecipientOf s c) := by
  unfold feeRecipientOf
  split
  next => exact .of_ok rfl
  next => exact getAdmin_quiet furnished

theorem withdrawFunds_quiet (furnished : Furnished s)
    (payout : ∀ a, (view s).account c = some a → (view s).Payout a) :
    Quiet (withdrawFunds env s c) := by
  refine .bind getCreatorCampaign_quiet fun campaign hcampaign => ?_
  have ha := getCreatorCampaign_spec hcampaign
  have payout := payout _ ha
  have hnonneg : 0 ≤ campaign.effectiveAmountRaised := payout.raised.1
  have hmax : campaign.effectiveAmountRaised ≤ I128.maxValue := payout.raised.2.2
  have hfeeBps : (view s).effectiveFee campaign ≤ platformFeeMaxBps := payout.feeBps
  obtain ⟨hfee, hnet⟩ := ceilBps_bounds hnonneg hfeeBps
  obtain ⟨hreserve, hrest⟩ := ceilBps_within hnet payout.reserveBps
  rw [@vestingOf_view s c campaign, effectiveFee_view]
  refine .bind requireNotPaused_quiet fun _ _ => .check id <| .check id <| .check id <|
    .check id <| .check id <| .check id <| .bind (.reject id) fun _ _ =>
    .bind ceilShare_quiet fun fee hshare => ?_
  obtain rfl := ceilShare_ok hshare
  refine Quiet.minus ⟨hnonneg, hmax⟩ ⟨hfee, by omega⟩ <|
    .bind (x := ceilShare _ ((view s).vesting ⟨campaign, (view s).funds c⟩).2) ceilShare_quiet
      fun reserve hshare => ?_
  obtain rfl := ceilShare_ok hshare
  refine Quiet.minus ⟨hnet, by omega⟩ ⟨hreserve, by omega⟩ <|
    .bind (withholdReserve_quiet payout.delay) fun s1 hs1 =>
    Quiet.minus ⟨hnonneg, hmax⟩ ⟨hreserve, by omega⟩ <| .found id fun total _ => ?_
  have hview := withholdReserve_view (a := (Account.mk campaign ((view s).funds c)).close)
    (by simp [Account.close]) hs1
  have furnished1 : Furnished (setTotalRaisedGlobal s1 total) := furnished.congr <| by
    rw [view_setTotalRaisedGlobal, hview]
    simp
  exact .bind (feeRecipientOf_quiet furnished1) fun _ _ =>
    .bind (getCampaignToken_quiet furnished1) fun _ _ => .bind transfer_quiet fun _ _ =>
    transfer_quiet

theorem withdrawReserve_quiet (furnished : Furnished s) : Quiet (withdrawReserve env s c) := by
  refine .found id fun reserve _ => .bind requireNotPaused_quiet fun _ _ => .check id <|
    .check id <| .found id fun campaign _ => .check id <| .bind requireAuth_quiet fun _ _ =>
    .found id fun total _ => payment_quiet (furnished.congr ?_)
  simp

/-! ## Milestones -/

theorem floorShare_quiet {bps : Nat} : Quiet (floorShare amount bps) :=
  .found id fun _ _ => .of_ok rfl

theorem addClaimed_quiet {claimed : Nat → Bool} {sums : Nat × Int} {milestone : Milestone} :
    Quiet (addClaimed claimed amount sums milestone) :=
  .branch (.found id fun _ _ => .bind floorShare_quiet fun _ _ => .found id fun _ _ => .of_ok rfl)
    (.of_ok rfl)

theorem addClaimedFee_quiet {claimed : Nat → Bool} {fee sum : Int} {milestone : Milestone} :
    Quiet (addClaimedFee claimed fee sum milestone) :=
  .branch (.bind floorShare_quiet fun _ _ => .okOr id) (.of_ok rfl)

theorem milestonePayout_quiet {milestones : List Milestone} {claimed : Nat → Bool}
    {milestone : Milestone} {fee net : Int} :
    Quiet (milestonePayout milestones claimed milestone fee net) := by
  refine .bind (.loop (fun _ _ => addClaimed_quiet) milestones _) fun sums _ =>
    .bind floorShare_quiet fun slice _ => .found id fun rest _ => .branch ?_ ?_
  · exact .found id fun _ _ => .bind floorShare_quiet fun _ _ =>
      .bind (.loop (fun _ _ => addClaimedFee_quiet) milestones _) fun _ _ =>
      .found id fun _ _ => .of_ok rfl
  · exact .bind floorShare_quiet fun _ _ => .of_ok rfl

theorem payMilestoneFee_quiet : Quiet (payMilestoneFee s token admin amount) :=
  .branch transfer_quiet (.of_ok rfl)

theorem claimMilestone_quiet {milestoneId : Nat} (furnished : Furnished s)
    (raised : ∀ a, (view s).account c = some a →
      0 ≤ a.record.amountRaised ∧ a.record.amountRaised ≤ I128.maxValue)
    (fee : ∀ a, (view s).account c = some a →
      (view s).effectiveFee a.record ≤ platformFeeMaxBps) :
    Quiet (claimMilestone env s c milestoneId) := by
  refine .found id fun campaign hfound => ?_
  have hcampaign : (view s).campaign c = some campaign := hfound
  have ha := View.account_of_campaign hcampaign
  have hraised : 0 ≤ campaign.amountRaised ∧ campaign.amountRaised ≤ I128.maxValue := raised _ ha
  obtain ⟨hfee, hnet⟩ := ceilBps_bounds hraised.1 (fee _ ha)
  refine .bind requireAuth_quiet fun _ _ => .bind requireNotPaused_quiet fun _ _ => .check id <|
    .check id <| .check id <| .check id <| .check id <| .check id <| .found id fun milestone _ =>
    .check id <| .check id <| .bind ceilShare_quiet fun feeTotal hshare => ?_
  obtain rfl := ceilShare_ok hshare
  refine Quiet.minus hraised ⟨hfee, ?_⟩ <| .bind milestonePayout_quiet fun payout _ =>
    .check id <| .found id fun toDeduct _ => .found id fun total _ => ?_
  · exact Int.le_trans (Int.le_of_sub_nonneg hnet) hraised.2
  · dsimp only
    generalize hs1 : closeWhenDone _ c campaign _ = s1
    have hclosed := closeWhenDone_view hs1 (by simpa using hcampaign)
    have furnished1 : Furnished s1 := furnished.congr (by rw [hclosed]; simp)
    exact .bind (getAdmin_quiet furnished1) fun _ _ =>
      .bind (getCampaignToken_quiet furnished1) fun _ _ => .bind payMilestoneFee_quiet fun _ _ =>
      transfer_quiet

/-! ## Revenue -/

/-- The amounts of the revenue that are subtracted from each other. -/
structure Account.Revenues (a : Account) (who : Address) : Prop where
  pool : 0 ≤ a.funds.pool ∧ a.funds.pool ≤ I128.maxValue
  due : 0 ≤ a.due a.funds.pool who ∧ a.due a.funds.pool who ≤ a.funds.pool
  claimed : 0 ≤ a.funds.revenueClaimed who ∧ a.funds.revenueClaimed who ≤ a.funds.pool
  distributed : 0 ≤ a.funds.distributed ∧ a.funds.distributed ≤ a.funds.pool
  side : 0 ≤ a.creatorSide a.funds.pool ∧ a.creatorSide a.funds.pool ≤ a.funds.pool
  creator : 0 ≤ a.funds.creatorClaimed ∧ a.funds.creatorClaimed ≤ a.funds.pool

theorem run_revenues (run : Run (machine host) tr cfg) (ha : (view cfg.state).account c = some a)
    (who : Address) : a.Revenues who := by
  have phase := run_phase run ha
  have books := (run_books run ha).1
  have revenue := run_revenueBooks run ha
  have claimers := run_claimers run ha
  have hpool := revenue.poolNonneg
  have hall := Account.claimed_le_pool phase books (run_share_le run ha) hpool revenue.finite
    (run_moderate run ha).overdrawn
  have hside : 0 ≤ a.creatorSide a.funds.pool :=
    Shares.floor_nonneg (d := 10000) (by decide) hpool phase.share_le
  have hother := Account.contributorSide_nonneg phase hpool
  have hdue : a.due a.funds.pool who ≤ a.funds.pool := by
    have htotal := Account.total_due_le phase books hpool
    have hone := le_total (books.due_finite a.funds.pool)
      (fun other => Account.due_nonneg books hpool other) who
    rw [Account.contributorSide] at htotal
    omega
  have hcreator := revenue.creator
  rw [Account.contributorSide] at hother
  rw [← revenue.distributed] at hall
  refine ⟨⟨hpool, ((run_bounded run).account c a ha).pool⟩,
    ⟨Account.due_nonneg books hpool who, hdue⟩, ⟨claimers.nonneg who, run_claimed_le run ha who⟩,
    ⟨?_, hall⟩, ⟨hside, by omega⟩, ⟨?_, by omega⟩⟩
  · rw [revenue.distributed]
    exact total_nonneg claimers.nonneg
  · exact (run_creatorPaid run ha).nonneg

theorem revenueDue_quiet {contribution pool effective : Int} {shareBps : Nat} :
    Quiet (revenueDue contribution pool shareBps effective) :=
  .found id fun _ _ => .found id fun _ _ => .found id fun _ _ => .okOr id

theorem creatorShareTotal_quiet {pool : Int} {shareBps : Nat} :
    Quiet (creatorShareTotal pool shareBps) := .found id fun _ _ => .okOr id

theorem withDust_quiet {claimable : Int} {last : Prop} [Decidable last]
    (revenues : a.Revenues who) : Quiet (withDust last a.funds.pool a.funds.distributed claimable
      a.record.revenueSharePercentage) := by
  obtain ⟨hside, hle⟩ := revenues.side
  obtain ⟨hdistributed, hbound⟩ := revenues.distributed
  have hmax := revenues.pool.2
  refine .branch (.bind creatorShareTotal_quiet fun share hshare => ?_) (.of_ok rfl)
  obtain rfl : share = a.creatorSide a.funds.pool := creatorShareTotal_ok hshare
  exact Quiet.minus revenues.pool ⟨hside, by omega⟩ <|
    Quiet.minus ⟨by omega, by omega⟩ ⟨hdistributed, by omega⟩ (.of_ok rfl)

theorem checkClaimants_quiet {already : Int} {claimants contributors : Nat} :
    Quiet (checkClaimants already claimants contributors) :=
  .branch (.found id fun _ _ => .of_ok rfl) (.of_ok rfl)

theorem countClaimant_quiet {already : Int} {claimants : Nat} :
    Quiet (countClaimant s c already claimants) :=
  .branch (.found id fun _ _ => .of_ok rfl) (.of_ok rfl)

theorem claimRevenue_quiet (furnished : Furnished s)
    (revenues : ∀ a, (view s).account c = some a → a.Revenues who) :
    Quiet (claimRevenue env s c who) := by
  refine .bind requireAuth_quiet fun _ _ => .bind requireNotPaused_quiet fun _ _ =>
    .found id fun campaign hcampaign => ?_
  have revenues := revenues _ (View.account_of_campaign (v := view s) hcampaign)
  have hmax := revenues.pool.2
  refine .check id <| .check id <| .check id <| .check id <| .check id <|
    .bind revenueDue_quiet fun due hdue => ?_
  obtain rfl : due = Account.due ⟨campaign, (view s).funds c⟩ ((view s).funds c).pool who :=
    revenueDue_ok hdue
  refine Quiet.minus ⟨revenues.due.1, Int.le_trans revenues.due.2 hmax⟩
    ⟨revenues.claimed.1, Int.le_trans revenues.claimed.2 hmax⟩ <| .check id <|
    .bind checkClaimants_quiet fun _ _ => .bind (withDust_quiet revenues) fun claimable _ =>
    .check id <| .found id fun _ _ => .found id fun _ _ => .bind countClaimant_quiet fun s1 hs1 =>
    payment_quiet (furnished.congr ?_)
  rw [countClaimant_view hs1]
  simp

theorem claimCreatorRevenue_quiet (furnished : Furnished s)
    (revenues : ∀ a, (view s).account c = some a → a.Revenues a.record.creator) :
    Quiet (claimCreatorRevenue env s c) := by
  refine .bind getCreatorCampaign_quiet fun campaign hcampaign => ?_
  have revenues := revenues _ (getCreatorCampaign_spec hcampaign)
  have hmax := revenues.pool.2
  refine .bind requireNotPaused_quiet fun _ _ => .check id <| .check id <|
    .bind creatorShareTotal_quiet fun share hshare => ?_
  obtain rfl : share = Account.creatorSide ⟨campaign, (view s).funds c⟩ ((view s).funds c).pool :=
    creatorShareTotal_ok hshare
  refine Quiet.minus ⟨revenues.side.1, Int.le_trans revenues.side.2 hmax⟩
    ⟨revenues.creator.1, Int.le_trans revenues.creator.2 hmax⟩ <| .check id <|
    .found id fun _ _ => payment_quiet (furnished.congr ?_)
  simp

/-! ## Verification and cancellation -/

theorem verifyCampaign_quiet (furnished : Furnished s) (counted : VerifiedCounted s) :
    Quiet (verifyCampaign env s c) := by
  refine .bind (getAdmin_quiet furnished) fun _ _ => .bind (assertAdmin_quiet furnished) fun _ _ =>
    .bind requireNotPaused_quiet fun _ _ => ?_
  rcases counted.adminVerify_caught c with ⟨s', hverify⟩ | ⟨e, hfails⟩
  · rw [hverify]
    exact .of_ok rfl
  · rw [hfails]
    intro abort habort
    cases habort
    exact id

/-- The state in the loop of a batch still counts the verified campaigns. -/
theorem verifyCampaigns_quiet {ids : List Nat} (furnished : Furnished s)
    (counted : VerifiedCounted s) : Quiet (verifyCampaigns env s ids) := by
  refine .bind (getAdmin_quiet furnished) fun _ _ => .bind (assertAdmin_quiet furnished) fun _ _ =>
    .bind requireNotPaused_quiet fun _ _ =>
    .each (I := fun (progress : VerifyProgress) _ => VerifiedCounted progress.state)
      (fun progress id rest hcounted => ?_) (fun progress id rest next hcounted hnext => ?_) _
      ⟨s, [], []⟩ counted
  all_goals rcases hcounted.adminVerify_caught id with ⟨s', hverify⟩ | ⟨e, hfails⟩
  · exact .of_ok (by rw [verifyOne, hverify])
  · exact .of_ok (by rw [verifyOne, hfails])
  · rw [verifyOne, hverify] at hnext
    cases hnext
    exact hcounted.verify hverify
  · rw [verifyOne, hfails] at hnext
    cases hnext
    exact hcounted

theorem verifyCampaignWithVotes_quiet (counted : VerifiedCounted s) :
    Quiet (verifyCampaignWithVotes s c) := by
  refine .bind requireNotPaused_quiet fun _ _ => .found id fun campaign hcampaign => .check id <|
    .checked id fun hunverified => .check id <| .found id fun _ _ => .check id <| .check id <|
    .bind (.reject id) fun _ _ => Quiet.count ?_ (.of_ok rfl)
  exact counted.room hcampaign (Bool.eq_false_of_not_eq_true hunverified)

theorem incrementCancelledCampaignCount_quiet (hroom : (board s).cancelledCount + 1 < 2 ^ 32) :
    Quiet (incrementCancelledCampaignCount s) := Quiet.count hroom (.of_ok rfl)

theorem recordCancellation_quiet (hroom : (board s).cancelledCount + 1 < 2 ^ 32) :
    Quiet (recordCancellation s c campaign) := by
  have hdeduct : Keeps board s (deductRaised s campaign) :=
    .branch (.check fun _ => .done rfl) (.done rfl)
  refine .bind (.branch (.found id fun _ _ => .of_ok rfl) (.of_ok rfl)) fun s1 hs1 =>
    incrementCancelledCampaignCount_quiet ?_
  rw [board_decrementActiveCampaignCount, board_removeVotingState, board_setCampaign,
    hdeduct s1 hs1]
  exact hroom

/-- A campaign that can be cancelled leaves room on the counter of the cancelled ones. -/
theorem adminCancelCampaign_quiet {reason : Text} (furnished : Furnished s)
    (room : ∀ campaign, s.campaigns.campaign c = some campaign → campaign.isCancelled = false →
      (board s).cancelledCount + 1 < 2 ^ 32) :
    Quiet (adminCancelCampaign env s admin c reason) := by
  refine .bind (assertAdmin_quiet furnished) fun _ _ => .bind requireNotPaused_quiet fun _ _ =>
    .found id fun campaign hcampaign => .bind (.reject id) fun _ hactive => .check id <|
    .check id <| .bind (.reject id) fun _ _ => recordCancellation_quiet (room campaign hcampaign ?_)
  exact (requireActiveCampaign_eq_ok.mp hactive).2

theorem cancelCampaign_quiet (furnished : Furnished s)
    (room : ∀ campaign, s.campaigns.campaign c = some campaign → campaign.isCancelled = false →
      (board s).cancelledCount + 1 < 2 ^ 32) :
    Quiet (cancelCampaign env s c) := by
  refine .bind getCreatorCampaign_quiet fun campaign hcampaign =>
    .bind requireNotPaused_quiet fun _ _ => .bind (.reject id) fun _ hactive => .check id <|
    .check id <| .bind (.reject id) fun _ _ => .bind (recordCancellation_quiet ?_) fun s1 hs1 => ?_
  · have hboard : board (if s.revenue.revenuePool c > 0 then setRevenuePool s c 0 else s) =
        board s := by
      split <;> rfl
    rw [hboard]
    exact room campaign ((View.account_eq_some.mp (getCreatorCampaign_spec hcampaign)).1)
      (requireActiveCampaign_eq_ok.mp hactive).2
  · have hpool : (view (if s.revenue.revenuePool c > 0 then setRevenuePool s c 0 else s)).admin =
        (view s).admin := by
      split <;> rfl
    refine .branch (payment_quiet (furnished.congr ?_)) (.of_ok rfl)
    rw [recordCancellation_view hs1, hpool]

/-! ## The other calls -/

theorem depositRevenue_quiet (furnished : Furnished s) : Quiet (depositRevenue env s c amount) := by
  refine .bind getCreatorCampaign_quiet fun campaign _ => .bind requireNotPaused_quiet fun _ _ =>
    .check id <| .check id <| .check id <| .check id <| .check id <| .found id fun pool _ =>
    payment_quiet (furnished.congr ?_)
  simp

theorem checkMilestone_quiet {progress : List Nat × Nat} {milestone : Milestone} :
    Quiet (checkMilestone progress milestone) :=
  .check id <| .check id <| .check id <| .found id fun _ _ => .of_ok rfl

theorem setMilestones_quiet {milestones : List Milestone} :
    Quiet (setMilestones env s c milestones) :=
  .found id fun _ _ => .bind requireAuth_quiet fun _ _ => .bind requireNotPaused_quiet fun _ _ =>
    .check id <| .check id <| .check id <|
    .bind (.loop (fun _ _ => checkMilestone_quiet) milestones _) fun _ _ => .check id (.of_ok rfl)

theorem markVerified_quiet {milestoneId : Nat} {milestones : List Milestone} :
    Quiet (markVerified milestoneId milestones) := by
  induction milestones with
  | nil => exact .of_ok rfl
  | cons milestone rest ih =>
      exact .branch (.check id <| .bind ih fun _ _ => .of_ok rfl) (.bind ih fun _ _ => .of_ok rfl)

theorem verifyMilestone_quiet {milestoneId : Nat} (furnished : Furnished s) :
    Quiet (verifyMilestone env s admin c milestoneId) :=
  .bind (assertAdmin_quiet furnished) fun _ _ => .bind requireNotPaused_quiet fun _ _ =>
    .found id fun _ _ => .check id <| .check id <| .bind markVerified_quiet fun _ _ =>
    .check id (.of_ok rfl)

theorem saveInBatch_quiet {saved : List Nat} : Quiet (saveInBatch s saved c) :=
  .found id fun _ _ => .check id (.of_ok rfl)

theorem batchSaveCampaigns_quiet {ids : List Nat} : Quiet (batchSaveCampaigns env s who ids) :=
  .bind requireAuth_quiet fun _ _ =>
    .bind (.loop (fun _ _ => saveInBatch_quiet) ids _) fun _ _ => .of_ok rfl

/-- The calls that only look entries up, compare them and write. -/
def Call.plain : Call → Bool
  | .init .. | .setTokenAllowed .. | .setVestingParams .. | .updateCampaign ..
  | .updateCampaignDescription .. | .extendCampaignDeadline .. | .initiateCampaignTransfer ..
  | .cancelCampaignTransfer _ | .voteOnCampaign .. | .resumeCampaign .. | .purgeVotingState ..
  | .pause | .unpause | .emergencyPause _ | .setEmergencyPauseSigners .. | .setCreationDisabled _
  | .updatePlatformFee _ | .setMaxContributionPerTx .. | .setCampaignFeeOverride ..
  | .setCategoryDurationCap .. | .removeCategoryDurationCap .. | .setMinCampaignFundingGoal ..
  | .setMaxCampaignFundingGoal .. | .setVotingParams .. | .setMinVotingBalance ..
  | .setCategoryVotingThreshold .. | .removeCategoryVotingThreshold .. | .proposeTokenUpdate ..
  | .acceptTokenUpdate _ | .cancelTokenUpdate _ | .setTokenUpdateDelaySecs ..
  | .initiateAdminTransfer .. | .acceptAdminTransfer | .cancelAdminTransfer _ | .updateAdmin _
  | .migrate .. | .setPersonalCap .. | .removePersonalCap .. | .saveCampaign ..
  | .removeSavedCampaign .. | .clearSavedCampaigns _ | .censureComment ..
  | .uncensureComment .. => true
  | _ => false

theorem plain_quiet (furnished : Furnished s) (hplain : call.plain = true) :
    Quiet (dispatch env s call) := by
  obtain ⟨admin, hadmin⟩ := Option.ne_none_iff_exists'.mp furnished.admin
  obtain ⟨token, htoken⟩ := Option.ne_none_iff_exists'.mp furnished.token
  refine avoids_iff.mpr ?_
  cases call with
  | init => simp [dispatch, init, requireAuth]
  | pause | unpause | setCreationDisabled | setTokenAllowed | updatePlatformFee | resumeCampaign
  | purgeVotingState | emergencyPause | setEmergencyPauseSigners =>
      simp [dispatch, pause, unpause, setCreationDisabledFn, setTokenAllowedFn, updatePlatformFee,
        checkFee, resumeCampaign, purgeVotingState, emergencyPause, setEmergencyPauseSigners,
        assertStoredAdmin, assertAdmin, getAdmin, requireAuth, getCampaignOrError,
        requireActiveCampaign, hadmin]
  | setMaxContributionPerTx | setCampaignFeeOverride | setCategoryDurationCap
  | removeCategoryDurationCap | setMinCampaignFundingGoal | setMaxCampaignFundingGoal
  | setVotingParams | setMinVotingBalance | setCategoryVotingThreshold
  | removeCategoryVotingThreshold | setVestingParams | migrate =>
      simp [dispatch, setMaxContributionPerTransaction, setCampaignFeeOverride,
        setCategoryDurationCap, removeCategoryDurationCap, setMinCampaignFundingGoalFn,
        setMaxCampaignFundingGoalFn, setVotingParams, setParams, setMinVotingBalanceFn,
        setCategoryVotingThreshold, removeCategoryVotingThreshold, setVestingParams, migrate,
        checkFee, assertAdmin, getAdmin, requireAuth, requireNotPaused, getCampaignOrError, hadmin]
  | proposeTokenUpdate | acceptTokenUpdate | cancelTokenUpdate | setTokenUpdateDelaySecs
  | initiateAdminTransfer | acceptAdminTransfer | cancelAdminTransfer | updateAdmin =>
      simp [dispatch, proposeTokenUpdate, acceptTokenUpdate, cancelTokenUpdate,
        setTokenUpdateDelaySecsFn, initiateAdminTransfer, acceptAdminTransfer,
        cancelAdminTransfer, updateAdmin, assertAdmin, getAdmin, getToken, requireAuth, hadmin,
        htoken]
  | updateCampaign | updateCampaignDescription | extendCampaignDeadline
  | initiateCampaignTransfer | cancelCampaignTransfer =>
      simp [dispatch, updateCampaign, updateCampaignDescription, extendCampaignDeadline,
        initiateCampaignTransfer, cancelCampaignTransfer, getCreatorCampaign, assertCreator,
        getCampaignOrError, requireActiveCampaign, requireNotPaused, requireUnverifiedCampaign,
        checkDescription, campaignStartTimeOrError, requireAuth]
  | voteOnCampaign | setPersonalCap | removePersonalCap =>
      simp [dispatch, voteOnCampaign, castVote, countVote, setPersonalCapFn, removePersonalCapFn,
        getCampaignOrError, requireActiveCampaign, requireNotPaused, requireUnverifiedCampaign,
        getToken, requireAuth, htoken]
  | saveCampaign | removeSavedCampaign | clearSavedCampaigns | censureComment | uncensureComment =>
      simp [dispatch, saveCampaign, removeSavedCampaign, clearSavedCampaigns, censureComment,
        uncensureComment, assertAdmin, getAdmin, getCampaignOrError, requireNotPaused,
        requireAuth, hadmin]
  | _ => cases hplain

/-! ## Along a run -/

theorem run_furnished (run : Run (machine host) tr cfg) : Furnished cfg.state := by
  obtain ⟨admin, hadmin⟩ := (run_sane run).administered
  have hstored : cfg.state.admin.admin = some admin := hadmin
  exact ⟨by simp [hstored], run_tokenKnown run⟩

/-- The campaigns of a creator are among all campaigns. -/
theorem run_creatorCount (run : Run (machine host) tr cfg) (who : Address) :
    (view cfg.state).creators.count who =
        {c | (view cfg.state).owner c = some who}.ncard ∧
      {c | (view cfg.state).owner c = some who} ⊆ (view cfg.state).ids := by
  have placed := run_placed run
  have hsame : {c | (view cfg.state).owner c = some who} =
      {c | (view cfg.state).creators.position who c ≠ none} :=
    Set.ext fun c => (placed.owned who c).symm
  refine ⟨?_, fun c hc => ?_⟩
  · rw [hsame, (placed.places who).ncard (placed.count who)]
  · obtain ⟨record, hrecord, -⟩ := Option.map_eq_some_iff.mp hc
    exact (run_sane run).mem_ids (View.account_of_campaign hrecord)

theorem run_tallies (run : Run (machine host) tr cfg) : Tallies cfg.state where
  category category := by
    rw [(run_filed run category).1, categoryIds]
    exact Nat.le_trans (List.length_filter_le ..) (by rw [List.length_range'])
  creator who := by
    obtain ⟨hcount, hsub⟩ := run_creatorCount run who
    have hle := Set.ncard_le_ncard hsub
    rw [Set.ncard_coe_finset, View.ids_card, ← hcount] at hle
    exact hle
  active := by
    have hle : (view cfg.state).census Campaign.isActive ≤ (view cfg.state).ids.card :=
      Finset.card_filter_le ..
    rw [View.ids_card, ← run_activeCensus run] at hle
    exact hle

/-- Whoever does not own a campaign has fewer than all. -/
theorem run_creatorCount_lt (run : Run (machine host) tr cfg)
    (hrecord : cfg.state.campaigns.campaign c = some campaign) (hother : who ≠ campaign.creator) :
    (view cfg.state).creators.count who + 1 < 2 ^ 32 := by
  obtain ⟨hcount, hsub⟩ := run_creatorCount run who
  have hmem : c ∈ (view cfg.state).ids :=
    (run_sane run).mem_ids (View.account_of_campaign (v := view cfg.state) hrecord)
  have howner : (view cfg.state).owner c = some campaign.creator :=
    View.owner_of_account (View.account_of_campaign (v := view cfg.state) hrecord)
  have hproper : {c | (view cfg.state).owner c = some who} ⊂ ((view cfg.state).ids : Set Nat) :=
    (Set.ssubset_iff_of_subset hsub).mpr ⟨c, hmem, fun howned =>
      hother (Option.some.inj (howned.symm.trans howner))⟩
  have hlt := Set.ncard_lt_ncard hproper
  rw [Set.ncard_coe_finset, View.ids_card, ← hcount] at hlt
  have hfew := run_count_lt run
  omega

theorem run_cancelRoom (run : Run (machine host) tr cfg)
    (hrecord : cfg.state.campaigns.campaign c = some campaign)
    (live : campaign.isCancelled = false) : (board cfg.state).cancelledCount + 1 < 2 ^ 32 := by
  have ha := View.account_of_campaign (v := view cfg.state) hrecord
  have hless : (view cfg.state).census Campaign.isCancelled < (view cfg.state).campaignCount :=
    (run_sane run).toRegistered.census_lt ha live
  have hfew := run_count_lt run
  rw [(run_counts run).2]
  omega

theorem run_receptive (run : Run (machine host) tr cfg) {items : List (Nat × Int)}
    (room : ∀ item ∈ items, cfg.state.contributions.contributorCount item.1 + 1 < 2 ^ 32) :
    Receptive who cfg.state items where
  furnished := run_furnished run
  burst c := (run_tracks run c).count_le
  nonneg c := by
    cases ha : (view cfg.state).account c with
    | none =>
        rw [(run_sane run).blank c ha]
        exact Int.le_refl 0
    | some a =>
        rw [(View.account_eq_some.mp ha).2]
        exact (run_books run ha).1.nonneg who
  room item hitem _ := room item hitem

/-! ## The law -/

theorem dispatch_quiet (run : Run (machine host) tr cfg)
    (room : ∀ item ∈ call.contributions,
      cfg.state.contributions.contributorCount item.1 + 1 < 2 ^ 32) :
    Quiet (dispatch env cfg.state call) := by
  have furnished := run_furnished run
  have tallies := run_tallies run
  have counted := run_verifiedCounted run
  cases call with
  | createCampaign | createCampaignWithToken =>
      exact .bind (createCampaignEntry_quiet furnished tallies) fun _ _ => .of_ok rfl
  | acceptCampaignTransfer c =>
      exact acceptCampaignTransfer_quiet fun campaign hrecord heir hheir =>
        run_creatorCount_lt run hrecord hheir
  | contribute c who amount => exact contribute_quiet (run_receptive run room)
  | batchContribute who items => exact batchContribute_quiet (run_receptive run room)
  | claimRefund => exact claimRefund_quiet furnished
  | withdrawFunds => exact withdrawFunds_quiet furnished fun _ ha => run_payout run ha
  | withdrawReserve => exact withdrawReserve_quiet furnished
  | setMilestones => exact setMilestones_quiet
  | verifyMilestone => exact verifyMilestone_quiet furnished
  | claimMilestone c =>
      refine claimMilestone_quiet furnished (fun a ha => ⟨(run_books run ha).1.raised_nonneg, ?_⟩)
        fun a ha => View.effectiveFee_le (run_sane run).toConfigured (run_phase run ha)
      exact Int.le_trans ((run_bounded run).account c a ha).raised (by decide)
  | cancelCampaign =>
      exact cancelCampaign_quiet furnished fun _ hrecord live => run_cancelRoom run hrecord live
  | adminCancelCampaign =>
      exact adminCancelCampaign_quiet furnished fun _ hrecord live =>
        run_cancelRoom run hrecord live
  | depositRevenue => exact depositRevenue_quiet furnished
  | claimRevenue => exact claimRevenue_quiet furnished fun _ ha => run_revenues run ha _
  | claimCreatorRevenue =>
      exact claimCreatorRevenue_quiet furnished fun _ ha => run_revenues run ha _
  | verifyCampaign => exact verifyCampaign_quiet furnished counted
  | verifyCampaigns =>
      exact .bind (verifyCampaigns_quiet furnished counted) fun _ _ => .of_ok rfl
  | verifyCampaignWithVotes => exact verifyCampaignWithVotes_quiet counted
  | batchSaveCampaigns => exact batchSaveCampaigns_quiet
  | _ => exact plain_quiet furnished rfl

/-- Whatever is called in whatever state of a run, a call that traps lacks a signature or is
refused by a token: no arithmetic overflows, no entry is missing and no text is too long.
Only a campaign with all the contributors it can count takes no new one. -/
theorem calls_never_panic (run : Run (machine host) tr cfg) (typed : call.WellTyped)
    (room : ∀ item ∈ call.contributions,
      cfg.state.contributions.contributorCount item.1 + 1 < 2 ^ 32) :
    ∀ trap, invoke env cfg.state call = .error (.trap trap) → trap = .auth ∨ trap = .token := by
  intro trap htrap
  rw [invoke_eq typed] at htrap
  -- clearing the list of transfers is a drift of the tokens
  have run' : Run (machine host) tr ⟨cfg.ledger, cfg.state.clearMoved⟩ :=
    run.drift ⟨cfg.state.clearMoved.tokens, fun _ => Int.le_refl _, rfl⟩
  have hquiet := dispatch_quiet run' room _ htrap
  cases trap with
  | auth => exact .inl rfl
  | token => exact .inr rfl
  | arithmetic | missingEntry | badArgument => exact absurd trivial hquiet

theorem calls_never_panic_sample : ∃ tr cfg, Run (machine Sample.host) tr cfg ∧
    invoke (Sample.env 1 Sample.bob) cfg.state (.contribute 1 Sample.alice 30000) =
      .error (.trap .auth) ∧
    ∀ trap, invoke (Sample.env 1 Sample.bob) cfg.state (.contribute 1 Sample.alice 30000) =
      .error (.trap trap) → trap = .auth ∨ trap = .token := by
  have h : Sample.Ends 300 (Sample.opened 0) fun _ cfg =>
      invoke (Sample.env 1 Sample.bob) cfg.state (.contribute 1 Sample.alice 30000) =
        .error (.trap .auth) ∧ cfg.state.contributions.contributorCount 1 = 0 := by
    decide +kernel
  obtain ⟨tr, cfg, run, hunsigned, hnobody⟩ := h.run
  refine ⟨tr, cfg, run, hunsigned, calls_never_panic run (by decide) ?_⟩
  refine List.forall_mem_singleton.mpr ?_
  rw [hnobody]
  decide

end ProofOfHeart
