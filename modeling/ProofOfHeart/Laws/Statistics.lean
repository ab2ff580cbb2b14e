import ProofOfHeart.Board.Posting
import ProofOfHeart.Laws.ContributionLedger
import ProofOfHeart.Lib.Leader
import ProofOfHeart.Queries

/-! # Statistics of a campaign

The leader and the last time are kept by `contribute` alone, and the average divides the
lifetime total by the present number of contributors. A batch and a refund therefore
describe the live contributions only under conditions.
-/

namespace ProofOfHeart

open Checked Function Trace Balances Leader

variable {host : Host} {tr : List Receipt} {cfg : Config} {c : Nat} {a a' : Account}
  {env : Env} {v : View} {act : Act} {moves : List Transfer} {delta : Int} {s s' : State}
  {call : Call} {r : Receipt} {who : Address} {amount : Int}

/-! ## What the statistics should say -/

/-- When a contribution to campaign `c` was last made, alone or in a batch. -/
def lastContributed (c : Nat) (tr : List Receipt) : Option Nat :=
  (tr.find? fun r => (r.call.act c).isContribution).map fun r => r.env.timestamp

/-- The statistics name a largest contributor, the time of the last contribution and the
average of the live contributions. -/
structure StatsDescribe (c : Nat) (tr : List Receipt) (s : State) : Prop where
  leader : ∃ top, (getCampaignStats s c).topContributor = some top ∧
    ∀ who, s.contributions.contribution c who ≤ s.contributions.contribution c top
  latest : lastContributed c tr = some (getCampaignStats s c).lastContributionTime
  average : (getCampaignStats s c).avgContribution =
    (∑ᶠ who, s.contributions.contribution c who) /
      ({who | 0 < s.contributions.contribution c who}.ncard : Int)

/-- A batch comes at the recorded time and does not pass the recorded leader; a refund is
not the leader's, unless nobody else is left, and together with the earlier refunds it
stays within the remainder of the average. -/
def Receipt.KeepsStats (c : Nat) (r : Receipt) : Prop :=
  match r.call with
  | .batchContribute who items => amountsTo c items = [] ∨
      (r.pre.contributions.lastContributionTime c = r.env.timestamp ∧
        ∃ top ∈ r.pre.contributions.topContributor c, top = who ∨
          r.pre.contributions.contribution c who + (amountsTo c items).sum ≤
            r.pre.contributions.contribution c top)
  | .claimRefund id who => id = c → r.pre.contributions.contributorCount c ≤ 1 ∨
      (r.pre.contributions.topContributor c ≠ some who ∧
        ∀ record ∈ r.pre.campaigns.campaign c,
          record.amountRaised -
              (record.effectiveAmountRaised - r.pre.contributions.contribution c who) ≤
            record.amountRaised % ((r.pre.contributions.contributorCount c : Int) - 1))
  | _ => True

instance (c : Nat) (r : Receipt) : Decidable (r.KeepsStats c) := by
  obtain ⟨env, call, pre, post⟩ := r
  apply @Call.casesOn (fun call => Decidable (Receipt.KeepsStats c ⟨env, call, pre, post⟩)) call
  all_goals
    intros
    dsimp only [Receipt.KeepsStats]
    infer_instance

/-! ## Calls and what they change -/

/-- A call contributes to the campaign, alone or in a batch, or refunds it, or neither. -/
theorem Call.act_shape (call : Call) (c : Nat) :
    (∃ who amount, call = .contribute c who amount) ∨
    (∃ who items, call = .batchContribute who items ∧ amountsTo c items ≠ []) ∨
    (∃ who, call = .claimRefund c who) ∨
    ((call.act c).isContribution = false ∧ (call.act c).isRefund = false) := by
  cases call with
  | contribute id who amount =>
      by_cases hid : c = id
      · exact .inl ⟨who, amount, by rw [hid]⟩
      · exact .inr (.inr (.inr (by simp [Call.act, hid, Act.isContribution, Act.isRefund])))
  | batchContribute who items =>
      by_cases hitems : amountsTo c items = []
      · exact .inr (.inr (.inr (by simp [Call.act, hitems, Act.isContribution, Act.isRefund])))
      · exact .inr (.inl ⟨who, items, rfl, hitems⟩)
  | claimRefund id who =>
      by_cases hid : c = id
      · exact .inr (.inr (.inl ⟨who, by rw [hid]⟩))
      · exact .inr (.inr (.inr (by simp [Call.act, hid, Act.isContribution, Act.isRefund])))
  | withdrawFunds id | withdrawReserve id | setMilestones id | claimMilestone id
  | cancelCampaign id | adminCancelCampaign _ id | extendCampaignDeadline id
  | depositRevenue id | claimRevenue id | claimCreatorRevenue id =>
      refine .inr (.inr (.inr ?_))
      by_cases hid : c = id
      all_goals simp [Call.act, hid, Act.isContribution, Act.isRefund]
  | _ => exact .inr (.inr (.inr ⟨rfl, rfl⟩))

theorem Receipt.keepsStats_of_quiet (hcontribution : (r.call.act c).isContribution = false)
    (hrefund : (r.call.act c).isRefund = false) : r.KeepsStats c := by
  unfold Receipt.KeepsStats
  split
  next who items hcall =>
      refine .inl ?_
      by_contra hitems
      rw [hcall, Call.act, if_neg hitems] at hcontribution
      cases hcontribution
  next id who hcall =>
      rintro rfl
      rw [hcall, Call.act, if_pos rfl] at hrefund
      cases hrefund
  next => trivial

/-- Only a single contribution touches the leader and the last time. -/
theorem Posting.statistics (h : Posting env s s' call) (c : Nat) :
    (∃ who amount, call = .contribute c who amount ∧
      s'.contributions.topContributor c = some (nextLeader (s.contributions.topContributor c)
        (s.contributions.contribution c) who (s.contributions.contribution c who + amount)) ∧
      s'.contributions.lastContributionTime c = env.timestamp) ∨
    ((∀ who amount, call ≠ .contribute c who amount) ∧
      s'.contributions.topContributor c = s.contributions.topContributor c ∧
      s'.contributions.lastContributionTime c = s.contributions.lastContributionTime c) := by
  have hleader : s'.contributions.topContributor c = (board s').leader c := rfl
  have htime : s'.contributions.lastContributionTime c = (board s').lastTime c := rfl
  rw [hleader, htime]
  cases h with
  | @contribute id who amount record hrecord h =>
      rw [h]
      by_cases hid : c = id
      · subst hid
        exact .inl ⟨who, amount, rfl, update_self .., update_self ..⟩
      · refine .inr ⟨?_, update_of_ne hid .., update_of_ne hid ..⟩
        rintro who' amount' heq
        cases heq
        exact hid rfl
  | create hcall _ h =>
      rw [h]
      refine .inr ⟨?_, rfl, rfl⟩
      rcases hcall with rfl | ⟨token, rfl⟩
      all_goals exact fun _ _ => Call.noConfusion
  | cancel hcall _ _ h =>
      rw [h]
      refine .inr ⟨?_, rfl, rfl⟩
      rcases hcall with rfl | ⟨admin, reason, rfl⟩
      all_goals exact fun _ _ => Call.noConfusion
  | describe _ h =>
      refine .inr ⟨fun _ _ => Call.noConfusion, ?_, ?_⟩
      all_goals
        rw [h]
        split <;> rfl
  | votingRules hcall h | entries hcall h | kept hcall h =>
      rw [h]
      refine .inr ⟨?_, rfl, rfl⟩
      rintro who amount rfl
      cases hcall
  | handOver _ _ h | batch h | refund h | verify h | certify _ _ _ h | verifyBatch h
  | vote _ _ _ _ _ h | purge _ _ h =>
      rw [h]
      exact .inr ⟨fun _ _ => Call.noConfusion, rfl, rfl⟩

theorem lastContributed_cons_of_contribution (h : (r.call.act c).isContribution = true) :
    lastContributed c (r :: tr) = some r.env.timestamp := by
  simp [lastContributed, h]

theorem lastContributed_cons_of_not (h : (r.call.act c).isContribution = false) :
    lastContributed c (r :: tr) = lastContributed c tr := by
  simp [lastContributed, h]

/-- Only contributions and refunds change the entries that the statistics are about. -/
theorem AccountStep.quiet (h : AccountStep env v c act moves delta a a')
    (hcontribution : act.isContribution = false) (hrefund : act.isRefund = false) :
    a'.funds.contribution = a.funds.contribution ∧
    a'.funds.contributors = a.funds.contributors ∧
    a'.record.amountRaised = a.record.amountRaised ∧
    a'.record.effectiveAmountRaised = a.record.effectiveAmountRaised := by
  cases h with
  | contributed => cases hcontribution
  | refunded => cases hrefund
  | claimed =>
      refine ⟨rfl, rfl, ?_, ?_⟩
      all_goals rw [Account.claimMilestone_record]
  | _ => exact ⟨rfl, rfl, rfl, rfl⟩

theorem Account.contributeAll_contribution {admin : Option Address} {amounts : List Int} :
    (a.contributeAll admin who amounts).funds.contribution =
      update a.funds.contribution who (a.funds.contribution who + amounts.sum) := by
  induction amounts generalizing a with
  | nil => simp [Account.contributeAll]
  | cons amount rest ih =>
      have hrest : (a.contributeAll admin who (amount :: rest)).funds.contribution =
          ((a.contribute admin who amount).contributeAll admin who rest).funds.contribution := rfl
      rw [hrest, ih]
      simp [Account.contribute, Int.add_assoc]

/-! ## The statistics of an account -/

/-- The account against the leader, the recorded time and the time of its last
contribution. -/
structure Account.Described (a : Account) (leader : Option Address) (time : Nat)
    (last : Option Nat) : Prop where
  leader : ∃ top ∈ leader, Leads a.funds.contribution top
  latest : last = some time
  average : a.record.amountRaised / (a.funds.contributors : Int) =
    a.record.effectiveAmountRaised / (a.funds.contributors : Int)

theorem View.contribution_of_account (ha : (view s).account c = some a) :
    s.contributions.contribution c = a.funds.contribution :=
  congrArg Funds.contribution (View.account_eq_some.mp ha).2

theorem statsDescribe_iff (ha : (view s).account c = some a) (books : a.Books) :
    StatsDescribe c tr s ↔ a.Described (s.contributions.topContributor c)
      (s.contributions.lastContributionTime c) (lastContributed c tr) := by
  obtain ⟨hrecord, hfunds⟩ := View.account_eq_some.mp ha
  have hcontribution := View.contribution_of_account ha
  have hcount : s.contributions.contributorCount c = a.funds.contributors :=
    congrArg Funds.contributors hfunds
  have hraised : 0 ≤ a.record.amountRaised := le_trans books.effective_nonneg books.effective_le
  have haverage : (getCampaignStats s c).avgContribution =
      a.record.amountRaised / (a.funds.contributors : Int) := by
    rw [← campaign_view] at hrecord
    simp only [getCampaignStats, hrecord, hcount, Option.map_some, Option.getD_some]
    split
    next => exact Int.tdiv_eq_ediv_of_nonneg hraised
    next hzero =>
        obtain hnone : a.funds.contributors = 0 := by omega
        rw [hnone, Int.natCast_zero, Int.ediv_zero]
  have hlive : (∑ᶠ who, a.funds.contribution who) /
      ({who | 0 < a.funds.contribution who}.ncard : Int) =
      a.record.effectiveAmountRaised / (a.funds.contributors : Int) := by
    rw [← books.live, books.count]
    rfl
  constructor
  · rintro ⟨leader, latest, average⟩
    rw [haverage, hcontribution, hlive] at average
    rw [hcontribution] at leader
    exact ⟨leader, latest, average⟩
  · rintro ⟨leader, latest, average⟩
    refine ⟨?_, latest, ?_⟩
    · rw [hcontribution]
      exact leader
    · rw [haverage, hcontribution, hlive]
      exact average

/-- When nobody is counted, nothing is live. -/
theorem Account.Books.zero_of_count (books : a.Books) (h : a.funds.contributors = 0)
    (who : Address) : a.funds.contribution who = 0 := by
  by_contra hne
  have hheld := books.contribution_nonneg who
  have hcount := books.count_pos (show 0 < a.funds.contribution who by omega)
  omega

/-- Statistics are asked for only while somebody's contribution is live. -/
def StatsRight (c : Nat) (tr : List Receipt) (s : State) : Prop :=
  (∃ who, s.contributions.contribution c who ≠ 0) → StatsDescribe c tr s

theorem statsRight_of_zero (h : ∀ who, s.contributions.contribution c who = 0) :
    StatsRight c tr s := fun ⟨who, hwho⟩ => absurd (h who) hwho

/-- A stored leader leads, and without one nobody has contributed. -/
theorem StatsRight.leads (right : StatsRight c tr s) (ha : (view s).account c = some a)
    (books : a.Books) : (∀ top ∈ s.contributions.topContributor c, Leads a.funds.contribution top) ∧
      (s.contributions.topContributor c = none → ∀ who, a.funds.contribution who = 0) := by
  have hcontribution := View.contribution_of_account ha
  unfold StatsRight at right
  rw [hcontribution] at right
  by_cases hsome : ∃ who, a.funds.contribution who ≠ 0
  · obtain ⟨top, htop, hleads⟩ := ((statsDescribe_iff ha books).mp (right hsome)).leader
    constructor
    · intro other hother
      rwa [Option.mem_unique hother htop]
    · intro hnone
      rw [hnone] at htop
      cases htop
  · have hzero : ∀ who, a.funds.contribution who = 0 := by simpa using hsome
    exact ⟨fun top _ => leads_of_zero hzero top, fun _ => hzero⟩

/-! ## One call -/

theorem nextLeader_leads {leader : Option Address} {held : Address → Int} {total : Int}
    (hleads : ∀ top ∈ leader, Leads held top) (hnone : leader = none → ∀ who, held who = 0)
    (hraise : held who ≤ total) (hpos : 0 ≤ total) :
    Leads (update held who total) (nextLeader leader held who total) := by
  unfold nextLeader
  split
  next top =>
      have htop := hleads top rfl
      split
      next hkept => exact htop.kept (Ne.symm hkept.1) hkept.2
      next hpassed =>
          refine htop.overtaken ?_
          by_cases hself : top = who
          · rwa [hself]
          · exact le_of_not_ge fun hle => hpassed ⟨hself, hle⟩
  next =>
      refine (leads_of_zero (hnone rfl) who).overtaken ?_
      rwa [hnone rfl who]

/-- Dividing by `n` hides a difference that the remainder covers. -/
theorem ediv_eq_ediv_iff {whole part n : Int} (hn : 0 < n) (hle : part ≤ whole) :
    whole / n = part / n ↔ whole - part ≤ whole % n := by
  have hwhole := Int.mul_ediv_add_emod whole n
  have hpart := Int.mul_ediv_add_emod part n
  constructor
  · intro heq
    have hrest := Int.emod_nonneg part (ne_of_gt hn)
    rw [← heq] at hpart
    omega
  · intro hcover
    refine le_antisymm ?_ (Int.ediv_le_ediv hn hle)
    rw [Int.le_ediv_iff_mul_le hn, Int.mul_comm]
    omega

section Changes

variable {admin leader : Option Address} {time now : Nat} {last : Option Nat}
  {amounts : List Int}

/-- What is raised and what is live agree until the first refund. -/
theorem Account.Books.average (books : a.Books) (whole : a.Whole) :
    a.record.amountRaised / (a.funds.contributors : Int) =
      a.record.effectiveAmountRaised / (a.funds.contributors : Int) := by
  rw [books.effective_eq whole]

/-- A single contribution leaves right statistics, whoever leads after it. -/
theorem Account.Books.described_contribute (books : a.Books) (whole : a.Whole)
    (pos : 0 < amount) (hleads : ∀ top ∈ leader, Leads a.funds.contribution top)
    (hnone : leader = none → ∀ who, a.funds.contribution who = 0) :
    (a.contribute admin who amount).Described (some (nextLeader leader a.funds.contribution who
      (a.funds.contribution who + amount))) now (some now) := by
  obtain ⟨books', whole'⟩ : (a.contribute admin who amount).Books ∧
      (a.contribute admin who amount).Whole := books.contribute whole pos
  have hheld := books.contribution_nonneg who
  refine ⟨⟨_, rfl, ?_⟩, rfl, books'.average whole'⟩
  exact nextLeader_leads hleads hnone (by omega) (by omega)

/-- A batch is measured against the stored leader and the stored time. -/
theorem Account.Books.described_batch_iff (books : a.Books) (whole : a.Whole)
    (pos : ∀ amount ∈ amounts, 0 < amount)
    (hleads : ∀ top ∈ leader, Leads a.funds.contribution top) :
    (a.contributeAll admin who amounts).Described leader time (some now) ↔
      time = now ∧ ∃ top ∈ leader, top = who ∨
        a.funds.contribution who + amounts.sum ≤ a.funds.contribution top := by
  obtain ⟨books', whole'⟩ : (a.contributeAll admin who amounts).Books ∧
      (a.contributeAll admin who amounts).Whole := books.contributeAll whole pos
  have hsum : 0 ≤ amounts.sum := List.sum_nonneg fun amount h => le_of_lt (pos amount h)
  have hraise : ∀ top ∈ leader, (Leads (a.contributeAll admin who amounts).funds.contribution top ↔
      top = who ∨ a.funds.contribution who + amounts.sum ≤ a.funds.contribution top) := by
    intro top htop
    rw [Account.contributeAll_contribution]
    exact (hleads top htop).raise_iff (by omega)
  constructor
  · rintro ⟨⟨top, htop, hleads'⟩, latest, -⟩
    exact ⟨(Option.some.inj latest).symm, top, htop, (hraise top htop).mp hleads'⟩
  · rintro ⟨rfl, top, htop, hor⟩
    exact ⟨⟨top, htop, (hraise top htop).mpr hor⟩, rfl, books'.average whole'⟩

/-- A refund that leaves somebody behind is measured against the stored leader and the
remainder of the average. -/
theorem Account.Described.refund_iff (h : a.Described leader time last) (books : a.Books)
    (pos : 0 < a.funds.contribution who) (hmany : 1 < a.funds.contributors) :
    (a.refund who).Described leader time last ↔ leader ≠ some who ∧
      a.record.amountRaised -
          (a.record.effectiveAmountRaised - a.funds.contribution who) ≤
        a.record.amountRaised % ((a.funds.contributors : Int) - 1) := by
  obtain ⟨⟨top, htop, hleads⟩, latest, -⟩ := h
  have books' : (a.refund who).Books := books.refund pos
  have hcount : ((a.refund who).funds.contributors : Int) = a.funds.contributors - 1 := by
    simp only [Account.refund]
    omega
  have hother : ∃ other, 0 < update a.funds.contribution who 0 other := by
    refine (Set.ncard_pos books'.contribution_finite.holders).mp ?_
    rw [← books'.count]
    omega
  have hleader : Leads (a.refund who).funds.contribution top ↔ leader ≠ some who := by
    rw [htop, Ne, Option.some.injEq]
    exact hleads.clear_iff hother (le_of_lt pos)
  have haverage : (a.refund who).record.amountRaised / ((a.refund who).funds.contributors : Int) =
      (a.refund who).record.effectiveAmountRaised / ((a.refund who).funds.contributors : Int) ↔
      a.record.amountRaised - (a.record.effectiveAmountRaised - a.funds.contribution who) ≤
        a.record.amountRaised % ((a.funds.contributors : Int) - 1) := by
    rw [hcount]
    exact ediv_eq_ediv_iff (by omega) books'.effective_le
  constructor
  · rintro ⟨⟨other, hother, hleads'⟩, -, average⟩
    rw [Option.mem_unique hother htop] at hleads'
    exact ⟨hleader.mp hleads', haverage.mp average⟩
  · rintro ⟨hne, hcover⟩
    exact ⟨⟨top, htop, hleader.mpr hne⟩, latest, haverage.mpr hcover⟩

end Changes

section Passages

variable (passage : Passage host c tr cfg r act moves delta a a')
  (after : (view r.post).account c = some a') (posting : Posting r.env r.pre r.post r.call)
  (books' : a'.Books) (right : StatsRight c tr r.pre)

include passage after posting books' right

theorem Passage.stats_contribute (hcall : r.call = .contribute c who amount) :
    StatsRight c (r :: tr) r.post := by
  have books := passage.books
  obtain ⟨hleads, hnone⟩ := right.leads passage.before books
  have hstep := passage.step
  have hlast : lastContributed c (r :: tr) = some r.env.timestamp :=
    lastContributed_cons_of_contribution (by rw [hcall, Call.act, if_pos rfl]; rfl)
  rw [← passage.hact, hcall, Call.act, if_pos rfl] at hstep
  intro _
  rw [statsDescribe_iff after books', hlast]
  cases hstep with
  | contributed nonempty pos accepts =>
      rcases posting.statistics c with ⟨who', amount', hcall', hleader, htime⟩ | ⟨hnot, -⟩
      · obtain ⟨-, rfl, rfl⟩ := Call.contribute.inj (hcall.symm.trans hcall')
        rw [hleader, htime, View.contribution_of_account passage.before]
        exact books.described_contribute (passage.whole_of_accepts accepts)
          (pos _ List.mem_cons_self) hleads hnone
      · exact absurd hcall (hnot who amount)

theorem Passage.stats_batch_iff {items : List (Nat × Int)}
    (hcall : r.call = .batchContribute who items) (hitems : amountsTo c items ≠ []) :
    StatsRight c (r :: tr) r.post ↔ r.KeepsStats c := by
  have books := passage.books
  obtain ⟨hleads, -⟩ := right.leads passage.before books
  have hstep := passage.step
  have hlast : lastContributed c (r :: tr) = some r.env.timestamp :=
    lastContributed_cons_of_contribution (by rw [hcall, Call.act, if_neg hitems]; rfl)
  rw [← passage.hact, hcall, Call.act, if_neg hitems] at hstep
  cases hstep with
  | contributed nonempty pos accepts =>
      have hheld := books.contribution_nonneg who
      have hsum : 0 < (amountsTo c items).sum := List.sum_pos _ pos nonempty
      have hsome : ∃ other, r.post.contributions.contribution c other ≠ 0 := by
        refine ⟨who, ?_⟩
        rw [View.contribution_of_account after, Account.contributeAll_contribution, update_self]
        omega
      rcases posting.statistics c with ⟨who', amount', hcall', -⟩ | ⟨-, hleader, htime⟩
      · rw [hcall] at hcall'
        cases hcall'
      · rw [StatsRight, forall_prop_of_true hsome, statsDescribe_iff after books', hlast, hleader,
          htime, books.described_batch_iff (passage.whole_of_accepts accepts) pos hleads]
        unfold Receipt.KeepsStats
        rw [hcall]
        dsimp only
        rw [or_iff_right hitems, View.contribution_of_account passage.before]

theorem Passage.stats_refund_iff (hcall : r.call = .claimRefund c who) :
    StatsRight c (r :: tr) r.post ↔ r.KeepsStats c := by
  have books := passage.books
  have hstep := passage.step
  have hlast : lastContributed c (r :: tr) = lastContributed c tr :=
    lastContributed_cons_of_not (by rw [hcall, Call.act, if_pos rfl]; rfl)
  rw [← passage.hact, hcall, Call.act, if_pos rfl] at hstep
  have hkeeps : r.KeepsStats c ↔ a.funds.contributors ≤ 1 ∨
      (r.pre.contributions.topContributor c ≠ some who ∧
        a.record.amountRaised - (a.record.effectiveAmountRaised - a.funds.contribution who) ≤
          a.record.amountRaised % ((a.funds.contributors : Int) - 1)) := by
    obtain ⟨hrecord, hfunds⟩ := View.account_eq_some.mp passage.before
    rw [← campaign_view] at hrecord
    have hcount : r.pre.contributions.contributorCount c = a.funds.contributors :=
      congrArg Funds.contributors hfunds
    unfold Receipt.KeepsStats
    rw [hcall]
    simp [hrecord, hcount, View.contribution_of_account passage.before]
  rw [hkeeps]
  cases hstep with
  | refunded refundable pos currency =>
      by_cases hmany : 1 < a.funds.contributors
      · rw [or_iff_right (by omega)]
        have hsome : ∃ other, r.pre.contributions.contribution c other ≠ 0 := by
          refine ⟨who, ?_⟩
          rw [View.contribution_of_account passage.before]
          exact ne_of_gt pos
        have hsome' : ∃ other, r.post.contributions.contribution c other ≠ 0 := by
          rw [View.contribution_of_account after]
          obtain ⟨other, hother⟩ := (Set.ncard_pos books'.contribution_finite.holders).mp (by
            rw [← books'.count]
            simp only [Account.refund]
            omega)
          exact ⟨other, ne_of_gt hother⟩
        have described := (statsDescribe_iff passage.before books).mp (right hsome)
        rcases posting.statistics c with ⟨who', amount', hcall', -⟩ | ⟨-, hleader, htime⟩
        · rw [hcall] at hcall'
          cases hcall'
        · rw [StatsRight, forall_prop_of_true hsome', statsDescribe_iff after books', hlast,
            hleader, htime, described.refund_iff books pos hmany]
      · refine iff_of_true (statsRight_of_zero fun other => ?_) (.inl (by omega))
        rw [View.contribution_of_account after]
        refine books'.zero_of_count ?_ other
        simp only [Account.refund]
        omega

theorem Passage.stats_quiet_iff (hcontribution : act.isContribution = false)
    (hrefund : act.isRefund = false) : StatsRight c (r :: tr) r.post ↔ r.KeepsStats c := by
  have books := passage.books
  obtain ⟨hentries, hcount, hraised, heffective⟩ := passage.step.quiet hcontribution hrefund
  have hact := passage.hact
  have hlast : lastContributed c (r :: tr) = lastContributed c tr :=
    lastContributed_cons_of_not (hact ▸ hcontribution)
  have hkeeps : r.KeepsStats c :=
    Receipt.keepsStats_of_quiet (hact ▸ hcontribution) (hact ▸ hrefund)
  refine iff_of_true (fun hsome => ?_) hkeeps
  rw [View.contribution_of_account after, hentries,
    ← View.contribution_of_account passage.before] at hsome
  obtain ⟨leader, latest, average⟩ := (statsDescribe_iff passage.before books).mp (right hsome)
  rw [statsDescribe_iff after books', hlast]
  rcases posting.statistics c with ⟨who', amount', hcall', -⟩ | ⟨-, hleader, htime⟩
  · rw [← hact, hcall', Call.act, if_pos rfl] at hcontribution
    cases hcontribution
  · rw [hleader, htime]
    refine ⟨?_, latest, ?_⟩
    · rwa [hentries]
    · rwa [hraised, heffective, hcount]

end Passages

/-! ## The law -/

theorem start_statsRight (hstart : (machine host).Start r cfg) :
    StatsRight c tr cfg.state := by
  refine statsRight_of_zero fun who => ?_
  rw [contribution_view, (start_fresh hstart).funds]
  rfl

/-- One call keeps the statistics right exactly when it meets the condition. -/
theorem Receipt.Valid.statsRight_iff (run : Run (machine host) tr cfg) (hvalid : r.Valid host)
    (htime : cfg.ledger.timestamp ≤ r.env.timestamp) (hpre : r.pre = cfg.state)
    (right : StatsRight c tr r.pre) : StatsRight c (r :: tr) r.post ↔ r.KeepsStats c := by
  have sane := run_sane run
  rw [← hpre] at sane
  have hstepped := hvalid.stepped sane
  have posting := hvalid.posting sane.toConfigured
  cases hc : (view r.pre).account c with
  | none =>
      obtain ⟨hact, hfree⟩ := hstepped.free c hc
      refine iff_of_true (statsRight_of_zero fun who => ?_)
        (Receipt.keepsStats_of_quiet (by rw [hact]; rfl) (by rw [hact]; rfl))
      rcases hfree with ⟨-, hfunds⟩ | ⟨-, a', ha', hborn⟩
      · rw [contribution_view, hfunds, sane.blank c hc]
        rfl
      · rw [View.contribution_of_account ha']
        cases hborn
        rfl
  | some a =>
      obtain ⟨delta, -, hexisting⟩ := hstepped.existing
      obtain ⟨a', after, hstep⟩ := hexisting c a hc
      have passage : Passage host c tr cfg r (r.call.act c) r.post.tokens.moved (delta c) a a' :=
        ⟨run, hpre, htime, hc, sane.toConfigured, rfl, rfl, hstep⟩
      have books' := passage.books_after
      rcases r.call.act_shape c with ⟨who, amount, hcall⟩ | ⟨who, items, hcall, hitems⟩ |
        ⟨who, hcall⟩ | ⟨hcontribution, hrefund⟩
      · refine iff_of_true (passage.stats_contribute after posting books' right hcall) ?_
        unfold Receipt.KeepsStats
        rw [hcall]
        trivial
      · exact passage.stats_batch_iff after posting books' right hcall hitems
      · exact passage.stats_refund_iff after posting books' right hcall
      · exact passage.stats_quiet_iff after posting books' right hcontribution hrefund

theorem run_statsRight (run : Run (machine host) tr cfg) (hkeeps : ∀ r ∈ tr, r.KeepsStats c) :
    StatsRight c tr cfg.state := by
  refine run.guarded (C := fun r => r.KeepsStats c)
    (I := fun tr cfg => StatsRight c tr cfg.state) ?_ ?_ ?_ hkeeps
  · intro r cfg hstart _
    exact start_statsRight hstart
  · rintro tr cfg r cfg' run - ih hkeeps ⟨hvalid, hledger, hpre, rfl⟩
    rw [← hpre] at ih
    exact (hvalid.statsRight_iff run hledger.1 hpre ih).mpr hkeeps
  · rintro tr cfg cfg' ih ⟨tokens, -, rfl⟩ hsome
    obtain ⟨leader, latest, average⟩ := ih hsome
    exact ⟨leader, latest, average⟩

/-- The statistics of a campaign are right in every state of a run exactly when each batch
to it and each refund from it meets the condition. -/
theorem stats_describe_iff (run : Run (machine host) tr cfg) (c : Nat) :
    (∀ later r earlier, tr = later ++ r :: earlier →
      (∃ who, r.post.contributions.contribution c who ≠ 0) →
        StatsDescribe c (r :: earlier) r.post) ↔ ∀ r ∈ tr, r.KeepsStats c := by
  refine run.exactly (C := fun r => r.KeepsStats c)
    (P := fun r earlier => StatsRight c (r :: earlier) r.post) ?_ ?_
  · rintro r cfg hstart
    obtain ⟨-, -, ⟨admin, token, platformFee, hcall⟩, hcfg⟩ := id hstart
    have hright : StatsRight c [r] cfg.state := start_statsRight hstart
    rw [hcfg] at hright
    refine iff_of_true hright (Receipt.keepsStats_of_quiet ?_ ?_)
    all_goals
      rw [hcall]
      rfl
  · rintro tr cfg r cfg' run hearlier ⟨hvalid, hledger, hpre, -⟩
    have right := run_statsRight run hearlier
    rw [← hpre] at right
    exact hvalid.statsRight_iff run hledger.1 hpre right

/-- A batch in the ledger of the leader's contribution, and the refund of the smallest one. -/
def Sample.small : List Request :=
  opened 0 ++
    [ask 1 alice (.contribute 1 alice 30000), ask 1 heir (.contribute 1 heir 1),
      ask 1 bob (.batchContribute bob [(1, 20000)]), ask 900000 heir (.claimRefund 1 heir)]

theorem statistics_sample : ∃ tr cfg, Run (machine Sample.host) tr cfg ∧
    cfg.state.contributions.contributorCount 1 = 2 ∧
    ∀ later r earlier, tr = later ++ r :: earlier →
      (∃ who, r.post.contributions.contribution 1 who ≠ 0) →
        StatsDescribe 1 (r :: earlier) r.post := by
  have h : Sample.Ends 300 Sample.small fun tr cfg =>
      (∀ r ∈ tr, r.KeepsStats 1) ∧ cfg.state.contributions.contributorCount 1 = 2 := by
    decide +kernel
  obtain ⟨tr, cfg, run, hkeeps, hcount⟩ := h.run
  exact ⟨tr, cfg, run, hcount, (stats_describe_iff run 1).mpr hkeeps⟩

/-- A batch is the first contribution to a campaign. -/
theorem statistics_miss : ∃ tr cfg, Run (machine Sample.host) tr cfg ∧
    cfg.state.contributions.contribution 1 Sample.alice = 30000 ∧
    ¬ StatsDescribe 1 tr cfg.state := by
  have h : Sample.Ends 300 (Sample.opened 0 ++
      [Sample.ask 1 Sample.alice (.batchContribute Sample.alice [(1, 30000)])]) fun _ cfg =>
      cfg.state.contributions.contribution 1 Sample.alice = 30000 ∧
        (getCampaignStats cfg.state 1).topContributor = none := by
    decide +kernel
  obtain ⟨tr, cfg, run, hheld, hnone⟩ := h.run
  refine ⟨tr, cfg, run, hheld, fun describe => ?_⟩
  obtain ⟨top, htop, -⟩ := describe.leader
  rw [hnone] at htop
  cases htop

end ProofOfHeart
