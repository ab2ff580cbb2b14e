import ProofOfHeart.Laws.Portfolio
import ProofOfHeart.Laws.Statistics
import ProofOfHeart.Lib.Deposits

/-! # What a contributor gives and gets back

To its contributors a campaign is an account that holds what each of them has given. The
history of every campaign is a regular history of such an account, and the stored
contributions are its book, so that a refund is made once and for all that was given.
-/

namespace ProofOfHeart

open Checked Deposits Function Trace

variable {host : Host} {tr : List Receipt} {cfg : Config} {c : Nat} {a a' : Account}
  {r : Receipt} {env : Env} {v : View} {act : Act} {moves : List Transfer} {delta : Int}
  {who : Address}

/-! ## The account of the contributors -/

def Act.entry : Act → Entry Address
  | .contribute who amounts => .paidIn who amounts.sum
  | .refund who => .paidBack who
  | .withdraw | .claimMilestone _ => .paidOut
  | _ => .other

def Receipt.entry (c : Nat) (r : Receipt) : Entry Address := (r.call.act c).entry

theorem Act.isRefund_of_entry (h : act.entry = .paidBack who) : act.isRefund = true := by
  cases act with
  | refund => rfl
  | _ => cases h

theorem Receipt.entry_eq_paidBack : r.entry c = .paidBack who ↔ r.call = .claimRefund c who := by
  constructor
  · intro h
    by_contra hcall
    have hact := Call.act_of_not_refund hcall
    rw [Receipt.entry] at h
    generalize r.call.act c = act at h hact
    cases act with
    | refund party => exact hact (congrArg Act.refund (Entry.paidBack.inj h))
    | _ => cases h
  · intro h
    rw [Receipt.entry, h, Call.act, if_pos rfl]
    rfl

/-- All that the call does with tokens is to pay `who` from the contract. -/
def Receipt.Repays (r : Receipt) (c : Nat) (who : Address) (amount : Int) : Prop :=
  ∃ token, (view r.pre).currency c = some token ∧
    r.post.tokens.moved = [⟨token, contractAddress, who, amount⟩]

theorem Account.contributeAll_lifetime {admin : Option Address} {amounts : List Int} :
    (a.contributeAll admin who amounts).funds.lifetime =
      update a.funds.lifetime who (a.funds.lifetime who + amounts.sum) := by
  induction amounts generalizing a with
  | nil => simp [Account.contributeAll]
  | cons amount rest ih =>
      have hrest : (a.contributeAll admin who (amount :: rest)).funds.lifetime =
          ((a.contribute admin who amount).contributeAll admin who rest).funds.lifetime := rfl
      rw [hrest, ih]
      simp [Account.contribute, Int.add_assoc]

/-! ## The history of the account -/

/-- The stored contributions are the book of the history. -/
structure Deposited (c : Nat) (tr : List Receipt) (a : Account) : Prop where
  regular : Regular (Receipt.entry c) tr
  held : (bookAfter (Receipt.entry c) tr).held = a.funds.contribution
  given : ∀ who, given (Receipt.entry c) who tr = a.funds.lifetime who
  repaid : ∀ later r earlier, tr = later ++ r :: earlier → ∀ who, r.entry c = .paidBack who →
    r.Repays c who ((bookAfter (Receipt.entry c) earlier).held who)

/-- What an act does to the stored contributions is what its entry does to the book. -/
theorem AccountStep.enters (h : AccountStep env v c act moves delta a a') {book : Book Address}
    (hheld : book.held = a.funds.contribution) :
    (book.enter act.entry).held = a'.funds.contribution ∧
      ∀ who, act.entry.gives who + a.funds.lifetime who = a'.funds.lifetime who := by
  cases h with
  | @contributed _ moves party amounts =>
      rw [Account.contributeAll_contribution, Account.contributeAll_lifetime]
      refine ⟨by rw [Act.entry, Book.enter, hheld], fun who => ?_⟩
      by_cases hwho : party = who
      · subst hwho
        simp [Act.entry, Entry.gives]
        omega
      · simp [Act.entry, Entry.gives, hwho, update_of_ne (Ne.symm hwho)]
  | refunded =>
      refine ⟨?_, fun who => Int.zero_add _⟩
      rw [Act.entry, Book.enter, hheld]
      rfl
  | claimed =>
      unfold Account.claimMilestone
      split <;> exact ⟨hheld, fun who => Int.zero_add _⟩
  | _ => exact ⟨hheld, fun who => Int.zero_add _⟩

/-- An open book admits every act, and a closing one those that need no open campaign. -/
theorem AccountStep.admitted (h : AccountStep env v c act moves delta a a') {book : Book Address}
    (hheld : book.held = a.funds.contribution)
    (running : act.needsFunding = true → book.closing = false) : book.Admits act.entry := by
  cases h with
  | contributed nonempty pos =>
      exact .paidIn (running rfl) (List.sum_pos _ pos nonempty)
  | refunded refundable pos => exact .paidBack (hheld ▸ pos)
  | withdrew | claimed => exact .paidOut (running rfl)
  | _ => exact .other

theorem Passage.deposited (passage : Passage host c tr cfg r act moves delta a a')
    (ih : Deposited c tr a) : Deposited c (r :: tr) a' := by
  have hentry : r.entry c = act.entry := congrArg Act.entry passage.hact
  have running : act.needsFunding = true → (bookAfter (Receipt.entry c) tr).closing = false := by
    intro needs
    by_contra hclosing
    obtain ⟨x, hx, party, hback⟩ := closing_iff.mp (Bool.eq_true_of_not_eq_false hclosing)
    have hopen := run_refunded passage.run (passage.pre ▸ passage.before)
      ⟨x, hx, Act.isRefund_of_entry hback⟩
    exact passage.step.not_refundable passage.phase passage.time needs hopen
  obtain ⟨hheld, hgiven⟩ := passage.step.enters ih.held
  refine ⟨regular_cons.mpr ⟨?_, ih.regular⟩, ?_, fun who => ?_,
    forall_split_cons.mpr ⟨?_, ih.repaid⟩⟩
  · rw [hentry]
    exact passage.step.admitted ih.held running
  · rw [bookAfter_cons, hentry, hheld]
  · rw [given_cons, hentry, ih.given, hgiven]
  · intro who hback
    rw [hentry] at hback
    have hmoves := passage.hmoves
    have hstep := passage.step
    cases hstep with
    | @refunded _ party token refundable pos currency =>
        obtain rfl := Entry.paidBack.inj hback
        exact ⟨token, currency, by rw [hmoves, ih.held]⟩
    | _ => cases hback

theorem run_deposited (run : Run (machine host) tr cfg)
    (ha : (view cfg.state).account c = some a) : Deposited c tr a := by
  refine account_invariant (I := fun tr _ a => Deposited c tr a) ?_
    (fun passage ih => passage.deposited ih) run ha
  intro tr r a hacts hborn
  have hidle : ∀ x ∈ r :: tr, x.entry c = .other := fun x hx => congrArg Act.entry (hacts x hx)
  obtain ⟨hregular, hblank⟩ := bookAfter_idle hidle
  cases hborn with
  | born hcall =>
      refine ⟨hregular, congrArg Book.held hblank, fun who => ?_, ?_⟩
      · exact given_eq_zero fun x hx => by rw [hidle x hx]; rfl
      · rintro later x earlier heq who hback
        have hx : x ∈ r :: tr := heq ▸ List.mem_append_right _ List.mem_cons_self
        cases (hidle x hx).symm.trans hback

/-! ## The law -/

/-- The history of a campaign is that of an account which its contributors share, and the
stored contributions are the book of it. Each contributor is refunded at most once, and
then exactly what he has given to the campaign in all. -/
theorem contributors_repaid {campaign : Campaign} (run : Run (machine host) tr cfg)
    (hcampaign : cfg.state.campaigns.campaign c = some campaign) :
    (Regular (Receipt.entry c) tr ∧
      (bookAfter (Receipt.entry c) tr).held = cfg.state.contributions.contribution c) ∧
    (∀ who, cfg.state.contributions.lifetimeContribution c who =
      given (Receipt.entry c) who tr) ∧
    (∀ who, (∀ r ∈ tr, r.call ≠ .claimRefund c who) →
      cfg.state.contributions.contribution c who = given (Receipt.entry c) who tr) ∧
    ∀ later r earlier who, tr = later ++ r :: earlier → r.call = .claimRefund c who →
      r.Repays c who (given (Receipt.entry c) who tr) ∧
      cfg.state.contributions.contribution c who = 0 ∧
      ∀ x ∈ later ++ earlier, x.call ≠ .claimRefund c who := by
  have deposited := run_deposited run (View.account_of_campaign (v := view cfg.state) hcampaign)
  have hheld : (bookAfter (Receipt.entry c) tr).held = cfg.state.contributions.contribution c :=
    deposited.held
  refine ⟨⟨deposited.regular, hheld⟩, fun who => (deposited.given who).symm,
    fun who hnone => ?_, ?_⟩
  · rw [← hheld]
    exact held_of_not_paidBack fun x hx heq => hnone x hx (Receipt.entry_eq_paidBack.mp heq)
  · rintro later r earlier who rfl hcall
    have hback := (Receipt.entry_eq_paidBack (r := r)).mpr hcall
    obtain ⟨hgiven, honce⟩ := deposited.regular.paidBack_once hback
    refine ⟨?_, ?_, fun x hx heq => honce x hx (Receipt.entry_eq_paidBack.mpr heq)⟩
    · rw [← hgiven]
      exact deposited.repaid later r earlier rfl who hback
    · rw [← hheld]
      exact deposited.regular.held_of_paidBack
        ⟨r, List.mem_append_right _ List.mem_cons_self, hback⟩

/-- Two contributions, a batch of another contributor, and a refund after the deadline. -/
def Sample.repaid : List Request :=
  opened 0 ++ [ask 1 alice (.contribute 1 alice 30000),
    ask 1 bob (.batchContribute bob [(1, 10000), (1, 5000)]),
    ask 2 alice (.contribute 1 alice 4000), ask 900001 alice (.claimRefund 1 alice)]

theorem contributors_repaid_sample : ∃ tr cfg, Run (machine Sample.host) tr cfg ∧
    ∃ r earlier, tr = r :: earlier ∧ r.Repays 1 Sample.alice 34000 ∧
      cfg.state.contributions.contribution 1 Sample.alice = 0 ∧
      cfg.state.contributions.lifetimeContribution 1 Sample.bob = 15000 := by
  have h : Sample.Ends 0 Sample.repaid fun tr cfg =>
      (∃ _campaign ∈ cfg.state.campaigns.campaign 1, True) ∧
      (∃ r ∈ tr.head?, r.call = .claimRefund 1 Sample.alice) ∧
      given (Receipt.entry 1) Sample.alice tr = 34000 ∧
      given (Receipt.entry 1) Sample.bob tr = 15000 := by
    decide +kernel
  obtain ⟨tr, cfg, run, ⟨campaign, hcampaign, -⟩, ⟨r, hhead, hcall⟩, halice, hbob⟩ := h.run
  obtain ⟨earlier, rfl⟩ := List.head?_eq_some_iff.mp hhead
  obtain ⟨-, hlifetime, -, hrefunds⟩ := contributors_repaid run hcampaign
  obtain ⟨hrepays, hnothing, -⟩ := hrefunds [] r earlier Sample.alice rfl hcall
  rw [halice] at hrepays
  exact ⟨_, cfg, run, r, earlier, rfl, hrepays, hnothing, (hlifetime Sample.bob).trans hbob⟩

end ProofOfHeart
