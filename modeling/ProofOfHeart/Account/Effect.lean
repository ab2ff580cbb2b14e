import ProofOfHeart.Account.View

/-! # Accounts and what the entry points do to them

An account is the record of a campaign with its funds. Each effect below is what
one entry point writes to the account it works on, and each condition is what
that entry point checks of it.
-/

namespace ProofOfHeart

open Function

@[ext]
structure Account where
  record : Campaign
  funds : Funds

def View.account (v : View) (c : Nat) : Option Account :=
  (v.campaign c).map fun record => ⟨record, v.funds c⟩

def View.setAccount (v : View) (c : Nat) (a : Account) : View :=
  { v with campaign := update v.campaign c (some a.record), funds := update v.funds c a.funds }

section View

variable {v : View} {c other : Nat} {a : Account}

theorem View.account_eq_some :
    v.account c = some a ↔ v.campaign c = some a.record ∧ v.funds c = a.funds := by
  unfold View.account
  cases v.campaign c with
  | none => simp
  | some record => simp [Account.ext_iff]

theorem View.account_of_campaign {record : Campaign} (h : v.campaign c = some record) :
    v.account c = some ⟨record, v.funds c⟩ := View.account_eq_some.mpr ⟨h, rfl⟩

@[simp] theorem View.setAccount_account_self : (v.setAccount c a).account c = some a := by
  simp [View.setAccount, View.account]

@[simp] theorem View.setAccount_account_of_ne (h : other ≠ c) :
    (v.setAccount c a).account other = v.account other := by
  simp [View.setAccount, View.account, h]

theorem View.setAccount_account :
    (v.setAccount c a).account other = if other = c then some a else v.account other := by
  split
  next h => rw [h, View.setAccount_account_self]
  next h => rw [View.setAccount_account_of_ne h]

/-- Writing back the record alone. -/
theorem View.setAccount_record {record : Campaign} (h : v.funds c = a.funds) :
    v.setAccount c { a with record := record } =
      { v with campaign := update v.campaign c (some record) } := by
  simp [View.setAccount, ← h]

/-- Writing back the funds alone. -/
theorem View.setAccount_funds {funds : Funds} (h : v.campaign c = some a.record) :
    v.setAccount c { a with funds := funds } =
      { v with funds := update v.funds c funds } := by
  simp [View.setAccount, ← h]

end View

namespace Account

variable (a : Account)

/-! ## Contributions and refunds -/

/-- What every accepted contribution has checked at time `now`. -/
structure Accepts (now : Nat) (who : Address) : Prop where
  verified : a.record.isVerified = true
  active : a.record.isActive = true
  notCancelled : a.record.isCancelled = false
  notCreator : who ≠ a.record.creator
  inTime : now ≤ a.record.deadline

def contribute (admin : Option Address) (who : Address) (amount : Int) : Account where
  record := { a.record with
    amountRaised := a.record.amountRaised + amount
    effectiveAmountRaised := a.record.effectiveAmountRaised + amount }
  funds := { a.funds with
    contribution := update a.funds.contribution who (a.funds.contribution who + amount)
    lifetime := update a.funds.lifetime who (a.funds.lifetime who + amount)
    contributors := a.funds.contributors + (if a.funds.lifetime who = 0 then 1 else 0)
    feeRecipient := if a.record.amountRaised = 0 then admin else a.funds.feeRecipient }

/-- Cancelled, or failed for want of contributions. -/
def Refundable (now : Nat) : Prop :=
  a.record.isCancelled = true ∨
    (a.record.deadline < now ∧ a.record.amountRaised < a.record.fundingGoal)

def refund (who : Address) : Account where
  record := { a.record with
    effectiveAmountRaised := a.record.effectiveAmountRaised - a.funds.contribution who }
  funds := { a.funds with
    contribution := update a.funds.contribution who 0
    revenueClaimed := update a.funds.revenueClaimed who 0
    contributors := a.funds.contributors - 1 }

/-! ## Lifecycle -/

/-- Neither cancelled nor closed, as `require_active_campaign` demands. -/
structure Live : Prop where
  active : a.record.isActive = true
  notCancelled : a.record.isCancelled = false

/-- Neither verified, paid out nor cancelled. -/
structure Verifiable : Prop extends Live a where
  unpaid : a.record.fundsWithdrawn = false
  unverified : a.record.isVerified = false

def verify : Account := { a with record := { a.record with isVerified := true } }

def cancel : Account :=
  { a with record := { a.record with isCancelled := true, isActive := false } }

/-- The creator's own cancellation also gives the revenue pool back. -/
def cancelByCreator : Account :=
  { a.cancel with funds := { a.funds with pool := if a.funds.pool > 0 then 0 else a.funds.pool } }

/-- The funds are paid out and the campaign is closed. -/
def close : Account :=
  { a with record := { a.record with fundsWithdrawn := true, isActive := false } }

/-- What both payout flows check. -/
structure Payable : Prop where
  verified : a.record.isVerified = true
  notCancelled : a.record.isCancelled = false
  notWithdrawn : a.record.fundsWithdrawn = false
  raised : a.record.amountRaised ≠ 0
  goalMet : a.record.fundingGoal ≤ a.record.amountRaised

def withhold (now delayDays : Nat) (amount : Int) : Account :=
  { a with funds := { a.funds with
      reserve := if amount > 0 then
          some { amount := amount, releaseTimestamp := now + delayDays * secondsPerDay,
                 released := false }
        else a.funds.reserve } }

def releaseReserve (reserve : CampaignReserve) : Account :=
  { a with funds := { a.funds with reserve := some { reserve with released := true } } }

/-! ## Records -/

/-- A change of the record that moves no money. -/
inductive Edit (c now : Nat) (a : Account) : Call → Campaign → Prop
  | update {title description : Text} (live : a.Live) (unverified : a.record.isVerified = false)
      (unfunded : a.record.amountRaised ≤ 0) :
      Edit c now a (.updateCampaign c title description)
        { a.record with title := title, description := description }
  | describe {description : Text} (live : a.Live) :
      Edit c now a (.updateCampaignDescription c description)
        { a.record with description := description, isVerified := false }
  | extend {days deadline : Nat} (live : a.Live) (once : a.record.deadlineExtended = false)
      (inTime : now < a.record.deadline) (later : a.record.deadline ≤ deadline) :
      Edit c now a (.extendCampaignDeadline c days)
        { a.record with deadline := deadline, deadlineExtended := true }
  | nominate {heir : Address} (live : a.Live) (other : heir ≠ a.record.creator)
      (free : a.record.pendingCreator = none) :
      Edit c now a (.initiateCampaignTransfer c heir)
        { a.record with pendingCreator := some heir }
  | handOver {heir : Address} (live : a.Live) (pending : a.record.pendingCreator = some heir)
      (other : heir ≠ a.record.creator) :
      Edit c now a (.acceptCampaignTransfer c)
        { a.record with creator := heir, pendingCreator := none }
  | withdrawNomination :
      Edit c now a (.cancelCampaignTransfer c) { a.record with pendingCreator := none }
  | overrideFee {admin : Address} {feeBps : Nat} (bounded : feeBps ≤ platformFeeMaxBps) :
      Edit c now a (.setCampaignFeeOverride c admin feeBps)
        { a.record with feeOverride := some feeBps }
  | verify {call : Call} (verifiable : a.Verifiable)
      (hcall : call = .verifyCampaign c ∨ call = .verifyCampaignWithVotes c ∨
        ∃ ids, c ∈ ids ∧ call = .verifyCampaigns ids) :
      Edit c now a call a.verify.record

end Account

end ProofOfHeart
