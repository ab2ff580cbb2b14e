import ProofOfHeart.Lifecycle

/-! # Contributions, refunds and personal caps -/

namespace ProofOfHeart

open Checked

def checkContributionCaps (campaign : Campaign) (lifetime amount : Int) : Outcome Unit :=
  if campaign.maxContributionPerUser > 0 then do
    let total ← okOr (I128.checkedAdd lifetime amount) (.err .overflow)
    rejectIf (total > campaign.maxContributionPerUser) (.err .contributionCapExceeded)
  else pure ()

def checkTransactionContributionCap (s : State) (amount : Int) : Outcome Unit :=
  let cap := s.admin.maxContributionPerTransaction
  rejectIf (cap > 0 ∧ amount > cap) (.err .validationFailed)

def checkPersonalCap (cap : Option Int) (current amount : Int) : Outcome Unit :=
  match cap with
  | none => pure ()
  | some cap => do
      let total ← okOr (I128.checkedAdd current amount) (.err .overflow)
      rejectIf (total > cap) (.err .contributionCapExceeded)

/-- The contributions counted in the present ledger, this one included. -/
def nextBlockCount (env : Env) (last : Nat × Nat) : Outcome Nat :=
  if env.sequence = last.1 then okOr (Word.checkedAdd 32 last.2 1) (.trap .arithmetic)
  else pure 1

/-- Both rejecting branches also set `autoPaused`, which the failing call undoes. -/
def checkBurstGuard (env : Env) (s : State) (campaignId : Nat) (campaign : Campaign)
    (amount : Int) : Outcome State := do
  let amountBps ← okOr (I128.checkedMul amount bpsDenominator) (.err .overflow)
  let threshold ← okOr
    (I128.checkedMul campaign.fundingGoal autoPauseSingleContributionBpsThreshold)
    (.err .overflow)
  rejectIf (amountBps > threshold) (.err .contractPaused)
  let raisedBps ← okOr (I128.checkedMul campaign.amountRaised bpsDenominator) (.err .overflow)
  let burstCheckThreshold ← okOr
    (I128.checkedMul campaign.fundingGoal autoPauseBurstCheckMinRaisedBps) (.err .overflow)
  if raisedBps ≤ burstCheckThreshold then pure s
  else do
    let blockCount ← nextBlockCount env (s.contributions.blockCampaignContributionCount campaignId)
    rejectIf (blockCount > autoPauseBurstThreshold) (.err .contractPaused)
    pure (setCampaignBlockContributionCount s campaignId env.sequence blockCount)

def snapshotFeeRecipient (s : State) (campaignId : Nat) (campaign : Campaign) : Outcome State :=
  if campaign.amountRaised = 0 then do
    let admin ← getAdmin s
    pure (setCampaignFeeRecipient s campaignId admin)
  else pure s

def countContributor (s : State) (campaignId : Nat) (lifetime : Int) : Outcome State :=
  if lifetime = 0 then incrementContributorCount s campaignId else pure s

def updateContributionAccounting (s : State) (campaignId : Nat) (contributor : Address)
    (campaign : Campaign) (current lifetime amount : Int) : Outcome State := do
  let s ← snapshotFeeRecipient s campaignId campaign
  let raised ← okOr (I128.checkedAdd campaign.amountRaised amount) (.err .overflow)
  let effective ← okOr (I128.checkedAdd campaign.effectiveAmountRaised amount) (.err .overflow)
  let s := setCampaign s campaignId
    { campaign with amountRaised := raised, effectiveAmountRaised := effective }
  let newCurrent ← okOr (I128.checkedAdd current amount) (.err .overflow)
  let s := setContribution s campaignId contributor newCurrent
  let newLifetime ← okOr (I128.checkedAdd lifetime amount) (.err .overflow)
  let s := setLifetimeContribution s campaignId contributor newLifetime
  let s ← countContributor s campaignId lifetime
  let totalRaised ← okOr (I128.checkedAdd s.contributions.totalRaised amount) (.err .overflow)
  pure (setTotalRaisedGlobal s totalRaised)

/-- The checks and the accounting of one contribution, which `contribute` and
every item of `batch_contribute` make in the same order. -/
def acceptContribution (env : Env) (s : State) (campaignId : Nat) (contributor : Address)
    (amount : Int) : Outcome State := do
  rejectIf (amount ≤ 0) (.err .contributionMustBePositive)
  let campaign ← getCampaignOrError s campaignId
  rejectIf (¬ campaign.isVerified) (.err .campaignNotVerified)
  requireActiveCampaign campaign
  rejectIf (contributor = campaign.creator) (.err .notAuthorized)
  rejectIf (env.timestamp > campaign.deadline) (.err .deadlinePassed)
  let current := s.contributions.contribution campaignId contributor
  let lifetime := s.contributions.lifetimeContribution campaignId contributor
  checkTransactionContributionCap s amount
  checkContributionCaps campaign lifetime amount
  checkPersonalCap (s.contributions.personalCap campaignId contributor) current amount
  let s ← checkBurstGuard env s campaignId campaign amount
  updateContributionAccounting s campaignId contributor campaign current lifetime amount

/-- `contributor` takes the lead unless another leader holds at least as much. -/
def updateTopContributor (s : State) (campaignId : Nat) (contributor : Address)
    (newTotal : Int) : State :=
  match s.contributions.topContributor campaignId with
  | some top =>
      if top ≠ contributor ∧ newTotal ≤ s.contributions.contribution campaignId top then s
      else setTopContributor s campaignId contributor
  | none => setTopContributor s campaignId contributor

def contribute (env : Env) (s : State) (campaignId : Nat) (contributor : Address)
    (amount : Int) : Outcome State := do
  requireAuth env contributor
  requireNotPaused s
  let current := s.contributions.contribution campaignId contributor
  let s ← acceptContribution env s campaignId contributor amount
  let newTotal ← okOr (I128.checkedAdd current amount) (.err .overflow)
  let s := updateTopContributor s campaignId contributor newTotal
  let s := setLastContributionTime s campaignId env.timestamp
  let token ← getCampaignToken s campaignId
  transfer s token contributor contractAddress amount

/-! ## Batches -/

/-- The amount owed in each token, in the order of the token addresses. -/
abbrev Owed := List (Address × Int)

def Owed.get (owed : Owed) (token : Address) : Int := (owed.lookup token).getD 0

def Owed.set : Owed → Address → Int → Owed
  | [], token, amount => [(token, amount)]
  | (first, held) :: rest, token, amount =>
      if token = first then (token, amount) :: rest
      else if token.id < first.id then (token, amount) :: (first, held) :: rest
      else (first, held) :: Owed.set rest token amount

structure BatchProgress where
  state : State
  owed : Owed
  total : Int

def batchContributeItem (env : Env) (contributor : Address) (progress : BatchProgress)
    (item : Nat × Int) : Outcome BatchProgress := do
  let s ← acceptContribution env progress.state item.1 contributor item.2
  let total ← okOr (I128.checkedAdd progress.total item.2) (.err .overflow)
  let token ← getCampaignToken s item.1
  let running ← okOr (I128.checkedAdd (progress.owed.get token) item.2) (.err .overflow)
  pure ⟨s, progress.owed.set token running, total⟩

def payOwed (contributor : Address) (s : State) (debt : Address × Int) : Outcome State :=
  transfer s debt.1 contributor contractAddress debt.2

def batchContribute (env : Env) (s : State) (contributor : Address)
    (contributions : List (Nat × Int)) : Outcome State := do
  requireAuth env contributor
  requireNotPaused s
  rejectIf (contributions = [] ∨ contributions.length > maxBatchContributeSize)
    (.err .validationFailed)
  let progress ← each (batchContributeItem env contributor) ⟨s, [], 0⟩ contributions
  each (payOwed contributor) progress.state progress.owed

/-! ## Refunds -/

/-- The deadline has passed and the goal was missed. -/
def failedDueToGoal (env : Env) (campaign : Campaign) : Prop :=
  env.timestamp > campaign.deadline ∧ campaign.amountRaised < campaign.fundingGoal

instance (env : Env) (campaign : Campaign) : Decidable (failedDueToGoal env campaign) :=
  inferInstanceAs (Decidable (_ ∧ _))

/-- Cancelling already took the whole campaign off the global counter. -/
def deductRefund (s : State) (campaign : Campaign) (amount : Int) : Outcome State :=
  if campaign.isCancelled then pure s
  else do
    let totalRaised ← okOr (I128.checkedSub s.contributions.totalRaised amount) (.err .overflow)
    pure (setTotalRaisedGlobal s totalRaised)

def claimRefund (env : Env) (s : State) (campaignId : Nat) (contributor : Address) :
    Outcome State := do
  requireAuth env contributor
  requireNotPaused s
  let campaign ← getCampaignOrError s campaignId
  rejectIf (¬ (campaign.isCancelled ∨ failedDueToGoal env campaign)) (.err .validationFailed)
  let amount := s.contributions.contribution campaignId contributor
  rejectIf (amount = 0) (.err .noFundsToWithdraw)
  let s := removeContribution s campaignId contributor
  let s := removeRevenueClaimed s campaignId contributor
  let s := setPersonalCap s campaignId contributor none
  let s := decrementContributorCount s campaignId
  let effective ← okOr (I128.checkedSub campaign.effectiveAmountRaised amount) (.err .overflow)
  let campaign := { campaign with effectiveAmountRaised := effective }
  let s := setCampaign s campaignId campaign
  let s ← deductRefund s campaign amount
  let token ← getCampaignToken s campaignId
  transfer s token contractAddress contributor amount

/-! ## Personal caps -/

def setPersonalCapFn (env : Env) (s : State) (campaignId : Nat) (contributor : Address)
    (amount : Int) : Outcome State := do
  requireAuth env contributor
  rejectIf (amount < 0) (.err .validationFailed)
  rejectIf (amount < s.contributions.lifetimeContribution campaignId contributor)
    (.err .validationFailed)
  let campaign ← getCampaignOrError s campaignId
  requireActiveCampaign campaign
  rejectIf (campaign.maxContributionPerUser > 0 ∧ amount > campaign.maxContributionPerUser)
    (.err .validationFailed)
  pure (setPersonalCap s campaignId contributor (some amount))

def removePersonalCapFn (env : Env) (s : State) (campaignId : Nat) (contributor : Address) :
    Outcome State := do
  requireAuth env contributor
  let campaign ← getCampaignOrError s campaignId
  requireActiveCampaign campaign
  rejectIf (s.contributions.personalCap campaignId contributor = none) (.err .personalCapNotFound)
  pure (setPersonalCap s campaignId contributor none)

end ProofOfHeart
