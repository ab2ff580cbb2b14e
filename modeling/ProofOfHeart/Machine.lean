import ProofOfHeart.Contract
import ProofOfHeart.Lib.Trace

/-! # Runs of the contract

A run begins with the `init` call that the deployment makes before the contract
is used, on an empty store. Afterwards any caller may make any call in any
order, with ledger times and sequences that never decrease; a call that fails
leaves no trace. Between calls the other holders of a token may move it, mint it
to anyone or burn their own.
-/

namespace ProofOfHeart

open Checked Trace

/-- A successful call with the states around it. -/
structure Receipt where
  env : Env
  call : Call
  pre : State
  post : State

structure Config where
  ledger : Ledger
  state : State

def Ledger.le (earlier later : Ledger) : Prop :=
  earlier.timestamp ≤ later.timestamp ∧ earlier.sequence ≤ later.sequence

instance (earlier later : Ledger) : Decidable (earlier.le later) :=
  inferInstanceAs (Decidable (_ ∧ _))

/-- Nothing is stored; the tokens are whatever they are. -/
def emptyState (tokens : Tokens) : State where
  admin :=
    { admin := none, pendingAdmin := none, token := none, pendingToken := none,
      pendingTokenRelease := none, platformFee := none, version := 0, initialized := false,
      paused := false, autoPaused := false, creationDisabled := false,
      minCampaignFundingGoal := none, maxCampaignFundingGoal := none,
      withdrawReleaseDelayDays := 0, withdrawReservePercentage := 0,
      tokenUpdateDelaySecs := none, emergencyPauseSigners := [],
      allowedToken := fun _ => false, maxContributionPerTransaction := 0 }
  campaigns :=
    { campaignCount := 0, campaign := fun _ => none, campaignVesting := fun _ => none,
      campaignStartTime := fun _ => none, campaignReserve := fun _ => none,
      categoryCampaignsBucket := fun _ _ => [], categoryCampaignCount := fun _ => 0,
      categoryDurationCap := fun _ => none, creatorCampaignCount := fun _ => 0,
      creatorCampaignsBucket := fun _ _ => [], activeCampaignCount := 0,
      verifiedCampaignCount := 0, cancelledCampaignCount := 0,
      campaignCreatorIndex := fun _ => none, campaignMilestones := fun _ => [],
      milestoneClaimed := fun _ _ => false, commentCensured := fun _ _ => none,
      campaignCensuredCount := fun _ => 0, campaignToken := fun _ => none,
      creatorCampaignPosition := fun _ _ => none,
      creatorCampaignTitleIndex := fun _ _ => none, campaignFeeRecipient := fun _ => none }
  contributions :=
    { contribution := fun _ _ => 0, lifetimeContribution := fun _ _ => 0,
      personalCap := fun _ _ => none, contributorCount := fun _ => 0, totalRaised := 0,
      blockCampaignContributionCount := fun _ => (0, 0), topContributor := fun _ => none,
      lastContributionTime := fun _ => 0 }
  voting :=
    { approveVotes := fun _ => 0, rejectVotes := fun _ => 0, approveWeight := fun _ => 0,
      rejectWeight := fun _ => 0, hasVoted := fun _ _ => false, minVotesQuorum := none,
      approvalThresholdBps := none, minVotingBalance := 0,
      categoryThresholdBps := fun _ => none }
  revenue :=
    { revenuePool := fun _ => 0, revenueClaimed := fun _ _ => 0,
      creatorRevenueClaimed := fun _ => 0, contributorRevenueDistributed := fun _ => 0,
      contributorRevenueClaimants := fun _ => 0 }
  bookmarks := { savedCampaigns := fun _ => [] }
  tokens := tokens

/-- What other parties do to the balances never takes from the contract. -/
def TokenDrift (before after : Tokens) : Prop :=
  ∀ token, before.balance token contractAddress ≤ after.balance token contractAddress

def Receipt.Valid (host : Host) (r : Receipt) : Prop :=
  r.env.host = host ∧ invoke r.env r.pre r.call = .ok r.post

def machine (host : Host) : System Config Receipt where
  Start r cfg :=
    r.Valid host ∧ (∃ tokens, r.pre = emptyState tokens) ∧
      (∃ admin token platformFee, r.call = .init admin token platformFee) ∧
      cfg = ⟨r.env.ledger, r.post⟩
  Step cfg r cfg' :=
    r.Valid host ∧ cfg.ledger.le r.env.ledger ∧ r.pre = cfg.state ∧
      cfg' = ⟨r.env.ledger, r.post⟩
  Drift cfg cfg' :=
    ∃ tokens, TokenDrift cfg.state.tokens tokens ∧
      cfg' = ⟨cfg.ledger, { cfg.state with tokens := tokens }⟩

/-! ## Running a script -/

/-- What a caller chooses: who signs, when, and the call. -/
structure Request where
  ledger : Ledger
  signers : List Address
  call : Call

section Replay

variable (host : Host) (tokenContracts : List Address)

def Request.env (request : Request) : Env where
  host := host
  ledger := request.ledger
  auth := fun address => address ∈ request.signers
  isTokenContract := fun address => address ∈ tokenContracts

/-- Make the calls one after another; the receipts come newest first. -/
def replay : List Receipt → Config → List Request → Option (List Receipt × Config)
  | tr, cfg, [] => some (tr, cfg)
  | tr, cfg, request :: rest =>
      match invoke (request.env host tokenContracts) cfg.state request.call with
      | .ok post =>
          if cfg.ledger.le request.ledger then
            replay
              (⟨request.env host tokenContracts, request.call, cfg.state, post⟩ :: tr)
              ⟨request.ledger, post⟩ rest
          else none
      | .error _ => none

/-- Deploy with `init` and make the calls. -/
def deploy (tokens : Tokens) (ledger : Ledger) (admin token : Address) (platformFee : Nat)
    (script : List Request) : Option (List Receipt × Config) :=
  let request : Request := ⟨ledger, [admin], .init admin token platformFee⟩
  match invoke (request.env host tokenContracts) (emptyState tokens) request.call with
  | .ok post =>
      replay host tokenContracts
        [⟨request.env host tokenContracts, request.call, emptyState tokens, post⟩]
        ⟨ledger, post⟩ script
  | .error _ => none

variable {host} {tokenContracts}

theorem replay_run {script : List Request} :
    ∀ {tr tr' : List Receipt} {cfg cfg' : Config}, Run (machine host) tr cfg →
      replay host tokenContracts tr cfg script = some (tr', cfg') →
      Run (machine host) tr' cfg' := by
  induction script with
  | nil =>
      intro tr tr' cfg cfg' run h
      simp only [replay, Option.some.injEq, Prod.mk.injEq] at h
      obtain ⟨rfl, rfl⟩ := h
      exact run
  | cons request rest ih =>
      intro tr tr' cfg cfg' run h
      unfold replay at h
      split at h
      next post hpost =>
          split at h
          next hle => exact ih (run.step ⟨⟨rfl, hpost⟩, hle, rfl, rfl⟩) h
          next => cases h
      next => cases h

/-- Further calls lead onward. -/
theorem replay_onward {script : List Request} {start : Config} :
    ∀ {tr tr' : List Receipt} {cfg cfg' : Config}, Onward (machine host) start tr cfg →
      replay host tokenContracts tr cfg script = some (tr', cfg') →
      Onward (machine host) start tr' cfg' := by
  induction script with
  | nil =>
      intro tr tr' cfg cfg' onward h
      simp only [replay, Option.some.injEq, Prod.mk.injEq] at h
      obtain ⟨rfl, rfl⟩ := h
      exact onward
  | cons request rest ih =>
      intro tr tr' cfg cfg' onward h
      unfold replay at h
      split at h
      next post hpost =>
          split at h
          next hle => exact ih (onward.step ⟨⟨rfl, hpost⟩, hle, rfl, rfl⟩) h
          next => cases h
      next => cases h

/-- A script that goes through is a run. -/
theorem deploy_run {tokens : Tokens} {ledger : Ledger} {admin token : Address}
    {platformFee : Nat} {script : List Request} {tr : List Receipt} {cfg : Config}
    (h : deploy host tokenContracts tokens ledger admin token platformFee script =
      some (tr, cfg)) : Run (machine host) tr cfg := by
  dsimp only [deploy] at h
  split at h
  next post hpost =>
      exact replay_run (.start ⟨⟨rfl, hpost⟩, ⟨tokens, rfl⟩, ⟨_, _, _, rfl⟩, rfl⟩) h
  next => cases h

end Replay

/-! ## A sample deployment -/

namespace Sample

def host : Host := ⟨fun text => text⟩

def admin : Address := ⟨1⟩

def token : Address := ⟨2⟩

def newToken : Address := ⟨3⟩

def creator : Address := ⟨4⟩

def heir : Address := ⟨5⟩

def alice : Address := ⟨6⟩

def bob : Address := ⟨7⟩

instance word_neZero : NeZero (2 ^ 32) := ⟨by decide⟩

/-- Time and sequence run together. -/
def ledger (time : Fin (2 ^ 32)) : Ledger :=
  ⟨time, time, Nat.lt_trans time.isLt (by decide), time.isLt⟩

/-- Everybody but the contract holds enough of every token. -/
def tokens : Tokens :=
  ⟨fun _ holder => if holder = contractAddress then 0 else 1000000000000, []⟩

/-- A campaign of ten days with the lowest goal. -/
def params (title : Text) (share : Nat) : CreateCampaignParams where
  creator := creator
  title := title
  description := [0]
  fundingGoal := 100000
  durationDays := 10
  category := .educationalStartup
  hasRevenueSharing := decide (0 < share)
  revenueSharePercentage := share
  maxContributionPerUser := 0

def ask (time : Fin (2 ^ 32)) (signer : Address) (call : Call) : Request :=
  ⟨ledger time, [signer], call⟩

/-- The context of a call that one address signs. -/
def env (time : Fin (2 ^ 32)) (signer : Address) : Env :=
  (ask time signer .pause).env host [token, newToken]

def run (platformFee : Nat) (script : List Request) : Option (List Receipt × Config) :=
  deploy host [token, newToken] tokens (ledger 0) admin token platformFee script

/-- A verified campaign, number one, with a share of the revenue. -/
def opened (share : Nat) : List Request :=
  [ask 0 creator (.createCampaign (params [0] share)), ask 0 admin (.verifyCampaign 1)]

/-- A campaign that misses its goal gives back one of two contributions. -/
def refunded : List Request :=
  opened 0 ++
    [ask 1 alice (.contribute 1 alice 30000), ask 1 bob (.contribute 1 bob 20000),
      ask 900000 alice (.claimRefund 1 alice)]

/-- Two milestones of one half each. -/
def halves : List Milestone :=
  [⟨0, [0], 5000, false⟩, ⟨1, [0], 5000, false⟩]

/-- The creator plans two halves, and the admin marks both. -/
def planned : List Request :=
  opened 0 ++ [ask 0 creator (.setMilestones 1 halves), ask 0 admin (.verifyMilestone admin 1 0),
    ask 0 admin (.verifyMilestone admin 1 1)]

/-- The script goes through, and `P` holds of its run. -/
def Ends (platformFee : Nat) (script : List Request) (P : List Receipt → Config → Prop) : Prop :=
  match run platformFee script with
  | some (tr, cfg) => P tr cfg
  | none => False

instance {platformFee : Nat} {script : List Request} {P : List Receipt → Config → Prop}
    [∀ tr cfg, Decidable (P tr cfg)] : Decidable (Ends platformFee script P) :=
  match h : run platformFee script with
  | some (tr, cfg) => decidable_of_iff (P tr cfg) (by rw [Ends, h])
  | none => .isFalse (by rw [Ends, h]; exact id)

theorem Ends.run {platformFee : Nat} {script : List Request} {P : List Receipt → Config → Prop}
    (h : Ends platformFee script P) :
    ∃ tr cfg, Run (machine host) tr cfg ∧ P tr cfg := by
  unfold Ends at h
  split at h
  next tr cfg hrun => exact ⟨tr, cfg, deploy_run hrun, h⟩
  next => cases h

end Sample

end ProofOfHeart
