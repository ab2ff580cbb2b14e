import ProofOfHeart.Lib.Trace
import ProofOfHeart.Machine
import ProofOfHeart.Laws.FeeRecipient
import ProofOfHeart.Laws.TokenMigration
import ProofOfHeart.Laws.CreatorSlots
import ProofOfHeart.Laws.Custody
import ProofOfHeart.Laws.Exits
import ProofOfHeart.Laws.ActivePaging
import ProofOfHeart.Laws.CampaignStates
import ProofOfHeart.Laws.PlatformCounters
import ProofOfHeart.Laws.PlatformReport
import ProofOfHeart.Laws.Isolation
import ProofOfHeart.Laws.RefundOrder
import ProofOfHeart.Laws.WindDown
import ProofOfHeart.Laws.Authority
import ProofOfHeart.Laws.Founding
import ProofOfHeart.Laws.Governance
import ProofOfHeart.Laws.VoteTally
import ProofOfHeart.Laws.Verification
import ProofOfHeart.Laws.Outcome
import ProofOfHeart.Laws.Attestation
import ProofOfHeart.Laws.TitleIndex
import ProofOfHeart.Laws.Pause
import ProofOfHeart.Laws.Batch
import ProofOfHeart.Laws.Statistics
import ProofOfHeart.Laws.ContributionCaps
import ProofOfHeart.Laws.Burst
import ProofOfHeart.Laws.TokenTimelock
import ProofOfHeart.Laws.Configuration
import ProofOfHeart.Laws.Deadlines
import ProofOfHeart.Laws.WithdrawalSplit
import ProofOfHeart.Laws.MilestoneOrder
import ProofOfHeart.Laws.Portfolio
import ProofOfHeart.Laws.Sovereignty
import ProofOfHeart.Account.Failure
import ProofOfHeart.Laws.CreatorRevenue
import ProofOfHeart.Laws.RevenueClaims
import ProofOfHeart.Laws.PayoutFlows
import ProofOfHeart.Laws.Magnitudes
import ProofOfHeart.Laws.Overflow
import ProofOfHeart.Laws.Arithmetic
import ProofOfHeart.Laws.Dust
import ProofOfHeart.Laws.SelfFunding
import ProofOfHeart.Laws.RevenueSharing
import ProofOfHeart.Contributions
import ProofOfHeart.Queries
import ProofOfHeart.Voting
import ProofOfHeart.Admin
import ProofOfHeart.Bookmarks
import ProofOfHeart.Comments
import ProofOfHeart.Milestones
import ProofOfHeart.Revenue
import ProofOfHeart.Campaigns.Transfer
import ProofOfHeart.Campaigns.Cancel
import ProofOfHeart.Campaigns.Update
import ProofOfHeart.Campaigns.Withdraw
import ProofOfHeart.Tags
import ProofOfHeart.Laws.CreatorIndex
import ProofOfHeart.Laws.CreatorPaging
import ProofOfHeart.Laws.Listings
import ProofOfHeart.Laws.TagIndex
import ProofOfHeart.Laws.LiveBookmarks
import ProofOfHeart.Laws.Censures
import ProofOfHeart.Laws.MilestonePlans
import ProofOfHeart.Laws.ContributorRevenue
import ProofOfHeart.Laws.Panics
