import Parashield.Support.Transition
import Parashield.Support.Contract
import Parashield.Support.Check
import Parashield.Support.Ledger
import Parashield.Support.Proportion
import Parashield.Support.Yield
import Parashield.Host
import Parashield.Deployment
import Parashield.PolicyEngine.Types
import Parashield.PolicyEngine.Products
import Parashield.PolicyEngine.Policies
import Parashield.PolicyEngine.Book
import Parashield.PolicyEngine.Calls
import Parashield.PolicyEngine.Settlement
import Parashield.OracleVerifier.Types
import Parashield.OracleVerifier.Registry
import Parashield.OracleVerifier.Staking
import Parashield.OracleVerifier.Aggregation
import Parashield.OracleVerifier.Verification
import Parashield.OracleVerifier.Submission
import Parashield.OracleVerifier.Calls
import Parashield.OracleVerifier.Reweighting
import Parashield.OracleVerifier.Agreement
import Parashield.OracleVerifier.Asking
import Parashield.RiskPool.Types
import Parashield.RiskPool.Positions
import Parashield.RiskPool.Liquidity
import Parashield.RiskPool.Capital
import Parashield.RiskPool.Admin
import Parashield.RiskPool.Book
import Parashield.RiskPool.Changes
import Parashield.RiskPool.Calls
import Parashield.RiskPool.Soundness
import Parashield.RiskPool.Solvency
import Parashield.RiskPool.Funding
import Parashield.RiskPool.Backing
import Parashield.RiskPool.Earnings
import Parashield.RiskPool.Distribution
import Parashield.RiskPool.Premiums
import Parashield.RiskPool.Capacity
import Parashield.ClaimsProcessor.Filing
import Parashield.ClaimsProcessor.Processing
import Parashield.ClaimsProcessor.Resolution
import Parashield.ClaimsProcessor.Settings
import Parashield.ClaimsProcessor.Calls
import Parashield.ClaimsProcessor.Docket
import Parashield.ClaimsProcessor.Moves
import Parashield.PolicyEngine.Terms
import Parashield.Protocol.System
import Parashield.Protocol.Invariants
import Parashield.Protocol.Payments
import Parashield.Protocol.Payouts
import Parashield.Protocol.Approvals
import Parashield.Protocol.Sweeps
import Parashield.Protocol.Capital
import Parashield.Protocol.Paths
import Parashield.Protocol.Finality
import Parashield.PolicyEngine.Currency
import Parashield.OracleVerifier.Writes
import Parashield.OracleVerifier.Validity
import Parashield.OracleVerifier.Bounds
import Parashield.OracleVerifier.Overflow
import Parashield.Support.Handover
import Parashield.ClaimsProcessor.Office
import Parashield.Protocol.Rotation
import Parashield.RiskPool.Withdrawal
import Parashield.Protocol.Committee
import Parashield.RiskPool.Locking
import Parashield.RiskPool.Price
import Parashield.PolicyEngine.Catalogue
import Parashield.OracleVerifier.Register
import Parashield.OracleVerifier.Roster
import Parashield.OracleVerifier.Stakes
import Parashield.GovernanceDao.Proposals
import Parashield.GovernanceDao.Settling
import Parashield.GovernanceDao.Calls
import Parashield.GovernanceDao.Changes
import Parashield.GovernanceDao.Delegation
import Parashield.GovernanceDao.Expiry
import Parashield.GovernanceDao.Lifecycle
import Parashield.GovernanceDao.Duplicates
import Parashield.Upgrades.Calls
import Parashield.Upgrades.Requests
import Parashield.Upgrades.Contracts
import Parashield.Upgrades.Proposed
import Parashield.GovernanceDao.Custody
import Parashield.GovernanceDao.Refunds
import Parashield.GovernanceDao.Rules
import Parashield.Protocol.Queue
import Parashield.Protocol.DeadClaims
import Parashield.Protocol.Installments
import Parashield.Protocol.Identity
import Parashield.RiskPool.Exits
import Parashield.RiskPool.Queue
import Parashield.RiskPool.Delay
import Parashield.OracleVerifier.Reads
import Parashield.OracleVerifier.Plaintext
import Parashield.OracleVerifier.Leakage
import Parashield.OracleVerifier.Streams
import Parashield.OracleVerifier.Retention
import Parashield.RiskPool.Admission
import Parashield.GovernanceDao.Comments
import Parashield.GovernanceDao.Stages
import Parashield.GovernanceDao.VotingPeriod
import Parashield.GovernanceDao.Tally
import Parashield.PolicyEngine.Holdings
import Parashield.PolicyEngine.Oversight
import Parashield.PolicyEngine.OracleRotation
import Parashield.PolicyEngine.Interests
import Parashield.Separation
import Parashield.RiskPool.Registry
import Parashield.RiskPool.Mirroring
import Parashield.RiskPool.Holders
import Parashield.ClaimsProcessor.Submissions
import Parashield.Protocol.Filings
import Parashield.Protocol.Escalations
import Parashield.ClaimsProcessor.Batches
import Parashield.Protocol.Batches
import Parashield.ClaimsProcessor.Portfolio
import Parashield.OracleVerifier.Median
import Parashield.OracleVerifier.Averages
import Parashield.OracleVerifier.CrossValidation
import Parashield.OracleVerifier.Orderings
import Parashield.OracleVerifier.Prevailing
import Parashield.OracleVerifier.Rearranged
import Parashield.Support.Answer
import Parashield.OracleVerifier.Freshness
import Parashield.OracleVerifier.Outliers
import Parashield.RiskPool.Liquidations
import Parashield.OracleVerifier.Regional
import Parashield.OracleVerifier.Statistics
import Parashield.OracleVerifier.Usability
import Parashield.OracleVerifier.Minimum
import Parashield.OracleVerifier.Reputation
import Parashield.OracleVerifier.Staleness
import Parashield.RiskPool.Redeeming
import Parashield.RiskPool.Emergency
import Parashield.RiskPool.Sweeping
import Parashield.GovernanceDao.Batches
import Parashield.Support.Cooldown
import Parashield.PolicyEngine.Sales
import Parashield.PolicyEngine.Refunds
import Parashield.PolicyEngine.Notices
import Parashield.RiskPool.Reported
import Parashield.RiskPool.Reinsurance
import Parashield.RiskPool.Rotation
import Parashield.Protocol.Overdue
import Parashield.Support.Buckets
import Parashield.Protocol.Bursts
import Parashield.GovernanceDao.Weights
import Parashield.GovernanceDao.Counting
import Parashield.GovernanceDao.Finalizing
import Parashield.GovernanceDao.Quorum
import Parashield.GovernanceDao.Pruning
import Parashield.GovernanceDao.PassRule
import Parashield.GovernanceDao.Outcomes
import Parashield.PolicyEngine.Registries
import Parashield.GovernanceDao.Caps
import Parashield.GovernanceDao.Projection
import Parashield.GovernanceDao.Ageing
import Parashield.GovernanceDao.Supply
import Parashield.Protocol.Spending
import Parashield.RiskPool.Payees
import Parashield.Support.Ramp
import Parashield.RiskPool.Fees
import Parashield.RiskPool.Tiers
import Parashield.GovernanceDao.Auditing
import Parashield.Protocol.Readings
import Parashield.RiskPool.Dilution
import Parashield.GovernanceDao.Bundling
import Parashield.PolicyEngine.Purchases
import Parashield.Protocol.Covers
