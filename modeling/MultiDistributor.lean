import MultiDistributor.Lib.ByteString
import MultiDistributor.Lib.Checked
import MultiDistributor.Lib.FixedLayout
import MultiDistributor.Lib.Grouping
import MultiDistributor.Lib.InFlight
import MultiDistributor.Lib.LinearRelease
import MultiDistributor.Lib.PairedLevels
import MultiDistributor.Lib.Replay
import MultiDistributor.Lib.Shell
import MultiDistributor.Lib.SortedMap
import MultiDistributor.Lib.Submissions
import MultiDistributor.Lib.TokenLedger
import MultiDistributor.Lib.TokenAuthorities
import MultiDistributor.Lib.WhileLoop
import MultiDistributor.Source.Hashing
import MultiDistributor.Source.MerkleTree
import MultiDistributor.Source.MerkleLayout
import MultiDistributor.Source.AirdropMerkleTree
import MultiDistributor.Source.CsvEntries
import MultiDistributor.Source.CreateMerkleTree
import MultiDistributor.Source.AggregateIf
import MultiDistributor.Source.ClaimStatus
import MultiDistributor.Source.World
import MultiDistributor.Source.Instructions
import MultiDistributor.Source.Program
import MultiDistributor.Source.Executions
import MultiDistributor.Source.Api
import MultiDistributor.Source.Sdk
import MultiDistributor.Source.FundAll
import MultiDistributor.Source.EnableSlot
import MultiDistributor.Source.AccountData
import MultiDistributor.Source.NewDistributorCommand
import MultiDistributor.Source.DeployScripts
import MultiDistributor.Source.MassSend
import MultiDistributor.Guarantees.MerkleProofs
import MultiDistributor.Guarantees.AirdropTree
import MultiDistributor.Guarantees.PathVerification
import MultiDistributor.Guarantees.FlatLayout
import MultiDistributor.Guarantees.TreeBuilding
import MultiDistributor.Guarantees.Sharding
import MultiDistributor.Guarantees.WellFormed
import MultiDistributor.Guarantees.StepAt
import MultiDistributor.Guarantees.Authority
import MultiDistributor.Guarantees.TreeIndex
import MultiDistributor.Guarantees.InsuranceFund
import MultiDistributor.Guarantees.Aggregation
import MultiDistributor.Guarantees.Clawback
import MultiDistributor.Guarantees.ReRootGuard
import MultiDistributor.Guarantees.Surplus
import MultiDistributor.Guarantees.Cap
import MultiDistributor.Guarantees.Incarnations
import MultiDistributor.Guarantees.LedgerInvariant
import MultiDistributor.Guarantees.Payments
import MultiDistributor.Guarantees.Claimable
import MultiDistributor.Guarantees.Leftovers
import MultiDistributor.Guarantees.LockedSchedule
import MultiDistributor.Guarantees.Eligibility
import MultiDistributor.Guarantees.SdkAmount
import MultiDistributor.Guarantees.Funding
import MultiDistributor.Guarantees.ClaimStatusCache
import MultiDistributor.Guarantees.Vesting
import MultiDistributor.Guarantees.Drain
import MultiDistributor.Guarantees.EnableSlots
import MultiDistributor.Guarantees.AccountFilters
import MultiDistributor.Guarantees.DeployedMatch
import MultiDistributor.Guarantees.Deployment
import MultiDistributor.Guarantees.MassSending
import MultiDistributor.Lib.Reordering
import MultiDistributor.Source.Chain
import MultiDistributor.Source.GuardedChain
import MultiDistributor.Source.TreeFile
import MultiDistributor.Source.ClaimClients
import MultiDistributor.Source.ApiServer
import MultiDistributor.Source.AdminCommands
import MultiDistributor.Source.PrepareIf
import MultiDistributor.Source.KvProofs
import MultiDistributor.Guarantees.ClaimOrder
import MultiDistributor.Guarantees.Completion
import MultiDistributor.Guarantees.ChainRefinement
import MultiDistributor.Guarantees.GuardedChain
import MultiDistributor.Guarantees.ChainCustody
import MultiDistributor.Guarantees.TreeFiles
import MultiDistributor.Guarantees.ClaimClients
import MultiDistributor.Guarantees.DistributorPoll
import MultiDistributor.Guarantees.ServerCaches
import MultiDistributor.Guarantees.EndToEnd
import MultiDistributor.Guarantees.AdminCommands
import MultiDistributor.Guarantees.Snapshots
import MultiDistributor.Guarantees.KvProofs
import MultiDistributor.Guarantees.SdkWithdrawal
