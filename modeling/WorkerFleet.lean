import WorkerFleet.Main
import WorkerFleet.Proofs.Alerts
import WorkerFleet.Proofs.Commands
import WorkerFleet.Proofs.Headroom
import WorkerFleet.Proofs.JobUse
import WorkerFleet.Proofs.Accounts
import WorkerFleet.Proofs.Independence
import WorkerFleet.Proofs.Orphans
import WorkerFleet.Proofs.Resumes
import WorkerFleet.Proofs.Shortage
import WorkerFleet.Proofs.LedgerBound
import WorkerFleet.Proofs.Stuck
import WorkerFleet.Proofs.Reclaimed
import WorkerFleet.Proofs.Pending
import WorkerFleet.Proofs.Exits
import WorkerFleet.Proofs.EventLog
import WorkerFleet.Proofs.Binary64
import WorkerFleet.Proofs.Completion
import WorkerFleet.Proofs.Turns
import WorkerFleet.Proofs.Order
import WorkerFleet.Proofs.Outcomes
import WorkerFleet.Proofs.StagedNames
import WorkerFleet.Proofs.Skips
import WorkerFleet.Proofs.FirstFit
import WorkerFleet.Proofs.Shortfalls
import WorkerFleet.Proofs.Rounds
import WorkerFleet.Proofs.Budget
import WorkerFleet.Proofs.Cancellation
import WorkerFleet.Proofs.FairShare
import WorkerFleet.Proofs.RoundedShares
import WorkerFleet.Proofs.Smoothing
import WorkerFleet.Proofs.Lifecycle
import WorkerFleet.Proofs.HotCounts
import WorkerFleet.Proofs.Matching
import WorkerFleet.Proofs.Deficits
import WorkerFleet.Proofs.Dominance
import WorkerFleet.Proofs.Retention
import WorkerFleet.Proofs.JobOrders
import WorkerFleet.Proofs.MemoryText
import WorkerFleet.Proofs.ImageHosts
import WorkerFleet.Proofs.JsonTokens
import WorkerFleet.Proofs.JsonText
import WorkerFleet.Proofs.JsonLayouts
import WorkerFleet.Proofs.Records
import WorkerFleet.Proofs.Replay
import WorkerFleet.Proofs.Statistics
import WorkerFleet.Proofs.WellFormed
