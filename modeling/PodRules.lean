import PodRules.Main
import PodRules.Notification.ServedQueue
import PodRules.Notification.Tasks
import PodRules.Program.Phases
import PodRules.Proofs.Json.RoundTrip
import PodRules.Proofs.Object.Owners
import PodRules.Proofs.Pass.Trace
import PodRules.Proofs.Pass.Parts
import PodRules.Proofs.Pass.Release
import PodRules.Proofs.Cluster.Service
import PodRules.Proofs.Cluster.Selection
import PodRules.Proofs.Cluster.Versions
import PodRules.Proofs.Pass.Effects
import PodRules.Proofs.Pass.Ownership
import PodRules.Proofs.Pass.Frame
import PodRules.Proofs.Pass.Accounts
import PodRules.Proofs.Pass.Faultless
import PodRules.Proofs.Run.Orphans
import PodRules.Proofs.Run.Convergence
import PodRules.Proofs.Run.Idempotence
import PodRules.Proofs.Run.ForcedDeletion
import PodRules.Proofs.Run.LostUpdates
import PodRules.Proofs.Stage.Merge
import PodRules.Proofs.Stage.Tasks
import PodRules.Proofs.Pass.Expectations
import PodRules.Proofs.Run.Expectations
import PodRules.Proofs.Store.History
import PodRules.Proofs.Run.DeletionPass
import PodRules.Proofs.Run.LateDeletion
import PodRules.Proofs.Run.Generations
import PodRules.Proofs.Notification.Queue
import PodRules.Proofs.Notification.Tasks
import PodRules.Proofs.Notification.Served
import PodRules.Proofs.Run.Vanishing
import PodRules.Proofs.Run.Recording
import PodRules.Proofs.Stage.Snapshot
import PodRules.Proofs.Run.Notifications
import PodRules.Proofs.RuleSet.Forms
import PodRules.Proofs.Stage.Declared
import PodRules.Proofs.Run.FinalizerFirst
import PodRules.Proofs.Run.StaleViews
import PodRules.Proofs.Stage.Aggregate
import PodRules.Proofs.Object.OwnerCalls
import PodRules.Proofs.Run.Blocking
import PodRules.Proofs.Run.StatusGate
import PodRules.Proofs.Pass.PlanTasks
import PodRules.Proofs.Run.OwnershipSync
import PodRules.Proofs.Store.Rearming
import PodRules.Proofs.Run.OwnershipGate
import PodRules.Proofs.Selector.Matching
import PodRules.Proofs.Selector.Reading
import PodRules.Proofs.Watch.Wakeup
import PodRules.Proofs.Retry.Loop
import PodRules.Proofs.Run.Surroundings
import PodRules.Proofs.Run.ListingOrder
import PodRules.Proofs.Stage.Canonical
import PodRules.Proofs.Stage.Names
