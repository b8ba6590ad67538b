import LogConsumer.Bench.Commits
import LogConsumer.Bench.Faults
import LogConsumer.Bench.Guard
import LogConsumer.Bench.Positions
import LogConsumer.Bench.Session
import LogConsumer.Bench.Subscription
import LogConsumer.Scenario.Play
import LogConsumer.Proofs.Frame
import LogConsumer.Proofs.LogGrowth
import LogConsumer.Proofs.Turn
import LogConsumer.Proofs.Events
import LogConsumer.Proofs.Delivery
import LogConsumer.Proofs.Coverage
import LogConsumer.Proofs.Ledger
import LogConsumer.Proofs.Rebalance
import LogConsumer.Proofs.Language
import LogConsumer.Proofs.Search
import LogConsumer.Proofs.Selection
import LogConsumer.Proofs.Activation
import LogConsumer.Proofs.Pooled
import LogConsumer.Proofs.Reentrance
import LogConsumer.Proofs.OffsetRange
import LogConsumer.Proofs.Scripts
import LogConsumer.Proofs.Refusals
import LogConsumer.Proofs.PollFaults
import LogConsumer.Proofs.Expiry
import LogConsumer.Proofs.Closing
import LogConsumer.Proofs.Latency
import LogConsumer.Proofs.Panic
import LogConsumer.Proofs.Draining
import LogConsumer.Proofs.HandOver
import LogConsumer.Proofs.Consistency
import LogConsumer.Proofs.Finality
import LogConsumer.Proofs.HandOut
import LogConsumer.Proofs.HandBack
import LogConsumer.Proofs.Replay
import LogConsumer.Proofs.Racing
import LogConsumer.Proofs.Recast
import LogConsumer.Proofs.Topology
import LogConsumer.Proofs.Pausing
import LogConsumer.Proofs.NextRecords
import LogConsumer.Proofs.Starts
import LogConsumer.Proofs.Counting
import LogConsumer.Proofs.RebalanceCounts
import LogConsumer.Proofs.Renewal
import LogConsumer.Proofs.Truncation
import LogConsumer.Proofs.Anchoring
import LogConsumer.Proofs.SessionTimeout
import LogConsumer.Proofs.GeneratedRecords
