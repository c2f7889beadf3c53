import ReliableQueue.Main
import ReliableQueue.Scenario.ContextTrial
import ReliableQueue.Scenario.QueueTrial
import ReliableQueue.Scenario.RedisTrial
import ReliableQueue.Scenario.RetryTrial
import ReliableQueue.Scenario.StoreTrial
import ReliableQueue.Proofs.Store.Contents
import ReliableQueue.Proofs.Store.Memory
import ReliableQueue.Proofs.Queue.Batches
import ReliableQueue.Proofs.Queue.Runs
import ReliableQueue.Proofs.Queue.Loops
import ReliableQueue.Proofs.Lists
import ReliableQueue.Proofs.Queue.Steps
import ReliableQueue.Proofs.Queue.Changes
import ReliableQueue.Proofs.Queue.Tallies
import ReliableQueue.Proofs.Queue.Conservation
import ReliableQueue.Proofs.Queue.Calls
import ReliableQueue.Proofs.Queue.Lifecycle
import ReliableQueue.Proofs.Queue.Order
import ReliableQueue.Proofs.Queue.Exclusion
import ReliableQueue.Proofs.Queue.Claims
import ReliableQueue.Proofs.Queue.Redelivery
import ReliableQueue.Proofs.Queue.Effects
import ReliableQueue.Proofs.Queue.Flow
import ReliableQueue.Proofs.Queue.Presence
import ReliableQueue.Proofs.Queue.Recoveries
import ReliableQueue.Proofs.Queue.Lookups
import ReliableQueue.Proofs.Queue.Traces
import ReliableQueue.Proofs.Queue.Payloads
import ReliableQueue.Proofs.Queue.Endings
import ReliableQueue.Proofs.Queue.Course
import ReliableQueue.Proofs.Queue.Drain
import ReliableQueue.Proofs.Queue.Undisturbed
import ReliableQueue.Proofs.Queue.Deliveries
import ReliableQueue.Proofs.Queue.Outstanding
import ReliableQueue.Proofs.Queue.Turning
import ReliableQueue.Proofs.Queue.Standing
import ReliableQueue.Proofs.Queue.Residue
import ReliableQueue.Proofs.Queue.Shares
import ReliableQueue.Proofs.Queue.Backpressure
import ReliableQueue.Proofs.Queue.Turns
import ReliableQueue.Proofs.Queue.Alternation
import ReliableQueue.Proofs.Store.Ranges
import ReliableQueue.Proofs.Store.Answers
import ReliableQueue.Proofs.Queue.StaleClaims
import ReliableQueue.Proofs.Rounding
import ReliableQueue.Proofs.Redis.Keyspace
import ReliableQueue.Proofs.Redis.Client
import ReliableQueue.Proofs.Redis.Agreement
import ReliableQueue.Proofs.Store.Exactness
import ReliableQueue.Proofs.Redis.Footprint
import ReliableQueue.Proofs.Queue.Names
import ReliableQueue.Proofs.Queue.Stranding
import ReliableQueue.Proofs.Queue.Abandonment
import ReliableQueue.Proofs.Queue.ClaimAge
import ReliableQueue.Proofs.Queue.Faults
import ReliableQueue.Proofs.Queue.Bystanders
import ReliableQueue.Proofs.Queue.Rollback
import ReliableQueue.Proofs.Retry.Backoff
import ReliableQueue.Proofs.Retry.Attempts
import ReliableQueue.Proofs.Retry.Trials
import ReliableQueue.Proofs.Clock
import ReliableQueue.Proofs.Queue.Moments
import ReliableQueue.Proofs.Queue.Processing
import ReliableQueue.Proofs.Queue.Tokens
import ReliableQueue.Proofs.Queue.Isolation
import ReliableQueue.Proofs.Store.Traffic
import ReliableQueue.Proofs.Store.Waiting
import ReliableQueue.Proofs.Queue.Patrols
import ReliableQueue.Proofs.Queue.Sweeps
import ReliableQueue.Proofs.Queue.Pushes
import ReliableQueue.Proofs.Text.Numerals
import ReliableQueue.Proofs.Config.Verbatim
import ReliableQueue.Proofs.Queue.Tuning
import ReliableQueue.Proofs.Text.Utf8
import ReliableQueue.Proofs.Store.Queries
import ReliableQueue.Proofs.Queue.SweepAges
import ReliableQueue.Proofs.Service.StartUp
