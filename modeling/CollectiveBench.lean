import CollectiveBench.Arithmetic
import CollectiveBench.Bandwidth
import CollectiveBench.Call
import CollectiveBench.Checker
import CollectiveBench.CommandLine
import CollectiveBench.Descriptor
import CollectiveBench.Device
import CollectiveBench.Element
import CollectiveBench.ElementType
import CollectiveBench.Error
import CollectiveBench.Generator
import CollectiveBench.Json.Basic
import CollectiveBench.Json.Escape
import CollectiveBench.Json.Printer
import CollectiveBench.Json.Reader
import CollectiveBench.Kernel.Embedding
import CollectiveBench.Kernel.Product
import CollectiveBench.Launcher
import CollectiveBench.Main
import CollectiveBench.Natural
import CollectiveBench.Numeric.Format
import CollectiveBench.Numeric.Notation
import CollectiveBench.Numeric.Rounding
import CollectiveBench.Numeric.Scalar
import CollectiveBench.Numeric.Shortest
import CollectiveBench.Numeric.Value
import CollectiveBench.Operation
import CollectiveBench.Params
import CollectiveBench.Pending
import CollectiveBench.Place
import CollectiveBench.Program
import CollectiveBench.RankList
import CollectiveBench.Reduction
import CollectiveBench.Request
import CollectiveBench.Run.Agenda
import CollectiveBench.Run.Bench
import CollectiveBench.Run.Crowd
import CollectiveBench.Run.Ensemble
import CollectiveBench.Run.Item
import CollectiveBench.Run.Participant
import CollectiveBench.Run.Report
import CollectiveBench.Run.Tampering
import CollectiveBench.Run.Workload
import CollectiveBench.Staging
import CollectiveBench.Stopwatch
import CollectiveBench.Stream
import CollectiveBench.Sweep
import CollectiveBench.Task
import CollectiveBench.Tensor.Basic
import CollectiveBench.Tensor.Buffer
import CollectiveBench.Tensor.Bytes
import CollectiveBench.Tensor.InPlace
import CollectiveBench.Tensor.Staged
import CollectiveBench.Text.Blank
import CollectiveBench.Text.Columns
import CollectiveBench.Text.Fields
import CollectiveBench.Text.Hexadecimal
import CollectiveBench.Text.Numeral
import CollectiveBench.Text.Quoted
import CollectiveBench.Text.Shown
import CollectiveBench.World.Delivery
import CollectiveBench.World.Exchange
import CollectiveBench.World.Groups
import CollectiveBench.World.Round
import CollectiveBench.Proofs.Exchange.Event
import CollectiveBench.Proofs.Exchange.Sound
import CollectiveBench.Proofs.Exchange.Conservation
import CollectiveBench.Proofs.Exchange.History
import CollectiveBench.Proofs.Exchange.Ledger
import CollectiveBench.Proofs.Exchange.Rendezvous
import CollectiveBench.Proofs.Exchange.ReturnedCalls
import CollectiveBench.Proofs.Delivery.Recipients
import CollectiveBench.Proofs.Exchange.Resolution
import CollectiveBench.Proofs.Exchange.Parting
import CollectiveBench.Proofs.Exchange.Schedule
import CollectiveBench.Proofs.Exchange.AllOrNothing
import CollectiveBench.Proofs.Exchange.Races
import CollectiveBench.Proofs.Exchange.Order
import CollectiveBench.Proofs.Numeric.BelowOne
import CollectiveBench.Proofs.Numeric.Counting
import CollectiveBench.Proofs.Numeric.Ones
import CollectiveBench.Proofs.Delivery.Chunks
import CollectiveBench.Proofs.Delivery.Payloads
import CollectiveBench.Proofs.Delivery.Reducing
import CollectiveBench.Proofs.Exchange.Collective
import CollectiveBench.Proofs.Exchange.Copies
import CollectiveBench.Proofs.Exchange.ScatterGather
import CollectiveBench.Proofs.Delivery.Blocks
import CollectiveBench.Proofs.Exchange.BlockExchange
import CollectiveBench.Proofs.Delivery.Shapes
import CollectiveBench.Proofs.Delivery.Layouts
import CollectiveBench.Proofs.Delivery.Terms
import CollectiveBench.Proofs.Delivery.Defects
import CollectiveBench.Proofs.Exchange.Seats
import CollectiveBench.Proofs.Exchange.InRange
import CollectiveBench.Proofs.Exchange.Renaming
import CollectiveBench.Proofs.Exchange.Bystanders
import CollectiveBench.Proofs.Exchange.Returning
import CollectiveBench.Proofs.Exchange.Forms
import CollectiveBench.Proofs.Staging
import CollectiveBench.Proofs.Exchange.StagedCalls
import CollectiveBench.Proofs.Delivery.Uniform
import CollectiveBench.Proofs.Checking
import CollectiveBench.Proofs.Delivery.Sums
import CollectiveBench.Proofs.Exchange.ValidatedCalls
import CollectiveBench.Proofs.Exchange.ReducedCalls
import CollectiveBench.Proofs.Run.Items
import CollectiveBench.Proofs.Run.Lockstep
import CollectiveBench.Proofs.Run.Messages
import CollectiveBench.Proofs.Run.Together
import CollectiveBench.Proofs.Run.Crowds
import CollectiveBench.Proofs.Run.DryRun
import CollectiveBench.Proofs.Run.Plans
import CollectiveBench.Proofs.Run.Reuse
import CollectiveBench.Proofs.Run.Supplies
import CollectiveBench.Proofs.Run.Verdict
import CollectiveBench.Proofs.Run.Workloads
import CollectiveBench.Proofs.Run.Steadiness
import CollectiveBench.Proofs.CommandLine
import CollectiveBench.Proofs.Run.AllOrNone
import CollectiveBench.Proofs.Program
import CollectiveBench.Proofs.Staging.Admission
import CollectiveBench.Proofs.Staging.Declared
import CollectiveBench.Proofs.Sweep
import CollectiveBench.Proofs.Sweep.Progression
import CollectiveBench.Proofs.Text.Numerals
import CollectiveBench.Proofs.Text.Fields
import CollectiveBench.Proofs.Exchange.Numbering
import CollectiveBench.Proofs.Exchange.Mismatch
import CollectiveBench.Proofs.Delivery.Staleness
import CollectiveBench.Proofs.Json.Lexemes
import CollectiveBench.Proofs.Json.Values
import CollectiveBench.Proofs.Json.Forms
import CollectiveBench.Proofs.Descriptor.Fields
import CollectiveBench.Proofs.Descriptor.WrittenForm
import CollectiveBench.Proofs.Exchange.ReceiveSplits
import CollectiveBench.Proofs.Run.Splits
import CollectiveBench.Proofs.Delivery.Exact
import CollectiveBench.Proofs.Exchange.MemberOrder
import CollectiveBench.Proofs.Sweep.Notation
import CollectiveBench.Proofs.RankList
import CollectiveBench.Proofs.Exchange.Refusals
import CollectiveBench.Proofs.Launcher
import CollectiveBench.Proofs.Entries
import CollectiveBench.Proofs.Operation
import CollectiveBench.Proofs.Pending
import CollectiveBench.Proofs.Kernel.Rows
import CollectiveBench.Proofs.Kernel.Embedding
import CollectiveBench.Proofs.Run.Addresses
import CollectiveBench.Proofs.Kernel.Product
import CollectiveBench.Proofs.Checking.Faults
import CollectiveBench.Proofs.Tensor.Parts
import CollectiveBench.Proofs.Numeric.Widths
import CollectiveBench.Proofs.Tensor.Agreement
import CollectiveBench.Proofs.Tensor.Buffers
import CollectiveBench.Proofs.Tensor.Bytes
import CollectiveBench.Proofs.Tensor.Histories
import CollectiveBench.Proofs.Stream
import CollectiveBench.Proofs.Exchange.FilledSlots
import CollectiveBench.Proofs.Tensor.InPlace
import CollectiveBench.Proofs.Sweep.FirstSize
