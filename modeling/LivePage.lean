import LivePage.Json.Pointer
import LivePage.Main
import LivePage.Proofs.Run.Branches
import LivePage.Proofs.Run.Failures
import LivePage.Proofs.Schedule.Background
import LivePage.Proofs.Schedule.Detached
import LivePage.Proofs.Schedule.Isolation
import LivePage.Proofs.Schedule.Pruning
import LivePage.Proofs.Schedule.Updates
import LivePage.Proofs.Schedule.Footprint
import LivePage.Proofs.Command.Dispatch
import LivePage.Proofs.Json.Faithful
import LivePage.Proofs.Page.Format
import LivePage.Proofs.Store.Encoding
import LivePage.Proofs.Store.Regular
import LivePage.Proofs.Schedule.Writes
import LivePage.Proofs.Schedule.Stored
import LivePage.Proofs.Expression.Template
import LivePage.Proofs.Expression.Context
import LivePage.Proofs.Schedule.FurtherFields
import LivePage.Proofs.Store.Registry
import LivePage.Proofs.Store.Algebra
import LivePage.Proofs.Schedule.Handling
import LivePage.Proofs.Expression.Names
import LivePage.Proofs.Schedule.Readback
import LivePage.Proofs.Source.Consumed
import LivePage.Proofs.Source.Unchanged
import LivePage.Proofs.Expression.Evaluation
import LivePage.Proofs.Expression.Interpolation
import LivePage.Proofs.Path.Printing
import LivePage.Proofs.Routes
import LivePage.Proofs.Routes.NormalForm
import LivePage.Proofs.Store.Fields
import LivePage.Proofs.Schedule.TriggerData
import LivePage.Proofs.Schedule.Accounting
import LivePage.Proofs.Expression.Equality
import LivePage.Proofs.Page.Repetitions
import LivePage.Proofs.Schedule.Erasure
import LivePage.Proofs.Schedule.Durations
import LivePage.Proofs.Schedule.Custody
import LivePage.Proofs.Expression.Condition
import LivePage.Proofs.Path.Steps
import LivePage.Proofs.Source.Forwarding
