import Checkout.Batch
import Checkout.Binary64
import Checkout.Config.Address
import Checkout.Config.Database
import Checkout.Config.Environment
import Checkout.Config.Service
import Checkout.Decimal.Basic
import Checkout.Decimal.Text
import Checkout.Demand.Basic
import Checkout.Demand.Resolution
import Checkout.Error
import Checkout.Gateway.Attendant
import Checkout.Gateway.Basic
import Checkout.Gateway.Reader
import Checkout.Http.Body
import Checkout.Http.Envelope
import Checkout.Http.Exchange
import Checkout.Http.MediaType
import Checkout.Http.Service
import Checkout.Identifier
import Checkout.Json.Draft
import Checkout.Json.Number
import Checkout.Json.Record
import Checkout.Json.Token
import Checkout.Json.Value
import Checkout.Money
import Checkout.Order.Basic
import Checkout.Order.Item
import Checkout.Order.Json
import Checkout.Order.Refusal
import Checkout.Order.Request
import Checkout.Pipeline.Basic
import Checkout.Pipeline.Launch
import Checkout.Pipeline.Timeline
import Checkout.Power
import Checkout.Proofs.Batch.Answers
import Checkout.Proofs.Batch.Calls
import Checkout.Proofs.Batch.Classification
import Checkout.Proofs.Batch.Discipline
import Checkout.Proofs.Batch.Failure
import Checkout.Proofs.Batch.Outcome
import Checkout.Proofs.Batch.Precedence
import Checkout.Proofs.Batch.Report
import Checkout.Proofs.Batch.Sales
import Checkout.Proofs.Batch.Screen
import Checkout.Proofs.Batch.Settlement
import Checkout.Proofs.Batch.Transaction
import Checkout.Proofs.Batch.Withdrawal
import Checkout.Proofs.Config.Database
import Checkout.Proofs.Config.Service
import Checkout.Proofs.Config.Url
import Checkout.Proofs.Decimal.Admission
import Checkout.Proofs.Decimal.Exact
import Checkout.Proofs.Decimal.Money
import Checkout.Proofs.Decimal.Order
import Checkout.Proofs.Decimal.Text
import Checkout.Proofs.Demand.Balance
import Checkout.Proofs.Demand.Guarded
import Checkout.Proofs.Demand.Ledger
import Checkout.Proofs.Demand.Partition
import Checkout.Proofs.Demand.Precedence
import Checkout.Proofs.Demand.Resolution
import Checkout.Proofs.Demand.Survival
import Checkout.Proofs.Gateway.Tickets
import Checkout.Proofs.Http.Body
import Checkout.Proofs.Http.Exchange
import Checkout.Proofs.Http.Receipt
import Checkout.Proofs.Http.Service
import Checkout.Proofs.Http.Validation
import Checkout.Proofs.Http.Wire
import Checkout.Proofs.Json.Field
import Checkout.Proofs.Json.Respelling
import Checkout.Proofs.Json.Size
import Checkout.Proofs.Json.Text
import Checkout.Proofs.Json.Token
import Checkout.Proofs.Memory.Bulk
import Checkout.Proofs.Memory.Conservation
import Checkout.Proofs.Memory.Contents
import Checkout.Proofs.Memory.History
import Checkout.Proofs.Memory.Integrity
import Checkout.Proofs.Memory.Permanence
import Checkout.Proofs.Memory.Session
import Checkout.Proofs.Memory.Windows
import Checkout.Proofs.Order.Request
import Checkout.Proofs.Order.Sequence
import Checkout.Proofs.Order.Total
import Checkout.Proofs.Pipeline.Course
import Checkout.Proofs.Pipeline.Flow
import Checkout.Proofs.Pipeline.Limits
import Checkout.Proofs.Pipeline.Replies
import Checkout.Proofs.Pipeline.Requests
import Checkout.Proofs.Sql.Actions
import Checkout.Proofs.Sql.Columns
import Checkout.Proofs.Sql.Connection
import Checkout.Proofs.Sql.Contract
import Checkout.Proofs.Sql.Conversation
import Checkout.Proofs.Sql.Grouping
import Checkout.Proofs.Sql.Holding
import Checkout.Proofs.Sql.Ideal
import Checkout.Proofs.Sql.Interchange
import Checkout.Proofs.Sql.Join
import Checkout.Proofs.Sql.Legibility
import Checkout.Proofs.Sql.Limits
import Checkout.Proofs.Sql.Regrouping
import Checkout.Proofs.Sql.Rejoining
import Checkout.Proofs.Sql.Rows
import Checkout.Proofs.Sql.Server
import Checkout.Proofs.Sql.Settling
import Checkout.Proofs.Sql.Silence
import Checkout.Proofs.Sql.Wording
import Checkout.Proofs.Store.Action
import Checkout.Proofs.Store.Journal
import Checkout.Proofs.Text.Digits
import Checkout.Proofs.Text.Identifier
import Checkout.Proofs.Text.Percent
import Checkout.Proofs.Text.Unsigned
import Checkout.Proofs.Time.Column
import Checkout.Proofs.Time.Text
import Checkout.Rounding
import Checkout.Shutdown
import Checkout.Sql.Cell
import Checkout.Sql.Connection
import Checkout.Sql.Error
import Checkout.Sql.Migration
import Checkout.Sql.Script
import Checkout.Sql.Statement
import Checkout.Sql.Store
import Checkout.Store.Basic
import Checkout.Store.Memory
import Checkout.Store.Session
import Checkout.Store.Tapped
import Checkout.Text.Blank
import Checkout.Text.Digits
import Checkout.Text.Unsigned
import Checkout.Text.Utf8
import Checkout.Time.Basic
import Checkout.Time.Date
import Checkout.Time.Text
import Checkout.Uuid
