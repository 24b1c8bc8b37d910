import TableAccess.Address
import TableAccess.Calendar
import TableAccess.Describe
import TableAccess.Failure
import TableAccess.Field
import TableAccess.Json.Basic
import TableAccess.Json.Lexer
import TableAccess.Json.Reader
import TableAccess.Json.Source
import TableAccess.Number.Decimal
import TableAccess.Number.Double
import TableAccess.Page
import TableAccess.Record
import TableAccess.Row
import TableAccess.Scope
import TableAccess.Settings
import TableAccess.Sql.Condition
import TableAccess.Sql.Dialect
import TableAccess.Sql.Fragment
import TableAccess.Sql.Modifier
import TableAccess.Statement
import TableAccess.Table
import TableAccess.Text.Blank
import TableAccess.Text.Digits
import TableAccess.Text.Extending
import TableAccess.Text.Ident
import TableAccess.Text.IpAddress
import TableAccess.Text.Percent
import TableAccess.Text.Quoted
import TableAccess.Text.Quotes
import TableAccess.Text.Ranges
import TableAccess.Text.Split
import TableAccess.Text.Unprinted
import TableAccess.Text.Utf8
import TableAccess.Uuid
import TableAccess.Value
import TableAccess.Wire
import TableAccess.Work.Context
import TableAccess.Work.Datasource
import TableAccess.Work.Interceptor
import TableAccess.Work.Log
import TableAccess.Work.Operation
import TableAccess.Work.Provision
import TableAccess.Work.Read
import TableAccess.Work.Run
import TableAccess.Work.Scripted
import TableAccess.Work.Session
import TableAccess.Work.Trace
import TableAccess.Work.Unit
import TableAccess.Work.Write
import TableAccess.Proofs.Work.Footprint
import TableAccess.Proofs.Work.Statements
import TableAccess.Proofs.Work.Completion
import TableAccess.Proofs.Work.Life
import TableAccess.Proofs.Work.Ledger
import TableAccess.Proofs.Work.Custody
import TableAccess.Proofs.Work.Sessions
import TableAccess.Proofs.Sql.Identifiers
import TableAccess.Proofs.Sql.Adapting
import TableAccess.Proofs.Sql.Conditions
import TableAccess.Proofs.Sql.Requests
import TableAccess.Proofs.Sql.Silence
import TableAccess.Proofs.Work.Mutations
import TableAccess.Proofs.Wire.Bytes
import TableAccess.Proofs.Wire.Moments
import TableAccess.Proofs.Wire.Utf8
import TableAccess.Proofs.Wire.Codec
import TableAccess.Proofs.Number.Nearest
import TableAccess.Proofs.Sql.Phrases
import TableAccess.Proofs.Wire.Delivery
import TableAccess.Proofs.Sql.Meaning
import TableAccess.Proofs.Work.Finished
import TableAccess.Proofs.Sql.Pages
import TableAccess.Proofs.Sql.Rewriting
import TableAccess.Proofs.Sql.Naming
import TableAccess.Proofs.Work.Routing
import TableAccess.Proofs.Wire.Storage
import TableAccess.Proofs.Sql.Splicing
import TableAccess.Proofs.Work.Readers
import TableAccess.Proofs.Work.Logging
import TableAccess.Proofs.Work.Mirror
import TableAccess.Proofs.Work.Transparency
import TableAccess.Proofs.Sql.Surroundings
import TableAccess.Proofs.Sql.Collecting
import TableAccess.Proofs.Work.Updates
import TableAccess.Proofs.Work.Batches
import TableAccess.Proofs.Sql.Assigning
import TableAccess.Proofs.Work.Gates
import TableAccess.Proofs.Work.Stamping
import TableAccess.Proofs.Work.Opening
import TableAccess.Proofs.Sql.Building
import TableAccess.Proofs.Sql.Windows
import TableAccess.Proofs.Sql.Selections
import TableAccess.Proofs.Work.Binding
