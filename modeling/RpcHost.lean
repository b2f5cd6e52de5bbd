import RpcHost.Calculator
import RpcHost.Configuration.Basic
import RpcHost.Configuration.Load
import RpcHost.Demo
import RpcHost.Dispatch
import RpcHost.Event
import RpcHost.Extensions.Basic
import RpcHost.Extensions.Lookup
import RpcHost.Failure
import RpcHost.FileTree
import RpcHost.Filter.Basic
import RpcHost.Filter.Chain
import RpcHost.Handle
import RpcHost.Host.Basic
import RpcHost.Json.Access
import RpcHost.Json.Basic
import RpcHost.Json.Ordered
import RpcHost.Json.Reader
import RpcHost.Json.Writer
import RpcHost.Keyed
import RpcHost.Log
import RpcHost.Log.Record
import RpcHost.Main
import RpcHost.Message.Access
import RpcHost.Message.Request
import RpcHost.Message.Response
import RpcHost.Method.Basic
import RpcHost.Number.Binary64
import RpcHost.Number.Decimal
import RpcHost.Provider.Basic
import RpcHost.Provider.Call
import RpcHost.Proofs.Asking
import RpcHost.Proofs.Bookkeeping
import RpcHost.Proofs.Completion
import RpcHost.Proofs.Conversation
import RpcHost.Proofs.Escape
import RpcHost.Proofs.Ledger
import RpcHost.Proofs.Listing
import RpcHost.Proofs.Resemblance
import RpcHost.Proofs.Rollback
import RpcHost.Proofs.Runs
import RpcHost.Registry.Basic
import RpcHost.Registry.Registration
import RpcHost.Server.Basic
import RpcHost.Server.Deployment
import RpcHost.Server.Endpoint
import RpcHost.Server.Export
import RpcHost.Status
import RpcHost.Text.Blank
import RpcHost.Text.Cut
import RpcHost.Text.Integer
import RpcHost.Url.Basic
import RpcHost.Url.Reading
import RpcHost.Uuid
import RpcHost.Proofs.Answering
import RpcHost.Proofs.Continuity
import RpcHost.Proofs.Refinement
import RpcHost.Proofs.Account
import RpcHost.Proofs.Composition
import RpcHost.Proofs.Containment
import RpcHost.Proofs.Nesting
import RpcHost.Proofs.FanOut
import RpcHost.Proofs.Usage
import RpcHost.Proofs.Withdrawal
import RpcHost.Proofs.Chronicle
import RpcHost.Proofs.Handover
import RpcHost.Proofs.Drain
import RpcHost.Proofs.Advertising
import RpcHost.Proofs.Coexistence
import RpcHost.Proofs.Muteness
import RpcHost.Proofs.Inheritance
import RpcHost.Proofs.Tables
import RpcHost.Proofs.Orders
import RpcHost.Proofs.Misreadings
import RpcHost.Proofs.Loading
import RpcHost.Proofs.Provenance
import RpcHost.Proofs.Calculating
import RpcHost.Proofs.Demonstration
import RpcHost.Proofs.Tenure
import RpcHost.Proofs.Operands
import RpcHost.Proofs.Arithmetic
import RpcHost.Proofs.Overflow
import RpcHost.Proofs.Numerals
import RpcHost.Proofs.Hints
import RpcHost.Proofs.Splitting
import RpcHost.Proofs.Spelling
import RpcHost.Proofs.Identities
import RpcHost.Proofs.Supply
import RpcHost.Proofs.Transparency
import RpcHost.Proofs.Merging
import RpcHost.Proofs.Ports
import RpcHost.Proofs.Addresses
import RpcHost.Proofs.Precedence
import RpcHost.Proofs.Rereading
import RpcHost.Proofs.Identifiers
import RpcHost.Proofs.Signatures
