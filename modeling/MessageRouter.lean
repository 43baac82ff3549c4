import MessageRouter.Body.Operand
import MessageRouter.Body.Payload
import MessageRouter.Body.Printer
import MessageRouter.Body.Reader
import MessageRouter.Body.Scope
import MessageRouter.Body.Sexpr
import MessageRouter.Body.Stmt
import MessageRouter.Cell.Basic
import MessageRouter.Cell.Bits
import MessageRouter.Cell.Builder
import MessageRouter.Cell.Fault
import MessageRouter.Cell.Slice
import MessageRouter.CommandLine.Arguments
import MessageRouter.CommandLine.Command
import MessageRouter.CommandLine.FilePath
import MessageRouter.CommandLine.FileSystem
import MessageRouter.CommandLine.FileTree
import MessageRouter.CommandLine.Response
import MessageRouter.Comment
import MessageRouter.Compilation
import MessageRouter.Contract.Basic
import MessageRouter.Contract.Plan
import MessageRouter.Contract.Procedure
import MessageRouter.Contract.Selector
import MessageRouter.Contract.Slot
import MessageRouter.Decimal.Form
import MessageRouter.Decimal.Shortest
import MessageRouter.Diagnostic.Location
import MessageRouter.Diagnostic.Report
import MessageRouter.Diagnostic.Span
import MessageRouter.Direction
import MessageRouter.Document.Error
import MessageRouter.Document.Reader
import MessageRouter.Fault
import MessageRouter.Func.Expr
import MessageRouter.Func.Function
import MessageRouter.Func.Name
import MessageRouter.Func.Router
import MessageRouter.Func.Shape
import MessageRouter.Func.Stmt
import MessageRouter.Func.Writer
import MessageRouter.Hash.Sha256
import MessageRouter.Identifier
import MessageRouter.Int128
import MessageRouter.Json.Basic
import MessageRouter.Json.Decode
import MessageRouter.Json.Printer
import MessageRouter.Json.Reader
import MessageRouter.Limits
import MessageRouter.Main
import MessageRouter.Packed.Basic
import MessageRouter.Packed.Builder
import MessageRouter.Packed.Slice
import MessageRouter.Proofs.Body.Arithmetic
import MessageRouter.Proofs.Body.Conformance
import MessageRouter.Proofs.Body.Grammar
import MessageRouter.Proofs.Body.Ledger
import MessageRouter.Proofs.Body.Lists
import MessageRouter.Proofs.Body.Names
import MessageRouter.Proofs.Body.Scoping
import MessageRouter.Proofs.Body.Soundness
import MessageRouter.Proofs.Body.Targets
import MessageRouter.Proofs.Body.Visibility
import MessageRouter.Proofs.Cell.Representation
import MessageRouter.Proofs.Cell.Stores
import MessageRouter.Proofs.Code.Balance
import MessageRouter.Proofs.Code.Body
import MessageRouter.Proofs.Code.Functions
import MessageRouter.Proofs.Code.Grouping
import MessageRouter.Proofs.Code.Header
import MessageRouter.Proofs.Code.Name
import MessageRouter.Proofs.Code.Placement
import MessageRouter.Proofs.Code.Reading
import MessageRouter.Proofs.Code.Remarks
import MessageRouter.Proofs.Code.Role
import MessageRouter.Proofs.Code.Run
import MessageRouter.Proofs.Code.Syntax
import MessageRouter.Proofs.Code.Token
import MessageRouter.Proofs.Code.Word
import MessageRouter.Proofs.Code.Writing
import MessageRouter.Proofs.Codec.Canonical
import MessageRouter.Proofs.Codec.Exactness
import MessageRouter.Proofs.Codec.Reading
import MessageRouter.Proofs.Codec.Truncation
import MessageRouter.Proofs.Compilation.Acceptance
import MessageRouter.Proofs.Compilation.Assembly
import MessageRouter.Proofs.Compilation.Blocks
import MessageRouter.Proofs.Compilation.Faults
import MessageRouter.Proofs.Compilation.Linking
import MessageRouter.Proofs.Compilation.Names
import MessageRouter.Proofs.Compilation.Remarks
import MessageRouter.Proofs.Compilation.Separation
import MessageRouter.Proofs.Delivery.Bounces
import MessageRouter.Proofs.Delivery.Classes
import MessageRouter.Proofs.Delivery.Comments
import MessageRouter.Proofs.Delivery.Decoding
import MessageRouter.Proofs.Delivery.Exits
import MessageRouter.Proofs.Delivery.Invariant
import MessageRouter.Proofs.Delivery.Messages
import MessageRouter.Proofs.Delivery.Order
import MessageRouter.Proofs.Delivery.Priority
import MessageRouter.Proofs.Delivery.Receipt
import MessageRouter.Proofs.Delivery.Replacement
import MessageRouter.Proofs.Delivery.RoundTrip
import MessageRouter.Proofs.Delivery.Selection
import MessageRouter.Proofs.Delivery.TrailingReturn
import MessageRouter.Proofs.Delivery.Transfer
import MessageRouter.Proofs.Diagnostic.Order
import MessageRouter.Proofs.Document.Loading
import MessageRouter.Proofs.Document.Nesting
import MessageRouter.Proofs.Document.Pointing
import MessageRouter.Proofs.Document.Reading
import MessageRouter.Proofs.Document.Soundness
import MessageRouter.Proofs.Document.WellFormed
import MessageRouter.Proofs.Fallible
import MessageRouter.Proofs.Json.Grammar
import MessageRouter.Proofs.Json.Printing
import MessageRouter.Proofs.Json.Reading
import MessageRouter.Proofs.Json.Scalars
import MessageRouter.Proofs.Packed.Bytes
import MessageRouter.Proofs.Packed.Integers
import MessageRouter.Proofs.Packed.Operations
import MessageRouter.Proofs.Packed.Reads
import MessageRouter.Proofs.Packed.Refinement
import MessageRouter.Proofs.Packed.Representation
import MessageRouter.Proofs.Packed.Stores
import MessageRouter.Proofs.Plan.Admission
import MessageRouter.Proofs.Plan.FirstMatch
import MessageRouter.Proofs.Plan.Inventory
import MessageRouter.Proofs.Plan.Offence
import MessageRouter.Proofs.Plan.Route
import MessageRouter.Proofs.Plan.Routes
import MessageRouter.Proofs.Plan.Slots
import MessageRouter.Proofs.Receiver.Completion
import MessageRouter.Proofs.Receiver.Correctness
import MessageRouter.Proofs.Receiver.Environment
import MessageRouter.Proofs.Receiver.Execution
import MessageRouter.Proofs.Receiver.Locals
import MessageRouter.Proofs.Receiver.Lowering
import MessageRouter.Proofs.Receiver.Rendering
import MessageRouter.Proofs.Receiver.Simulation
import MessageRouter.Proofs.Receiver.Text
import MessageRouter.Proofs.Receiver.Value
import MessageRouter.Proofs.Record.Reading
import MessageRouter.Proofs.Record.RoundTrip
import MessageRouter.Proofs.Router.Calls
import MessageRouter.Proofs.Router.Correctness
import MessageRouter.Proofs.Schema.Header
import MessageRouter.Proofs.Schema.Opcode
import MessageRouter.Proofs.Schema.TypeName
import MessageRouter.Proofs.Text.Digits
import MessageRouter.Proofs.Text.Hex
import MessageRouter.Proofs.Text.Numeral
import MessageRouter.Record
import MessageRouter.Schema.Codec
import MessageRouter.Schema.FieldType
import MessageRouter.Schema.Header
import MessageRouter.Schema.Message
import MessageRouter.Simulator.Basic
import MessageRouter.Simulator.Exit
import MessageRouter.Simulator.Frame
import MessageRouter.Text.Blank
import MessageRouter.Text.Hex
import MessageRouter.Text.Numeral
import MessageRouter.Text.Printable
import MessageRouter.Text.Quoted
import MessageRouter.Value
