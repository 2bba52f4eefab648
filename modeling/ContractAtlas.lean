import ContractAtlas.Batch
import ContractAtlas.Contract
import ContractAtlas.Contract.Decoding
import ContractAtlas.Contract.Encoding
import ContractAtlas.Declaration
import ContractAtlas.Diagram.Basic
import ContractAtlas.Diagram.Classes
import ContractAtlas.Diagram.Encoding
import ContractAtlas.Diagram.Flow
import ContractAtlas.Diagram.Focus
import ContractAtlas.Diagram.Selection
import ContractAtlas.Diagram.StateAccess
import ContractAtlas.Extraction
import ContractAtlas.Finding
import ContractAtlas.Interface.Entry
import ContractAtlas.Interface.Strings
import ContractAtlas.Journal
import ContractAtlas.Json.Basic
import ContractAtlas.Json.Display
import ContractAtlas.Json.Lexeme
import ContractAtlas.Json.Reader
import ContractAtlas.Json.Writer
import ContractAtlas.Log.Fault
import ContractAtlas.Log.Level
import ContractAtlas.Log.Line
import ContractAtlas.Log.Record
import ContractAtlas.Log.Setup
import ContractAtlas.Log.Template
import ContractAtlas.Numeral.Binary64
import ContractAtlas.Numeral.Integer
import ContractAtlas.Numeral.Shortest
import ContractAtlas.References
import ContractAtlas.Refusal
import ContractAtlas.Role
import ContractAtlas.Schema.Decoder
import ContractAtlas.Schema.Issue
import ContractAtlas.Service
import ContractAtlas.Service.CrossOrigin
import ContractAtlas.Service.Framework
import ContractAtlas.Service.Inquiry
import ContractAtlas.Service.Message
import ContractAtlas.Service.Payload
import ContractAtlas.Service.RateLimit
import ContractAtlas.Service.Route
import ContractAtlas.Service.SizeLimit
import ContractAtlas.Settings
import ContractAtlas.Source.FunctionHeader
import ContractAtlas.Source.Heading
import ContractAtlas.Source.Member
import ContractAtlas.Source.ParameterList
import ContractAtlas.Source.Shape
import ContractAtlas.Source.Variable
import ContractAtlas.Text.Blank
import ContractAtlas.Text.CodePoint
import ContractAtlas.Text.Digit
import ContractAtlas.Text.Encoding
import ContractAtlas.Text.PercentEncoded
import ContractAtlas.Text.Quoted
import ContractAtlas.Text.Summary
import ContractAtlas.Text.UnprintableTable
import ContractAtlas.Text.Uppercase
import ContractAtlas.Text.UppercaseTable
import ContractAtlas.Text.Word
import ContractAtlas.Text.WordTable
import ContractAtlas.Proofs.FirstSeen
import ContractAtlas.Proofs.Source.Occurrence
import ContractAtlas.Proofs.Attribution
import ContractAtlas.Proofs.Extraction
import ContractAtlas.Proofs.Integrity
import ContractAtlas.Proofs.Diagram.FlowEdges
import ContractAtlas.Proofs.Diagram.StateEdges
import ContractAtlas.Proofs.Diagram.WellFormed
import ContractAtlas.Proofs.Growth
import ContractAtlas.Proofs.Interface.RoundTrip
import ContractAtlas.Proofs.Gate
import ContractAtlas.Proofs.Canonical.Extraction
import ContractAtlas.Proofs.Batch
import ContractAtlas.Proofs.RoleInverse
import ContractAtlas.Proofs.Source.Shift
import ContractAtlas.Proofs.Json.Collecting
import ContractAtlas.Proofs.Json.Writable
import ContractAtlas.Proofs.Json.Shift
import ContractAtlas.Proofs.LeadingSpace
import ContractAtlas.Proofs.Schema.Reading
import ContractAtlas.Proofs.Contract.Validation
import ContractAtlas.Proofs.Keywords
import ContractAtlas.Proofs.Analysis
import ContractAtlas.Proofs.Contract.RoundTrip
import ContractAtlas.Proofs.Numeral.Decimal
import ContractAtlas.Proofs.Diagram.FunctionNodes
import ContractAtlas.Proofs.Service.Passage
import ContractAtlas.Proofs.Service.Limiting
import ContractAtlas.Proofs.Text.Quoted
import ContractAtlas.Proofs.Service.Disclosure
import ContractAtlas.Proofs.Source.Leftmost
import ContractAtlas.Proofs.Source.Parts
import ContractAtlas.Proofs.Source.Recognition
import ContractAtlas.Proofs.Source.Placement
import ContractAtlas.Proofs.Source.HeaderItems
import ContractAtlas.Proofs.Inheritance
import ContractAtlas.Proofs.VariableKeywords
import ContractAtlas.Proofs.Interface.Acceptance
import ContractAtlas.Proofs.Schema.Acceptance
import ContractAtlas.Proofs.Service.AccessLog
import ContractAtlas.Proofs.Diagram.Selection
import ContractAtlas.Proofs.Service.FunctionRequests
import ContractAtlas.Proofs.Service.SizeLimit
import ContractAtlas.Proofs.Interface.Restated
import ContractAtlas.Proofs.RestatedEntries
import ContractAtlas.Proofs.Json.Setting
import ContractAtlas.Proofs.Json.Printable
import ContractAtlas.Proofs.Log.ObjectLine
import ContractAtlas.Proofs.Diagram.Layout
import ContractAtlas.Proofs.Interface.Calls
import ContractAtlas.Proofs.Source.License
import ContractAtlas.Proofs.Source.ParameterRendering
import ContractAtlas.Proofs.Text.Summary
