import ContractAtlas.Contract.Encoding
import ContractAtlas.Diagram.Encoding
import ContractAtlas.Diagram.Focus
import ContractAtlas.Interface.Strings
import ContractAtlas.Journal
import ContractAtlas.Service.Payload
import ContractAtlas.Service.Route
import ContractAtlas.Settings

/-!
# Inquiries

An inquiry is what a request asks for once its path and its payload have been checked.
It is answered by a JSON value, or it fails, and either way it leaves records in the
log.
-/

namespace ContractAtlas.Service

/-- What a request asks for. -/
inductive Inquiry where
  | health
  | analysis (source : String)
  | batch (inputs : List (String × String))
  | functionDiagram (source node : String)
  | diagram (view : View) (source : String)
  deriving DecidableEq, Repr

/-- Why an inquiry has no answer. -/
inductive Failure where
  | refused (refusal : Refusal)
  /-- An error that nobody has foreseen, with its text. -/
  | unexpected (text : String)
  deriving DecidableEq, Repr

/-- The answer to an inquiry, and the records that it leaves. -/
structure Answered where
  answer : Except Failure Json
  records : List Log.Record

namespace Inquiry

/-- The inquiry that a request with some payload makes at an endpoint. -/
def ofPayload (endpoint : Endpoint) (payload : Except PayloadError Payload) :
    Except Rejection Inquiry :=
  match endpoint with
  | .health => .ok .health
  | .analyse => (form sourceForm payload).map .analysis
  | .analyseBatch => (form batchForm payload).map .batch
  | .functionDiagram =>
    (form functionForm payload).map fun (source, node) => .functionDiagram source node
  | .contractDiagram name =>
    (formWith (Schema.Checked.within (.field "path") <|
        Schema.Checked.within (.field "mode") <| viewForm name)
      sourceForm payload).map fun (view, source) => .diagram view source

/-- Whether an inquiry falls under the rate limit. -/
def isLimited : Inquiry → Bool
  | .health => false
  | _ => true

/-- The loggers of the endpoints. -/
def analysisLogger : String := "contractviz.routes.analyze"
def diagramLogger : String := "contractviz.routes.diagrams"

def refusalRecord (refusal : Refusal) : Log.Record :=
  { level := .warning
    logger := "contractviz.middleware.error_handler"
    message := s!"AppException {refusal.code}: {refusal.message}  details=" ++
      refusal.details.display }

/-- An answer, with the records that were left on the way. -/
def answered (records : List Log.Record) (answer : Json) : Answered :=
  ⟨.ok answer, records⟩

/-- Whether all of several strings can be encoded. -/
def areWhole (strings : List Text) : Bool :=
  strings.all fun string => (Text.chars? string).isSome

/-- An answer that tells some strings. -/
def telling (strings : List Text) (records : List Log.Record) (answer : Json) : Answered :=
  if areWhole strings then answered records answer
  else ⟨.error (.unexpected "the answer cannot be encoded"), records⟩

/-- A refusal, which leaves a record of its own. -/
def refused (records : List Log.Record) (refusal : Refusal) : Answered :=
  ⟨.error (.refused refusal), records ++ [refusalRecord refusal]⟩

def healthAnswer : Json :=
  .record [("status", .ofString "ok"), ("version", .ofString version)]

def analysisRecord (source : String) : Log.Record :=
  { level := .info
    logger := analysisLogger
    message := s!"Analyze request  source length={source.length}" }

def batchRecord (count : Nat) : Log.Record :=
  { level := .info
    logger := analysisLogger
    message := s!"Batch analyze request  contracts={count}" }

def functionRecord (node name : String) : Log.Record :=
  { level := .info
    logger := diagramLogger
    message := s!"Function sub-flow  {node} -> {name}" }

def diagramRecord (view : View) (contract : Contract) (diagram : Diagram) : Log.Record :=
  { level := .info
    logger := diagramLogger
    message := s!"Built {view.name} diagram for {contract.name}"
    fields := [("nodes", .int diagram.nodes.length), ("edges", .int diagram.edges.length)] }

open Interface in
/-- The strings of a contract that the answer about it tells. -/
def contractStrings (source : String) : List Text :=
  nameStrings source ++ memberStrings functionStrings source

def answerAnalysis (source : String) : Answered :=
  let records := analysisRecord source :: Journal.analysis source
  match Contract.ofText source with
  | .ok contract => telling (contractStrings source) records (toJson contract)
  | .error error => refused records (.format error)

instance : ToJson NamedContract where
  toJson result := .record [
    ("name", .ofString result.name),
    ("contract", toJson result.contract)]

def batchAnswer (result : BatchResult) : Json :=
  .record [
    ("contracts", .ofRecords result.contracts),
    ("errors", .ofStrings result.errors),
    ("error", .ofOption .ofString result.combinedError)]

open Interface in
/-- The strings of a named source that the answer about its batch tells.  The name it was given
takes the place of its own. -/
def namedStrings (name source : String) : List Text :=
  (if name.isEmpty then nameStrings source else []) ++ memberStrings functionStrings source

def answerBatch (settings : Settings) (inputs : List (String × String)) : Answered :=
  let count := inputs.length
  if settings.maxBatchContracts < count then
    refused [] (.tooManyContracts count settings.maxBatchContracts)
  else
    let records := batchRecord count :: Journal.ofBatch inputs
    match Batch.analyse inputs with
    | .ok result =>
      let strings := (Batch.pending inputs).flatMap fun (name, source) => namedStrings name source
      telling strings records (batchAnswer result)
    | .error error => refused records (.batch error)

/-- The strings of the function that an identity selects. -/
def selectedStrings (source node : String) : List Text :=
  match (functionDigits? node).bind Text.digitsValue? with
  | some index => Interface.stringsOfFunction index source
  | none => []

def answerFunctionDiagram (source node : String) : Answered :=
  let records := Journal.analysis source
  match Contract.ofText source with
  | .error error => refused records (.format error)
  | .ok contract =>
    match contract.select node with
    | .ok function =>
      telling (selectedStrings source node) (records ++ [functionRecord node function.name]) <|
        .record [
          ("function", toJson function),
          ("diagram", (Diagram.focus function).encode .int)]
    | .error (.notFound id) => refused records (.noSuchFunction id)
    | .error (.numeralTooLong count) =>
      ⟨.error (.unexpected (Numeral.tooLongMessage count)), records⟩

open Interface in
/-- The strings of a contract that a view shows.  The view of the state shows none of them. -/
def viewStrings : View → String → List Text
  | .state, _ => []
  | _, source => nameStrings source ++ memberStrings signatureStrings source

def answerDiagram (view : View) (source : String) : Answered :=
  let records := Journal.analysis source
  match Contract.ofText source with
  | .error error => refused records (.format error)
  | .ok contract =>
    let diagram := view.diagram contract
    telling (viewStrings view source) (records ++ [diagramRecord view contract diagram])
      (diagram.encode .int)

/-- The answer to an inquiry. -/
def answer (settings : Settings) : Inquiry → Answered
  | .health => answered [] healthAnswer
  | .analysis source => answerAnalysis source
  | .batch inputs => answerBatch settings inputs
  | .functionDiagram source node => answerFunctionDiagram source node
  | .diagram view source => answerDiagram view source

end Inquiry

end ContractAtlas.Service
