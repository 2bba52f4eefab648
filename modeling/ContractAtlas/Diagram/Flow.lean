import ContractAtlas.Diagram.Basic

/-!
# The flow diagram

Everything hangs off the contract: its roles on the left with a summary of the state
below them, its functions in the middle, its events on the right, and one node for
all security findings.  Functions point at the functions they call, at the events they
emit and, if a finding affects them, at the security node.  A name stands for the
first function that has it.
-/

namespace ContractAtlas.Diagram

/-- The distance between rows of functions or events. -/
def flowRow : Int := 150

namespace Flow

variable (contract : Contract)

def contractLabel : String :=
  lines <| [contract.name, "Version: " ++ contract.version] ++
    (if contract.parents.isEmpty then []
      else ["Inherits: " ++ commaSeparated contract.parents]) ++
    match contract.license with
    | some license => if license.isEmpty then [] else ["License: " ++ license]
    | none => []

def contractNode : Node :=
  { id := .contract
    label := contractLabel contract
    x := 250
    y := 0
    style := { palette := .blue, width := 300 } }

def roleNode (index : Nat) (role : RoleRecord) : Node :=
  { id := .role role.name
    label := lines ["Role: " ++ role.name, s!"Functions: {role.functions.length}"]
    x := -300
    y := flowRow + index * 100
    style := { palette := .grey, width := 200 }
    category := some .role }

/-- An initial value counts only if there is something to show. -/
def shownValue (declaration : VariableRecord) : Option String :=
  declaration.initialValue.filter fun value => !value.isEmpty

def variableSummary (declaration : VariableRecord) : String :=
  let initial := match shownValue declaration with
    | some value => " = " ++ value
    | none => ""
  lines [
    s!"{declaration.visibility.keyword} {declaration.type} {declaration.name}{initial}",
    s!"Accessed by: {declaration.readBy.length} functions",
    s!"Modified by: {declaration.writtenBy.length} functions"]

def stateNode : Node :=
  { id := .state
    label := "State Variables\n" ++
      "\n\n".intercalate (contract.stateVariables.map variableSummary)
    x := -200
    y := flowRow
    style := { palette := .grey, width := 250, border := 1 }
    category := some .state }

def functionLabel (function : FunctionRecord) : String :=
  lines <| [s!"{function.name}(" ++ signature function.inputs ++ ")"] ++
    (if function.outputs.isEmpty then []
      else ["→ " ++ commaSeparated (function.outputs.map (·.type))]) ++
    [s!"{function.visibility.keyword} {function.mutability.keyword}",
      "Role: " ++ commaSeparated function.roles] ++
    (if function.modifiers.isEmpty then []
      else ["Modifiers: " ++ commaSeparated function.modifiers]) ++
    (if function.calls.isEmpty then []
      else ["Calls: " ++ commaSeparated function.calls])

def functionNode (index : Nat) (function : FunctionRecord) : Node :=
  { id := .function index
    label := functionLabel function
    x := 250
    y := flowRow + index * flowRow
    style := { palette := .ofFlow function.flowCategory, width := 300 }
    category := some (.flow function.flowCategory) }

/-- The edges to the functions that a function calls, and the one from the contract. -/
def functionEdges (index : Nat) (function : FunctionRecord) : List Edge :=
  let stroke := (Palette.ofFlow function.flowCategory).stroke
  (function.calls.filterMap contract.functionIndex?).map (fun target =>
      { source := .function index, target := .function target, stroke }) ++
    [{ source := .contract, target := .function index, stroke }]

def eventInput (input : Parameter) : String :=
  let mark := if input.indexed = some true then "(indexed) " else ""
  s!"{input.type} {mark}{input.name}"

def eventLabel (event : EventRecord) : String :=
  lines (("Event: " ++ event.name) :: event.inputs.map eventInput) ++
    (if event.isAnonymous then "\nanonymous" else "") ++
    (if event.emittedBy.isEmpty then "" else "\n\nEmitted by:\n" ++ lines event.emittedBy)

def eventNode (index : Nat) (event : EventRecord) : Node :=
  { id := .event index
    label := eventLabel event
    x := 700
    y := 100 + index * flowRow
    style := { palette := .orange, width := 250 }
    category := some .event }

/-- The indices of the functions that some names stand for, each once. -/
def functionIndices (names : List String) : List Nat :=
  (names.filterMap contract.functionIndex?).eraseDups

/-- One edge from each of several functions, and one from the contract. -/
def edgesInto (target : NodeId) (functions : List Nat) (stroke : String) : List Edge :=
  functions.map (fun index => { source := .function index, target, stroke }) ++
    [{ source := .contract, target, stroke }]

def eventEdges (index : Nat) (event : EventRecord) : List Edge :=
  edgesInto (.event index) (functionIndices contract event.emittedBy) Palette.orange.stroke

def findingSummary (finding : Finding) : String :=
  s!"[{finding.severity.name}] {finding.description}\n" ++
    if finding.affectedFunctions.isEmpty then ""
    else "Affected: " ++ commaSeparated finding.affectedFunctions

/-- The security node stands below the functions, and never above row 500. -/
def securityNode : Node :=
  { id := .security
    label := "Security Issues\n" ++
      "\n\n".intercalate (contract.findings.map findingSummary)
    x := -200
    y := max (flowRow + contract.functions.length * flowRow) 500
    style := { palette := .red, width := 300 }
    category := some .security }

def securityEdges : List Edge :=
  edgesInto .security
    (functionIndices contract (contract.findings.flatMap (·.affectedFunctions)))
    Palette.red.stroke

def roleEdge (role : RoleRecord) : Edge :=
  { source := .contract, target := .role role.name, stroke := Palette.grey.stroke }

def stateEdge : Edge :=
  { source := .contract, target := .state, stroke := Palette.grey.stroke, animated := false }

end Flow

open Diagram.Flow in
/-- The flow diagram of a contract. -/
def flow (contract : Contract) : Diagram :=
  let hasState := !contract.stateVariables.isEmpty
  let hasFindings := !contract.findings.isEmpty
  { kind := .flow
    nodes :=
      [contractNode contract] ++
      contract.roles.mapIdx roleNode ++
      (if hasState then [stateNode contract] else []) ++
      contract.functions.mapIdx functionNode ++
      contract.events.mapIdx eventNode ++
      (if hasFindings then [securityNode contract] else [])
    edges :=
      contract.roles.map roleEdge ++
      (if hasState then [stateEdge] else []) ++
      (contract.functions.mapIdx (functionEdges contract)).flatten ++
      (contract.events.mapIdx (eventEdges contract)).flatten ++
      (if hasFindings then securityEdges contract else []) }

end ContractAtlas.Diagram
