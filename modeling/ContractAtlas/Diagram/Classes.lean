import ContractAtlas.Diagram.Flow

/-!
# The class diagram

The structure of a contract without its behaviour: one box with compartments for
attributes and operations, a box for each parent above it, and a box for each event on
the right.  Only inheritance is drawn; an edge runs from the parent to the contract.
-/

namespace ContractAtlas.Diagram

namespace Classes

/-- Private members are marked with a minus, all others with a plus. -/
def marker : Visibility → String
  | .privately => "-"
  | _ => "+"

def rule (length : Nat) : String :=
  String.ofList (List.replicate length '-')

/-- A typed name with the name first. -/
def nameAndType (name type : String) : String :=
  s!"{name}: {type}"

def variableText (declaration : VariableRecord) : String :=
  marker declaration.visibility ++ " " ++ nameAndType declaration.name declaration.type

/-- The types of the results; a function without results, or with a single result of no
type, returns nothing. -/
def resultText (outputs : List Parameter) : String :=
  let types := commaSeparated (outputs.map (·.type))
  if types.isEmpty then "void" else types

def operation (function : FunctionRecord) : String :=
  let inputs := commaSeparated <| function.inputs.map fun input =>
    nameAndType input.name input.type
  let results := resultText function.outputs
  s!"{marker function.visibility} {function.name}({inputs}): {results}"

def contractLabel (contract : Contract) : String :=
  lines [contract.name, rule 30, lines (contract.stateVariables.map variableText), rule 30,
    lines (contract.functions.map operation)]

def contractNode (contract : Contract) : Node :=
  { id := .contract
    label := contractLabel contract
    x := 300
    y := 0
    style := { palette := .blue, width := 400, monospace := true }
    category := some .contract }

def parentNode (index : Nat) (parent : String) : Node :=
  { id := .parent index
    label := parent
    x := 300 + index * 200
    y := -100
    style := { palette := .grey, width := 150 }
    category := some .parent }

def parentEdge (index : Nat) : Edge :=
  { source := .parent index
    target := .contract
    stroke := Palette.grey.stroke
    animated := false }

def eventField (input : Parameter) : String :=
  "+ " ++ nameAndType input.name input.type ++
    if input.indexed = some true then " (indexed)" else ""

def eventNode (index : Nat) (event : EventRecord) : Node :=
  { id := .event index
    label := lines ["«event»", event.name, rule 20, lines (event.inputs.map eventField)]
    x := 800
    y := 100 + index * flowRow
    style := { palette := .orange, width := 250, monospace := true }
    category := some .event }

end Classes

open Diagram.Classes in
/-- The class diagram of a contract. -/
def classes (contract : Contract) : Diagram :=
  { kind := .classes
    nodes :=
      [contractNode contract] ++
      contract.parents.mapIdx parentNode ++
      contract.events.mapIdx eventNode
    edges := (List.range contract.parents.length).map parentEdge }

end ContractAtlas.Diagram
