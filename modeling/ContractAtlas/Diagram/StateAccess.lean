import ContractAtlas.Diagram.Flow

/-!
# The state diagram

Which functions change which state variables.  Only functions that assign a variable
appear, and their nodes keep the index that they have in the contract.
-/

namespace ContractAtlas.Diagram

namespace StateAccess

def variableNode (index : Nat) (declaration : VariableRecord) : Node :=
  let value := (Flow.shownValue declaration).getD "(uninitialized)"
  { id := .variable index
    label := lines [declaration.name, declaration.type, value]
    x := 200
    y := index * flowRow
    style := { palette := .green, width := 200 }
    category := some .state }

/-- Whether a function of this name assigns a variable. -/
def assigns (function : FunctionRecord) (declaration : VariableRecord) : Bool :=
  declaration.writtenBy.contains function.name

/-- The functions that assign some variable, with their indices. -/
def writers (contract : Contract) : List (FunctionRecord × Nat) :=
  contract.functions.zipIdx.filter fun (function, _) =>
    contract.stateVariables.any (assigns function)

def writerNode (row : Nat) (writer : FunctionRecord × Nat) : Node :=
  let (function, index) := writer
  { id := .function index
    label := lines [function.name,
      s!"{function.visibility.keyword} {function.mutability.keyword}"]
    x := 500
    y := row * flowRow
    style := { palette := .blue, width := 200 }
    category := some (.flow function.flowCategory) }

/-- The edges from a function to the variables that it assigns. -/
def writerEdges (contract : Contract) (writer : FunctionRecord × Nat) : List Edge :=
  let (function, index) := writer
  (contract.stateVariables.zipIdx.filter fun (declaration, _) => assigns function declaration).map
    fun (_, target) =>
      { source := .function index
        target := .variable target
        stroke := Palette.blue.stroke
        label := "modifies" }

end StateAccess

open Diagram.StateAccess in
/-- The state diagram of a contract. -/
def stateAccess (contract : Contract) : Diagram :=
  { kind := .state
    nodes :=
      contract.stateVariables.mapIdx variableNode ++ (writers contract).mapIdx writerNode
    edges := (writers contract).flatMap (writerEdges contract) }

end ContractAtlas.Diagram
