import ContractAtlas.Diagram.Basic

/-!
# The diagram of one function

The function stands at the top, with its inputs to the left and its modifiers to the
right one row below.  Its calls follow underneath, and its outputs come last.  Inputs
feed the function; everything else hangs off it.
-/

namespace ContractAtlas.Diagram

namespace Focus

/-- The distance between rows. -/
def row : Int := 80

/-- The row of the first input and the first modifier. -/
def firstRow : Int := 100

variable (function : FunctionRecord)

/-- The row of the first call: below the inputs and modifiers, if there is any call. -/
def callRow : Int :=
  if function.calls.isEmpty then firstRow
  else firstRow + (max function.inputs.length function.modifiers.length : Nat) * row + 50

/-- The row of the first output: below the calls, with one row kept free if there are
none. -/
def outputRow : Int :=
  callRow function + (max function.calls.length 1 : Nat) * row + 50

def focusNode : Node :=
  { id := .focus
    label := lines [function.name,
      s!"{function.visibility.keyword} {function.mutability.keyword}"]
    x := 250
    y := 0
    style := { palette := .blue, width := 200 }
    category := some (.flow function.flowCategory) }

def inputNode (index : Nat) (input : Parameter) : Node :=
  { id := .input index
    label := lines ["Input: " ++ input.name, "Type: " ++ input.type]
    x := 50
    y := firstRow + index * row
    style := { palette := .grey, width := 150, border := 1 }
    category := some .input }

def modifierNode (index : Nat) (modifier : String) : Node :=
  { id := .modifier index
    label := "Modifier: " ++ modifier
    x := 450
    y := firstRow + index * row
    style := { palette := .orange, width := 150 }
    category := some .modifier }

def callNode (index : Nat) (call : String) : Node :=
  { id := .call index
    label := "Calls: " ++ call
    x := 250
    y := callRow function + index * row
    style := { palette := .green, width := 150 }
    category := some .call }

def outputNode (index : Nat) (output : Parameter) : Node :=
  let name := if output.name.isEmpty then "return" else output.name
  { id := .output index
    label := lines ["Output: " ++ name, "Type: " ++ output.type]
    x := 250
    y := outputRow function + index * row
    style := { palette := .grey, width := 150, border := 1 }
    category := some .output }

/-- An edge for each of a number of nodes. -/
def fan (count : Nat) (edge : Nat → Edge) : List Edge :=
  (List.range count).map edge

end Focus

open Diagram.Focus in
/-- The diagram of a function. -/
def focus (function : FunctionRecord) : Diagram :=
  { kind := .function
    nodes :=
      [focusNode function] ++
      function.inputs.mapIdx inputNode ++
      function.modifiers.mapIdx modifierNode ++
      function.calls.mapIdx (callNode function) ++
      function.outputs.mapIdx (outputNode function)
    edges :=
      fan function.inputs.length (fun index => { source := .input index, target := .focus }) ++
      fan function.modifiers.length
        (fun index => { source := .focus, target := .modifier index }) ++
      fan function.calls.length (fun index => { source := .focus, target := .call index }) ++
      fan function.outputs.length
        (fun index => { source := .focus, target := .output index }) }

end ContractAtlas.Diagram
