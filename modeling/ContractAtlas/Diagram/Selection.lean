import ContractAtlas.Diagram.Classes
import ContractAtlas.Diagram.Flow
import ContractAtlas.Diagram.StateAccess
import ContractAtlas.Numeral.Integer

/-!
# Selecting diagrams and functions

A view of a contract is asked for by its name, and a function by the written identity
of its node.  The index in that identity may be written with decimal digits of any
script and with leading zeros, but with no more than `Numeral.digitLimit` digits.
-/

namespace ContractAtlas

/-- The views that can be asked for. -/
inductive View where
  | flow
  | classes
  | state
  deriving DecidableEq, Repr

namespace View

def name : View → String
  | .flow => "flow"
  | .classes => "class"
  | .state => "state"

def all : List View := [.flow, .classes, .state]

def ofName? (word : String) : Option View :=
  all.find? (·.name == word)

/-- The diagram of a contract in a view. -/
def diagram (view : View) (contract : Contract) : Diagram :=
  match view with
  | .flow => Diagram.flow contract
  | .classes => Diagram.classes contract
  | .state => Diagram.stateAccess contract

/-- What is said when there is no view of a name. -/
def unknownMessage (word : String) : String :=
  s!"Unknown diagram mode '{word}'. Expected one of: " ++
    Diagram.commaSeparated (all.map name)

@[simp]
theorem ofName?_name (view : View) : ofName? view.name = some view := by
  cases view <;> rfl

end View

/-- Why a written identity selects no function. -/
inductive SelectionError where
  | notFound (id : String)
  | numeralTooLong (count : Nat)
  deriving DecidableEq, Repr

def SelectionError.message : SelectionError → String
  | .notFound id => s!"No function matches diagram node '{id}'."
  | .numeralTooLong count => Numeral.tooLongMessage count

/-- The digits in the written identity of a function's node. -/
def functionDigits? (id : String) : Option (List Char) :=
  let chars := id.toList
  if "function-".toList.isPrefixOf chars then
    let digits := chars.drop "function-".length
    if digits.isEmpty || digits.any fun c => (Text.digitValue? c).isNone then none
    else some digits
  else none

/-- The function whose node has a written identity. -/
def Contract.select (contract : Contract) (id : String) :
    Except SelectionError FunctionRecord :=
  match functionDigits? id with
  | none => .error (.notFound id)
  | some digits =>
    match Numeral.ofDigits digits with
    | .error (.tooLong count) => .error (.numeralTooLong count)
    | .error .malformed => .error (.notFound id)
    | .ok index =>
      match contract.functions[index]? with
      | some function => .ok function
      | none => .error (.notFound id)

end ContractAtlas
