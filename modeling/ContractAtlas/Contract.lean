import ContractAtlas.Finding
import ContractAtlas.Role

/-!
# Analysed contracts

The declarations of a contract together with everything derived from them:
references, roles, findings.  A contract is a plain value; it keeps neither the text
it comes from nor the places of its declarations.
-/

namespace ContractAtlas

/-- A function with its roles and the functions it calls.  There is always at least one
role. -/
structure FunctionRecord where
  name : String
  inputs : List Parameter := []
  outputs : List Parameter := []
  mutability : Mutability := .nonpayable
  visibility : Visibility := .publicly
  modifiers : List String := []
  isPayable : Bool := false
  roles : List String := ["user"]
  flowCategory : FlowCategory := .user
  calls : List String := []
  deriving DecidableEq, Repr

/-- An event with the functions that emit it. -/
structure EventRecord where
  name : String
  inputs : List Parameter := []
  isAnonymous : Bool := false
  emittedBy : List String := []
  deriving DecidableEq, Repr

/-- A state variable with the functions that read or assign it. -/
structure VariableRecord where
  name : String
  type : String
  visibility : Visibility
  isConstant : Bool := false
  initialValue : Option String := none
  readBy : List String := []
  writtenBy : List String := []
  deriving DecidableEq, Repr

/-- An analysed contract. -/
structure Contract where
  name : String
  version : String := "Unknown"
  license : Option String := none
  parents : List String := []
  modifiers : List String := []
  functions : List FunctionRecord := []
  events : List EventRecord := []
  stateVariables : List VariableRecord := []
  roles : RoleTable := []
  findings : List Finding := []
  hasOwnership : Bool := false
  hasAccessControl : Bool := false
  deriving DecidableEq, Repr

namespace Extraction

variable (extraction : Extraction)

/-- The roles of a function. -/
def rolesOf (function : FunctionDeclaration) : List String :=
  Role.classify function.name (extraction.scopeOf function)

/-- A function with everything derived about it. -/
def functionRecord (function : FunctionDeclaration) : FunctionRecord :=
  let roles := extraction.rolesOf function
  { name := function.name
    inputs := function.inputs
    outputs := function.outputs
    mutability := function.mutability
    visibility := function.visibility
    modifiers := function.modifiers
    isPayable := function.mutability = .payable
    roles
    flowCategory := Role.flowCategory roles function.mutability
    calls := extraction.callsOf function }

def eventRecord (event : EventDeclaration) : EventRecord :=
  { name := event.name
    inputs := event.inputs
    isAnonymous := event.isAnonymous
    emittedBy := extraction.emittersOf event }

def variableRecord (declaration : VariableDeclaration) : VariableRecord :=
  { name := declaration.name
    type := declaration.type
    visibility := declaration.visibility
    isConstant := declaration.isConstant
    initialValue := declaration.initialValue
    readBy := extraction.readersOf declaration
    writtenBy := extraction.writersOf declaration }

/-- The analysed contract. -/
def contract : Contract :=
  let functions := extraction.functions.map extraction.functionRecord
  { name := extraction.contractName
    version := extraction.version
    license := extraction.license
    parents := extraction.parents
    modifiers := extraction.modifiers.map (·.name)
    functions
    events := extraction.events.map extraction.eventRecord
    stateVariables := extraction.stateVariables.map extraction.variableRecord
    roles := functions.foldl (fun table function => table.add function.name function.roles) []
    findings := extraction.scan Rule.catalog
    hasOwnership := functions.any (·.roles.contains Role.owner)
    hasAccessControl := functions.any (·.roles.contains Role.admin) }

end Extraction

namespace Contract

/-- The analysis of a text in either form. -/
def ofText (text : String) : Except FormatError Contract :=
  (Extraction.ofText text).map (·.contract)

/-- The analysis of source text. -/
def ofSource (text : String) : Except FormatError Contract :=
  (Extraction.ofSource text).map (·.contract)

/-- The analysis of an interface list. -/
def ofInterface (entries : List Json) : Contract :=
  (Extraction.ofInterface entries).contract

/-- The index of the first function with a name. -/
def functionIndex? (contract : Contract) (name : String) : Option Nat :=
  contract.functions.findIdx? (·.name == name)

def functionNames (contract : Contract) : List String :=
  unique (contract.functions.map (·.name))

end Contract

end ContractAtlas
