import ContractAtlas.Extraction

/-!
# Canonical sources

A source in canonical form declares one contract: a heading with the contract's name and
its parents, then one line for each state variable, event, modifier and function, and a
closing brace.  All names are identifiers that mean nothing else in a declaration.

    contract Vault is Owned {
    uint256 public constant cap = 10;
    event Paid(address indexed to, uint256 amount);
    modifier onlyOwner() { _; }
    function pay(address to) external payable onlyOwner returns (bool) { }
    }

`Source.text` writes such a source and `Source.extraction` says what it declares.  The
offset of a declaration is the place where its line starts.
-/

namespace ContractAtlas.Canonical

/-! ## Names and types -/

/-- The words that mean something in a declaration. -/
def reservedWords : List String := [
  "contract", "is", "pragma", "modifier", "function", "event", "returns", "anonymous",
  "indexed", "public", "private", "internal", "external", "pure", "view", "nonpayable",
  "payable", "constant", "immutable", "virtual", "override", "memory", "storage", "calldata",
  "mapping"]

/-- ASCII letters, digits and the underscore. -/
def isPlain (c : Char) : Bool :=
  c.isAlphanum || c == '_'

/-- A plain name: it starts with a letter or an underscore and is not reserved. -/
structure Identifier where
  name : String
  starts : name.toList.head?.any (fun c => c.isAlpha || c == '_') = true
  continues : name.toList.all isPlain = true
  free : name ∉ reservedWords
  deriving DecidableEq, Repr

def Identifier.chars (identifier : Identifier) : List Char :=
  identifier.name.toList

/-- A name of a type, or of an array of this type. -/
structure TypeName where
  base : Identifier
  isArray : Bool := false
  deriving DecidableEq, Repr

def TypeName.chars (type : TypeName) : List Char :=
  type.base.chars ++ if type.isArray then ['[', ']'] else []

/-- A non-empty row of digits. -/
structure Digits where
  chars : List Char
  nonempty : chars ≠ []
  digits : chars.all Char.isDigit = true
  deriving DecidableEq, Repr

/-- Items with a comma and a space between neighbours. -/
def commaSeparated : List (List Char) → List Char
  | [] => []
  | [item] => item
  | item :: next :: rest => item ++ ',' :: ' ' :: commaSeparated (next :: rest)

/-! ## Parameters -/

/-- An input of a function or of a modifier. -/
structure Input where
  type : TypeName
  name : Identifier
  deriving DecidableEq, Repr

/-- An input of an event. -/
structure EventInput where
  type : TypeName
  isIndexed : Bool := false
  name : Identifier
  deriving DecidableEq, Repr

/-- A result of a function, with a name or without one. -/
structure Result where
  type : TypeName
  name : Option Identifier := none
  deriving DecidableEq, Repr

def Input.chars (input : Input) : List Char :=
  input.type.chars ++ ' ' :: input.name.chars

def Input.declared (input : Input) : Parameter :=
  { name := input.name.name
    type := String.ofList input.type.chars }

def EventInput.chars (input : EventInput) : List Char :=
  input.type.chars ++
    ' ' :: ((if input.isIndexed then "indexed".toList ++ [' '] else []) ++ input.name.chars)

def EventInput.declared (input : EventInput) : Parameter :=
  { name := input.name.name
    type := String.ofList input.type.chars
    indexed := some input.isIndexed }

def Result.chars (result : Result) : List Char :=
  result.type.chars ++ match result.name with
    | some name => ' ' :: name.chars
    | none => []

def Result.declared (result : Result) : Parameter :=
  { name := (result.name.map (·.name)).getD ""
    type := String.ofList result.type.chars }

/-! ## Declarations -/

/-- A state variable, which is never external. -/
structure Variable where
  type : TypeName
  visibility : Visibility
  stored : visibility ≠ .externally
  isConstant : Bool := false
  name : Identifier
  value : Option Digits := none
  deriving DecidableEq, Repr

structure Event where
  name : Identifier
  inputs : List EventInput := []
  isAnonymous : Bool := false
  deriving DecidableEq, Repr

/-- A modifier, with a parameter list or without one. -/
structure Modifier where
  name : Identifier
  inputs : Option (List Input) := none
  deriving DecidableEq, Repr

structure Function where
  name : Identifier
  inputs : List Input := []
  visibility : Visibility
  mutability : Option Mutability := none
  modifiers : List Identifier := []
  results : Option (List Result) := none
  deriving DecidableEq, Repr

/-- What the form leaves open: the spaces inside the body of a function, and the line
feeds at the end. -/
structure Layout where
  bodySpaces : Nat
  lineFeeds : Nat

/-- The value of a variable, if it has one. -/
def valueClause : Option Digits → List Char
  | some value => ' ' :: '=' :: ' ' :: value.chars
  | none => []

/-- The end of a variable's statement, from its name on. -/
def Variable.named (declaration : Variable) : List Char :=
  declaration.name.chars ++ (valueClause declaration.value ++ [';'])

/-- What stands behind the visibility of a variable. -/
def Variable.qualified (declaration : Variable) : List Char :=
  (if declaration.isConstant then "constant".toList ++ [' '] else []) ++ declaration.named

def Variable.statement (declaration : Variable) : List Char :=
  declaration.type.chars ++ ' ' :: (declaration.visibility.keyword.toList ++
    ' ' :: declaration.qualified)

def Variable.line (declaration : Variable) : List Char :=
  declaration.statement ++ ['\n']

def Event.statement (event : Event) : List Char :=
  "event".toList ++ ' ' :: (event.name.chars ++
    '(' :: (commaSeparated (event.inputs.map (·.chars)) ++
      ')' :: ((if event.isAnonymous then ' ' :: "anonymous".toList else []) ++ [';'])))

def Event.line (event : Event) : List Char :=
  event.statement ++ ['\n']

/-- The parameter list of a modifier, if it has one. -/
def inputsClause : Option (List Input) → List Char
  | some inputs => '(' :: (commaSeparated (inputs.map (·.chars)) ++ [')'])
  | none => []

/-- A modifier up to the brace that opens its body. -/
def Modifier.opening (modifier : Modifier) : List Char :=
  "modifier".toList ++ ' ' :: (modifier.name.chars ++ (inputsClause modifier.inputs ++ [' ', '{']))

def Modifier.line (modifier : Modifier) : List Char :=
  modifier.opening ++ [' ', '_', ';', ' ', '}', '\n']

/-- The words of a header, each with a space behind it. -/
def spacedWords (words : List (List Char)) : List Char :=
  words.flatMap (· ++ [' '])

/-- The words of a function's header behind its visibility: its mutability and its
modifiers. -/
def Function.options (function : Function) : List (List Char) :=
  (function.mutability.map (·.keyword.toList)).toList ++ function.modifiers.map (·.chars)

def Function.words (function : Function) : List (List Char) :=
  function.visibility.keyword.toList :: function.options

def resultsClause : Option (List Result) → List Char
  | some results =>
    "returns".toList ++ ' ' :: '(' :: (commaSeparated (results.map (·.chars)) ++ [')', ' '])
  | none => []

/-- What stands between the visibility of a function and its body. -/
def Function.qualified (function : Function) : List Char :=
  spacedWords function.options ++ resultsClause function.results

/-- What stands between the parameter list of a function and its body. -/
def Function.header (function : Function) : List Char :=
  ' ' :: (spacedWords function.words ++ resultsClause function.results)

/-- A function up to the brace that opens its body. -/
def Function.opening (function : Function) : List Char :=
  "function".toList ++ ' ' :: (function.name.chars ++
    '(' :: (commaSeparated (function.inputs.map (·.chars)) ++ ')' :: (function.header ++ ['{'])))

def Layout.body (layout : Layout) : List Char :=
  List.replicate layout.bodySpaces ' ' ++ ['}', '\n']

def Function.line (layout : Layout) (function : Function) : List Char :=
  function.opening ++ layout.body

/-- A contract with all its declarations. -/
structure Source where
  name : Identifier
  parents : List Identifier := []
  stateVariables : List Variable := []
  events : List Event := []
  modifiers : List Modifier := []
  functions : List Function := []
  deriving DecidableEq, Repr

def inheritanceClause : List Identifier → List Char
  | [] => []
  | parent :: rest =>
    ' ' :: ("is".toList ++ ' ' :: commaSeparated ((parent :: rest).map (·.chars)))

namespace Source

variable (source : Source) (layout : Layout)

def heading : List Char :=
  "contract".toList ++ ' ' :: (source.name.chars ++
    (inheritanceClause source.parents ++ [' ', '{', '\n']))

def variableLines : List Char :=
  source.stateVariables.flatMap (·.line)

def eventLines : List Char :=
  source.events.flatMap (·.line)

def modifierLines : List Char :=
  source.modifiers.flatMap (·.line)

def functionLines : List Char :=
  source.functions.flatMap (·.line layout)

def closing : List Char :=
  '}' :: List.replicate layout.lineFeeds '\n'

/-- Everything behind the state variables. -/
def members : List Char :=
  source.eventLines ++ (source.modifierLines ++ (source.functionLines layout ++ closing layout))

/-- The text of a source. -/
def text : List Char :=
  source.heading ++ (source.variableLines ++ source.members layout)

end Source

example :
    String.ofList (Source.text
      { name := ⟨"Vault", by decide, by decide, by decide⟩
        parents := [⟨"Owned", by decide, by decide, by decide⟩]
        events := [
          { name := ⟨"Paid", by decide, by decide, by decide⟩
            inputs := [
              { type := { base := ⟨"address", by decide, by decide, by decide⟩ }
                isIndexed := true
                name := ⟨"to", by decide, by decide, by decide⟩ }] }] }
      { bodySpaces := 1, lineFeeds := 1 }) =
    "contract Vault is Owned \x7b\nevent Paid(address indexed to);\n\x7d\n" := by decide

/-! ## What a source declares -/

/-- Declarations one behind the other, each of which is told where its line starts. -/
def placed {δ β : Type} (line : δ → List Char) (declare : Nat → δ → β) : Nat → List δ → List β
  | _, [] => []
  | position, declaration :: rest =>
    declare position declaration ::
      placed line declare (position + (line declaration).length) rest

def Variable.declared (position : Nat) (declaration : Variable) : VariableDeclaration :=
  { name := declaration.name.name
    type := String.ofList declaration.type.chars
    visibility := declaration.visibility
    offset := position
    isConstant := declaration.isConstant
    initialValue := declaration.value.map fun value => String.ofList value.chars }

def Event.declared (position : Nat) (event : Event) : EventDeclaration :=
  { name := event.name.name
    offset := position
    inputs := event.inputs.map (·.declared)
    isAnonymous := event.isAnonymous }

def Modifier.declared (position : Nat) (modifier : Modifier) : ModifierDeclaration :=
  { name := modifier.name.name
    parameters := (modifier.inputs.getD []).map (·.declared)
    offset := position }

def Function.declared (position : Nat) (function : Function) : FunctionDeclaration :=
  { name := function.name.name
    offset := position
    inputs := function.inputs.map (·.declared)
    outputs := (function.results.getD []).map (·.declared)
    visibility := function.visibility
    mutability := function.mutability.getD .nonpayable
    modifiers := (function.modifiers.map (·.name)).eraseDups }

/-- Everything that a source declares. -/
def Source.extraction (source : Source) (layout : Layout) : Extraction :=
  let variablesAt := source.heading.length
  let eventsAt := variablesAt + source.variableLines.length
  let modifiersAt := eventsAt + source.eventLines.length
  let functionsAt := modifiersAt + source.modifierLines.length
  { mode := .source
    text := Text.ofChars (source.text layout)
    contractName := source.name.name
    parents := source.parents.map (·.name)
    modifiers := placed Modifier.line Modifier.declared modifiersAt source.modifiers
    functions := placed (Function.line layout) Function.declared functionsAt source.functions
    events := placed Event.line Event.declared eventsAt source.events
    stateVariables := placed Variable.line Variable.declared variablesAt source.stateVariables }

end ContractAtlas.Canonical
