import ContractAtlas.Source.FunctionHeader

/-!
# Functions, events and modifiers

The members of a contract that a keyword introduces.  A function is recognised
up to the brace that opens its body, an event up to its semicolon, and a modifier
up to the brace that opens its body.
-/

namespace ContractAtlas.Source

open ContractAtlas.Text

/-- The parts of a function up to its body: name, parameter list and header. -/
structure FunctionParts where
  name : List Char
  parameters : List Char
  header : List Char

def functionShape : Shape FunctionParts := fun before text => do
  let (name, rest) ← name? (← blanks? (← keyword? "function" before text))
  let (parameters, rest) ← enclosed? (trimStart rest)
  let (header, rest) ← upToBody? rest
  return (⟨name, parameters, header⟩, rest)

def declaredFunction (found : Occurrence FunctionParts) : FunctionDeclaration :=
  let header := functionHeader found.value.header
  { name := String.ofList found.value.name
    offset := found.start
    inputs := parameters found.value.parameters
    outputs := header.outputs
    visibility := header.visibility
    mutability := header.mutability
    modifiers := header.modifiers }

def functions (text : List Char) : List FunctionDeclaration :=
  (occurrences functionShape text).map declaredFunction

/-- The parts of an event: name, parameter list, and whether it is anonymous. -/
structure EventParts where
  name : List Char
  parameters : List Char
  isAnonymous : Bool

def eventShape : Shape EventParts := fun before text => do
  let (name, rest) ← name? (← blanks? (← keyword? "event" before text))
  let (parameters, rest) ← enclosed? (trimStart rest)
  let rest := trimStart rest
  match after? "anonymous" rest with
  | some rest => return (⟨name, parameters, true⟩, ← mark? ';' (trimStart rest))
  | none => return (⟨name, parameters, false⟩, ← mark? ';' rest)

def declaredEvent (found : Occurrence EventParts) : EventDeclaration :=
  { name := String.ofList found.value.name
    offset := found.start
    inputs := eventParameters found.value.parameters
    isAnonymous := found.value.isAnonymous }

def events (text : List Char) : List EventDeclaration :=
  (occurrences eventShape text).map declaredEvent

/-- The parts of a modifier: name and parameter list. -/
structure ModifierParts where
  name : List Char
  parameters : List Char

/-- The word `modifier`, a name, and a parameter list if one can be read before the
body; a parenthesis that does not close in time is passed over like any other
character. -/
def modifierShape : Shape ModifierParts := fun before text => do
  let (name, rest) ← name? (← blanks? (← keyword? "modifier" before text))
  let withParameters := do
    let (parameters, rest) ← enclosed? (trimStart rest)
    let (_, rest) ← upToBody? rest
    return (⟨name, parameters⟩, rest)
  withParameters <|> do
    let (_, rest) ← upToBody? rest
    return (⟨name, []⟩, rest)

def declaredModifier (found : Occurrence ModifierParts) : ModifierDeclaration :=
  { name := String.ofList found.value.name
    parameters := parameters found.value.parameters
    offset := found.start }

def modifiers (text : List Char) : List ModifierDeclaration :=
  (occurrences modifierShape text).map declaredModifier

end ContractAtlas.Source
