import ContractAtlas.Extraction

/-!
# References

Which function calls, reads, assigns and emits what.  A scope refers to a name as
soon as the name occurs anywhere in it: a call is the name with an opening
parenthesis, an assignment the name with an equals sign behind a space, an emission
the name behind the word `emit`.  Comments and strings count, and in a source
everything behind a declaration belongs to its scope.

Names are listed once each, in the order of their first declaration.
-/

namespace ContractAtlas

/-- Whether a part occurs in a list. -/
def occursIn {α : Type} [BEq α] (part : List α) : List α → Bool
  | [] => part.isEmpty
  | a :: rest => part.isPrefixOf (a :: rest) || occursIn part rest

theorem occursIn_iff {α : Type} [BEq α] [LawfulBEq α] {part list : List α} :
    occursIn part list = true ↔ part <:+: list := by
  induction list with
  | nil => simp [occursIn]
  | cons a rest ih => simp [occursIn, ih, List.infix_cons_iff]

/-- Whether a string occurs in a text. -/
def Text.mentions (text : Text) (string : String) : Bool :=
  occursIn (Text.ofString string) text

/-- Each name once, where it is seen first. -/
def unique (names : List String) : List String :=
  names.eraseDups

/-- The references between the declarations of a contract, each list in the order of
the declarations it belongs to. -/
structure References where
  /-- For every function, the functions it calls. -/
  calls : List (List String)
  /-- For every state variable, the functions that read it. -/
  readBy : List (List String)
  /-- For every state variable, the functions that assign it. -/
  writtenBy : List (List String)
  /-- For every event, the functions that emit it. -/
  emittedBy : List (List String)
  deriving DecidableEq, Repr

namespace Extraction

variable (extraction : Extraction)

/-- The names of the functions, each once. -/
def knownNames : List String :=
  unique (extraction.functions.map (·.name))

/-- The functions in whose scope a string occurs, by their names. -/
def mentioningFunctions (string : String) : List String :=
  unique <| (extraction.functions.filter fun function =>
    (extraction.scopeOf function).mentions string).map (·.name)

/-- The other functions whose names occur in a function's scope with an opening
parenthesis. -/
def callsOf (function : FunctionDeclaration) : List String :=
  let scope := extraction.scopeOf function
  extraction.knownNames.filter fun other =>
    other ≠ function.name && scope.mentions (other ++ "(")

def readersOf (declaration : VariableDeclaration) : List String :=
  extraction.mentioningFunctions declaration.name

def writersOf (declaration : VariableDeclaration) : List String :=
  extraction.mentioningFunctions (declaration.name ++ " =")

/-- The functions that emit an event.  In an interface list those whose names occur in
the event's entry; in a source all of them, if the event is emitted anywhere. -/
def emittersOf (event : EventDeclaration) : List String :=
  match event.entry with
  | some entry => extraction.knownNames.filter fun name => entry.mentions name
  | none =>
    if extraction.text.mentions ("emit " ++ event.name) then extraction.knownNames else []

/-- All references of a contract. -/
def references : References :=
  { calls := extraction.functions.map extraction.callsOf
    readBy := extraction.stateVariables.map extraction.readersOf
    writtenBy := extraction.stateVariables.map extraction.writersOf
    emittedBy := extraction.events.map extraction.emittersOf }

end Extraction

theorem Text.mentions_iff {text : Text} {string : String} :
    text.mentions string = true ↔ Text.ofString string <:+: text := by
  exact occursIn_iff

end ContractAtlas
