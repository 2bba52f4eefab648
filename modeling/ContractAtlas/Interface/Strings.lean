import ContractAtlas.Extraction

/-!
# Strings of an interface list

The names and the types of parameters in an interface list may hold halves of surrogate pairs,
and so may the name that is given to the contract.  Such strings are taken over as they are, but
they cannot be encoded again: an answer that tells one of them cannot be sent.
-/

namespace ContractAtlas.Interface

/-- The string in a field, empty if there is none. -/
def stringOf (field : String) (value : Json) : Text :=
  match value.field? field with
  | some (.str text) => text
  | _ => []

/-- The parameters in a field. -/
def parametersOf (field : String) (entry : Json) : List Json :=
  ((entry.field? field).bind Json.items?).getD []

/-- The names and the types of the parameters in a field. -/
def parameterStrings (field : String) (entry : Json) : List Text :=
  (parametersOf field entry).flatMap fun value => [stringOf "name" value, stringOf "type" value]

/-- The strings of a function. -/
def functionStrings (entry : Json) : List Text :=
  parameterStrings "inputs" entry ++ parameterStrings "outputs" entry

/-- The strings of a function that its signature shows.  Outputs are shown by their types. -/
def signatureStrings (entry : Json) : List Text :=
  parameterStrings "inputs" entry ++ (parametersOf "outputs" entry).map (stringOf "type")

/-- The entries that declare functions, in the order of the functions. -/
def functionEntries (entries : List Json) : List Json :=
  entries.filter fun entry => (outcome 0 entry).function?.isSome

def eventEntries (entries : List Json) : List Json :=
  entries.filter fun entry => (outcome 0 entry).event?.isSome

/-- The name that a text gives to its contract.  A source names none that could not be
encoded. -/
def nameStrings (text : String) : List Text :=
  match Probe.ofText text with
  | .interface _ name => name.toList
  | _ => []

/-- The strings of the functions and the events that a text declares, with those of each function
that `ofFunction` takes. -/
def memberStrings (ofFunction : Json → List Text) (text : String) : List Text :=
  match Probe.ofText text with
  | .interface entries _ =>
    (functionEntries entries).flatMap ofFunction ++
      (eventEntries entries).flatMap (parameterStrings "inputs")
  | _ => []

/-- The strings of one of the functions that a text declares. -/
def stringsOfFunction (index : Nat) (text : String) : List Text :=
  match Probe.ofText text with
  | .interface entries _ => ((functionEntries entries)[index]?.map functionStrings).getD []
  | _ => []

end ContractAtlas.Interface
