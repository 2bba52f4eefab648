import ContractAtlas.Declaration
import ContractAtlas.Json.Writer
import ContractAtlas.Schema.Decoder

/-!
# Interface entries

A compiler describes a contract's interface as a JSON list.  An entry of type
`function` or `event` with a name declares one; every other entry is skipped, and so
is an entry in which anything is malformed.  What an entry says beyond the known
fields is ignored.

Old lists say with the flags `constant` and `payable` what newer ones say with
`stateMutability`.
-/

namespace ContractAtlas.Interface

open ContractAtlas.Schema

/-- What becomes of one entry of an interface list. -/
inductive Outcome where
  /-- The entry declares neither a function nor an event. -/
  | unrelated
  | malformed (fault : Fault)
  | function (declaration : FunctionDeclaration)
  | event (declaration : EventDeclaration)

/-- A name of at least one character, without halves of surrogate pairs. -/
def entryName : Decoder String
  | .str value =>
    match value.string? with
    | none => .fault .notUnicode
    | some "" => .fault (.stringTooShort 1)
    | some name => .valid name
  | _ => .fault .notString

/-- A parameter of an entry; absent names and types are empty. -/
def entryParameter : Decoder Parameter :=
  object (.notRecord "EntryParameter") fun record =>
    Parameter.mk
      <$> (Option.getD · "") <$> optional "name" none (nullable text) record
      <*> (Option.getD · "") <$> optional "type" none (nullable text) record
      <*> optional "indexed" none (nullable flag) record

/-- The parameters in a field, none if it is absent or null. -/
def entryParameters (name : String) : Decoder (List Parameter) := fun record =>
  (Option.getD · []) <$>
    optional name none (nullable (arrayOf .notList entryParameter)) record

/-- A keyword in a field, if it is one of those that `ofKeyword?` knows. -/
def entryKeyword? {α : Type} (name : String) (ofKeyword? : String → Option α)
    (entry : Json) : Option α :=
  entry.field? name >>= Json.string? >>= ofKeyword?

/-- The mutability of a function: the one it states, or else the one that its flags
stand for. -/
def entryMutability (stated : Option Mutability) (constant payable : Option Bool) :
    Mutability :=
  stated.getD <|
    if payable = some true then .payable
    else if constant = some true then .view
    else .nonpayable

/-- A parameter of a function, which is never indexed. -/
def functionParameter (parameter : Parameter) : Parameter :=
  { parameter with indexed := none }

/-- An input of an event, which is indexed or not. -/
def eventParameter (parameter : Parameter) : Parameter :=
  { parameter with indexed := some (parameter.indexed.getD false) }

def functionEntry (position : Nat) : Decoder FunctionDeclaration := fun entry =>
  let declare (name : String) (inputs outputs : List Parameter)
      (constant payable : Option Bool) : FunctionDeclaration :=
    { name
      offset := position
      inputs := inputs.map functionParameter
      outputs := outputs.map functionParameter
      visibility := (entryKeyword? "visibility" Visibility.ofKeyword? entry).getD .publicly
      mutability := entryMutability
        (entryKeyword? "stateMutability" Mutability.ofKeyword? entry) constant payable
      entry := some entry.compact }
  declare
    <$> required "name" entryName entry
    <*> entryParameters "inputs" entry
    <*> entryParameters "outputs" entry
    <*> optional "constant" none (nullable flag) entry
    <*> optional "payable" none (nullable flag) entry

def eventEntry (position : Nat) : Decoder EventDeclaration := fun entry =>
  let declare (name : String) (inputs : List Parameter) (isAnonymous : Option Bool) :
      EventDeclaration :=
    { name
      offset := position
      inputs := inputs.map eventParameter
      isAnonymous := isAnonymous.getD false
      entry := some entry.compact }
  declare
    <$> required "name" entryName entry
    <*> entryParameters "inputs" entry
    <*> optional "anonymous" none (nullable flag) entry

/-- An outcome from a checked declaration; the first fault is the one that is told. -/
def Outcome.ofChecked {α : Type} (accept : α → Outcome) : Checked α → Outcome
  | .valid declaration => accept declaration
  | .invalid (issue :: _) => .malformed issue.fault
  | .invalid [] => .unrelated

/-- What becomes of the entry at a position. -/
def outcome (position : Nat) (entry : Json) : Outcome :=
  match entry.field? "type" >>= Json.string? with
  | some "function" => .ofChecked .function (functionEntry position entry)
  | some "event" => .ofChecked .event (eventEntry position entry)
  | _ => .unrelated

/-- What becomes of the entries of a list, in their order. -/
def outcomes (entries : List Json) : List Outcome :=
  entries.zipIdx.map fun (entry, position) => outcome position entry

def Outcome.function? : Outcome → Option FunctionDeclaration
  | .function declaration => some declaration
  | _ => none

def Outcome.event? : Outcome → Option EventDeclaration
  | .event declaration => some declaration
  | _ => none

/-- The functions that the entries of a list declare. -/
def functions (entries : List Json) : List FunctionDeclaration :=
  (outcomes entries).filterMap Outcome.function?

/-- The events that the entries of a list declare. -/
def events (entries : List Json) : List EventDeclaration :=
  (outcomes entries).filterMap Outcome.event?

end ContractAtlas.Interface
