import ContractAtlas.Interface.Entry
import ContractAtlas.Json.Reader
import ContractAtlas.Source.Heading
import ContractAtlas.Source.Member
import ContractAtlas.Source.Variable
import ContractAtlas.Text.Summary

/-!
# Extraction

A contract is given as an interface list in JSON, alone or inside the object that a
compiler writes, or as source text.  Text that is JSON is never read as a source.  A
list that does not come from a text is extracted only if it can be written.

The scope of a declaration is what follows it: no braces are matched, so it reaches
from the declaration's first character to the end of the text.  In an interface list
it is the entry.
-/

namespace ContractAtlas

/-- The two forms in which a contract is given. -/
inductive Mode where
  | interface
  | source
  deriving DecidableEq, Repr

def Mode.name : Mode → String
  | .interface => "interface"
  | .source => "source"

/-- Everything that was recognised in one text. -/
structure Extraction where
  mode : Mode
  text : Text
  contractName : String := "Contract"
  version : String := "Unknown"
  license : Option String := none
  parents : List String := []
  modifiers : List ModifierDeclaration := []
  functions : List FunctionDeclaration := []
  events : List EventDeclaration := []
  stateVariables : List VariableDeclaration := []
  deriving DecidableEq, Repr

/-- Why a text is no contract. -/
inductive FormatFault where
  | blank
  | noDeclarations
  | notInterface
  | tooDeep
  deriving DecidableEq, Repr

def FormatFault.reason : FormatFault → String
  | .blank => "input is empty"
  | .noDeclarations => "no contract declarations found in source text"
  | .notInterface => "JSON input must be an interface list"
  | .tooDeep => "input nests too deeply"

/-- A text that is no contract, for the given reason. -/
structure FormatError where
  fault : FormatFault
  summary : String
  deriving DecidableEq, Repr

namespace FormatError

def ofText (fault : FormatFault) (text : String) : FormatError :=
  ⟨fault, String.ofList (Text.summarize Text.summaryLimit text.toList)⟩

def message (error : FormatError) : String :=
  "Invalid contract format: " ++ error.fault.reason

end FormatError

/-- What a text turns out to be, before its declarations are looked for. -/
inductive Probe where
  | interface (entries : List Json) (contractName : Option Text)
  | source
  | refused (fault : FormatFault)

/-- A list is an interface list, and an object with a list under `abi` holds one.  The
object may name the contract.  Text that is no JSON is a source. -/
def Probe.ofText (text : String) : Probe :=
  match Json.read text.toList with
  | .error .tooDeep => .refused .tooDeep
  | .error _ => .source
  | .ok value =>
    match value with
    | .arr entries => .interface entries none
    | _ =>
      match value.field? "abi" with
      | some (.arr entries) =>
        let name := match value.field? "contractName" with
          | some (.str name) => if name.isEmpty then none else some name
          | _ => none
        .interface entries name
      | _ => .refused .notInterface

namespace Extraction

/-- Extraction from the entries of an interface list. -/
def ofEntries (text : Text) (entries : List Json) (contractName : Option Text) : Extraction :=
  { mode := .interface
    text
    contractName := (contractName.map Text.shown).getD "Contract"
    functions := Interface.functions entries
    events := Interface.events entries }

/-- The extraction from an interface list that can be written. -/
def ofInterface (entries : List Json) : Extraction :=
  ofEntries (Json.arr entries).compact entries none

/-- Extraction from an interface list that need not come from a text.  The list is written
first, and what is written of its entries is part of that. -/
def ofList (entries : List Json) : Except Json.WriteFault Extraction := do
  let text ← (Json.arr entries).written .compact
  return ofEntries text entries none

/-- Extraction from a text that is no JSON. -/
def ofDeclarations (text : String) : Except FormatError Extraction :=
  let chars := text.toList
  let title := Source.first? Source.titleShape chars
  let modifiers := Source.modifiers chars
  let functions := Source.functions chars
  let events := Source.events chars
  let stateVariables := Source.stateVariables chars
  if title.isNone && modifiers.isEmpty && functions.isEmpty && events.isEmpty &&
      stateVariables.isEmpty then
    .error (.ofText .noDeclarations text)
  else
    .ok {
      mode := .source
      text := Text.ofChars chars
      contractName := (title.map (·.name)).getD "Contract"
      version := (Source.first? Source.versionShape chars).getD "Unknown"
      license := Source.first? Source.licenseShape chars
      parents := (title.map (·.parents)).getD []
      modifiers, functions, events, stateVariables }

/-- Extraction from source text. -/
def ofSource (text : String) : Except FormatError Extraction :=
  if Text.allBlank text.toList then .error (.ofText .blank text) else ofDeclarations text

/-- Extraction from a text in either form. -/
def ofText (text : String) : Except FormatError Extraction :=
  if Text.allBlank text.toList then .error (.ofText .blank text)
  else
    match Probe.ofText text with
    | .interface entries name => .ok (ofEntries (Text.ofString text) entries name)
    | .source => ofDeclarations text
    | .refused fault => .error (.ofText fault text)

/-- The scope of a declaration, from its offset or its entry. -/
def scope (extraction : Extraction) (offset : Nat) (entry : Option Text) : Text :=
  entry.getD (extraction.text.drop offset)

def scopeOf (extraction : Extraction) (function : FunctionDeclaration) : Text :=
  extraction.scope function.offset function.entry

end Extraction

end ContractAtlas
