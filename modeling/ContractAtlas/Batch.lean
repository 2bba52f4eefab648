import ContractAtlas.Contract

/-!
# Batches

Several named texts are analysed independently of each other.  Blank texts are passed
over.  A text that is no contract is told in an error of its own; a batch as a whole
fails only if nothing in it succeeds.  A contract takes the name that it was submitted
under, if there is one.
-/

namespace ContractAtlas

/-- A contract under the name that it was submitted with, or else under its own. -/
structure NamedContract where
  name : String
  contract : Contract
  deriving DecidableEq, Repr

/-- What became of one text of a batch. -/
inductive BatchOutcome where
  | analysed (result : NamedContract)
  | failed (name : String) (error : FormatError)
  deriving DecidableEq, Repr

namespace BatchOutcome

def result? : BatchOutcome → Option NamedContract
  | .analysed result => some result
  | .failed .. => none

/-- What is said about a text that failed. -/
def errorText? : BatchOutcome → Option String
  | .analysed _ => none
  | .failed name error => some (s!"Error analyzing {name}: " ++ error.message)

end BatchOutcome

/-- The outcomes of a batch in which something succeeded. -/
structure BatchResult where
  contracts : List NamedContract
  errors : List String
  deriving DecidableEq, Repr

/-- All errors on lines of their own, if there are any. -/
def BatchResult.combinedError (result : BatchResult) : Option String :=
  if result.errors.isEmpty then none else some ("\n".intercalate result.errors)

/-- A batch in which nothing succeeded, with the errors of its texts. -/
structure BatchError where
  errors : List String
  deriving DecidableEq, Repr

/-- All errors on lines of their own, or a hint if there was no text at all. -/
def BatchError.message (error : BatchError) : String :=
  if error.errors.isEmpty then "No contracts to analyze. Please add contract source code."
  else "\n".intercalate error.errors

namespace Batch

/-- The named texts that are not blank. -/
def pending (inputs : List (String × String)) : List (String × String) :=
  inputs.filter fun (_, source) => !Text.allBlank source.toList

/-- Give a contract the name that it was submitted under. -/
def named (name : String) (contract : Contract) : NamedContract :=
  if name.isEmpty then ⟨contract.name, contract⟩ else ⟨name, { contract with name }⟩

def outcome (name source : String) : BatchOutcome :=
  match Contract.ofText source with
  | .ok contract => .analysed (named name contract)
  | .error error => .failed name error

def outcomes (inputs : List (String × String)) : List BatchOutcome :=
  (pending inputs).map fun (name, source) => outcome name source

/-- The analysis of a batch. -/
def analyse (inputs : List (String × String)) : Except BatchError BatchResult :=
  let all := outcomes inputs
  let contracts := all.filterMap BatchOutcome.result?
  let errors := all.filterMap BatchOutcome.errorText?
  if contracts.isEmpty then .error ⟨errors⟩ else .ok ⟨contracts, errors⟩

end Batch

end ContractAtlas
