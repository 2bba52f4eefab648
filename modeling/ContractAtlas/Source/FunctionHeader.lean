import ContractAtlas.Source.ParameterList
import ContractAtlas.Source.Shape

/-!
# Function headers

Between a function's parameter list and its body stand its visibility, its
mutability, its results and the modifiers it invokes, in any order.  The first
visibility and the first mutability count; every other word, apart from the
markers, is a modifier.
-/

namespace ContractAtlas.Source

open ContractAtlas.Text

/-- What a function's header says. -/
structure FunctionHeader where
  visibility : Visibility
  mutability : Mutability
  outputs : List Parameter
  modifiers : List String
  deriving DecidableEq, Repr

/-- The word `returns` and a parenthesised list. -/
def resultsShape : Shape (List Char) := fun before text => do
  enclosed? (trimStart (← keyword? "returns" before text))

/-- A word of the header with the arguments that may follow it. -/
def headerWordShape : Shape String := fun _ text =>
  match text with
  | [] => none
  | c :: _ =>
    if startsIdentifier c then
      let rest := trimStart (text.dropWhile isQualified)
      let left := match enclosed? rest with
        | some (_, left) => left
        | none => rest
      some (String.ofList (text.takeWhile isQualified), left)
    else none

/-- The words of a header in their order. -/
def headerWords (header : List Char) : List String :=
  (occurrences headerWordShape header).map (·.value)

/-- The words that are neither keywords nor modifiers. -/
def headerMarkers : List String := ["virtual", "override", "returns"]

/-- Whether a word of a header invokes a modifier. -/
def isModifier (word : String) : Bool :=
  (Visibility.ofKeyword? word).isNone && (Mutability.ofKeyword? word).isNone &&
    !headerMarkers.contains word

/-- Cut the first results clause out of a header. -/
def splitResults (header : List Char) : Option (List Char) × List Char :=
  match (occurrences resultsShape header).head? with
  | some found =>
    (some found.value, header.take found.start ++ ' ' :: header.drop found.stop)
  | none => (none, header)

/-- Read a header. -/
def functionHeader (header : List Char) : FunctionHeader :=
  let (results, rest) := splitResults header
  let words := headerWords rest
  { visibility := (words.findSome? Visibility.ofKeyword?).getD .publicly
    mutability := (words.findSome? Mutability.ofKeyword?).getD .nonpayable
    outputs := (results.map parameters).getD []
    modifiers := (words.filter isModifier).eraseDups }

end ContractAtlas.Source
