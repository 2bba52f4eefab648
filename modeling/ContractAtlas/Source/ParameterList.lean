import ContractAtlas.Declaration
import ContractAtlas.Text.Blank

/-!
# Parameter lists

A parameter list is split at its commas and each element into words.  The first
word is the type and the last one the name, unless it is the only word or says
where the data lives.  Elements without words are dropped.
-/

namespace ContractAtlas.Source

open ContractAtlas.Text

/-- The words that say where the data of a parameter lives. -/
def dataLocations : List String := ["memory", "storage", "calldata"]

/-- The words of the elements of a list, apart from blank elements. -/
def elements (list : List Char) : List (List String) :=
  ((list.splitOn ',').map fun element => (words element).map String.ofList).filter
    fun element => !element.isEmpty

/-- The last of several words, or nothing. -/
def lastOfSeveral : List String → String
  | _ :: next :: rest => (next :: rest).getLastD ""
  | _ => ""

/-- The parameter that the words of an element declare. -/
def parameterOfWords (element : List String) : Parameter :=
  let last := lastOfSeveral element
  { name := if last ∈ dataLocations then "" else last
    type := element.headD "" }

/-- The parameters of a function or modifier, or its results. -/
def parameters (list : List Char) : List Parameter :=
  (elements list).map parameterOfWords

/-- The input that the words of an event's element declare.  The word `indexed` may
stand anywhere and is no part of the type or the name. -/
def eventParameterOfWords? (element : List String) : Option Parameter :=
  let isIndexed := "indexed" ∈ element
  match element.filter (· ≠ "indexed") with
  | [] => none
  | rest => some {
      name := lastOfSeveral rest
      type := rest.headD ""
      indexed := some isIndexed }

/-- The inputs of an event. -/
def eventParameters (list : List Char) : List Parameter :=
  (elements list).filterMap eventParameterOfWords?

end ContractAtlas.Source
