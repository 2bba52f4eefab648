import ContractAtlas.Json.Writer
import ContractAtlas.Text.Quoted

/-!
# Displaying values

The text of a JSON value for people.  A string by itself is shown as it is, and inside
an array or an object it is quoted.
-/

namespace ContractAtlas.Json

/-- How the numbers without digits are displayed. -/
def displaySpelling : Binary64.Spelling := ⟨"nan", "inf"⟩

mutual

/-- The text of a value, with quotation marks around strings. -/
def literal : Json → List Char
  | .null => "None".toList
  | .bool true => "True".toList
  | .bool false => "False".toList
  | .int value => writeInt value
  | .float value => value.text displaySpelling
  | .str value => Text.quote value
  | .arr items => '[' :: literalItems items ++ [']']
  | .obj fields => '{' :: literalFields fields ++ ['}']

/-- Items with a comma and a space between neighbours. -/
def literalItems : List Json → List Char
  | [] => []
  | [item] => literal item
  | item :: next :: rest => literal item ++ ',' :: ' ' :: literalItems (next :: rest)

/-- Fields with a comma and a space between neighbours. -/
def literalFields : List (Text × Json) → List Char
  | [] => []
  | [(key, value)] => Text.quote key ++ ':' :: ' ' :: literal value
  | (key, value) :: next :: rest =>
    Text.quote key ++ ':' :: ' ' :: literal value ++ ',' :: ' ' :: literalFields (next :: rest)

end

/-- The text of a value, a string as it is. -/
def display : Json → String
  | .str value => value.shown
  | value => String.ofList value.literal

/-- The text of a value that keeps to the limits of writing. -/
def displayed (value : Json) : Except WriteFault String := do
  value.check
  return value.display

end ContractAtlas.Json
