/-!
# Issues

What is wrong with a value that should have had a certain form, and where.  Every
fault has a short code and a sentence for people.
-/

namespace ContractAtlas.Schema

/-- One step from a value to a part of it. -/
inductive Step where
  | field (name : String)
  | item (position : Nat)
  deriving DecidableEq, Repr

/-- A way in which a value fails to have the expected form. -/
inductive Fault where
  | missing
  | notString
  /-- A string with half of a surrogate pair where characters are needed. -/
  | notUnicode
  | stringTooShort (least : Nat)
  | stringTooLong (most : Nat)
  | stringMismatch (pattern : String)
  | notBoolean
  | unreadableBoolean
  | unreadableInteger
  /-- An integer with too many digits. -/
  | integerTooLong
  | notKeyword (alternatives : List String)
  | notSequence
  | notList
  | tooFewItems (kind : String) (least count : Nat)
  /-- A value that should have been an object, or a record of the named kind. -/
  | notRecord (kind : String)
  | notObject
  | malformedJson
  deriving DecidableEq, Repr

namespace Fault

def code : Fault → String
  | .missing => "missing"
  | .notString => "string_type"
  | .notUnicode => "string_unicode"
  | .stringTooShort _ => "string_too_short"
  | .stringTooLong _ => "string_too_long"
  | .stringMismatch _ => "string_pattern_mismatch"
  | .notBoolean => "bool_type"
  | .unreadableBoolean => "bool_parsing"
  | .unreadableInteger => "int_parsing"
  | .integerTooLong => "int_parsing_size"
  | .notKeyword _ => "literal_error"
  | .notSequence => "tuple_type"
  | .notList => "list_type"
  | .tooFewItems .. => "too_short"
  | .notRecord _ => "model_type"
  | .notObject => "model_attributes_type"
  | .malformedJson => "json_invalid"

/-- A count with its noun, in the plural unless the count is one. -/
def counted (count : Nat) (noun : String) : String :=
  s!"{count} {noun}" ++ if count = 1 then "" else "s"

/-- Quoted alternatives with `or` before the last one. -/
def alternativesText : List String → String
  | [] => ""
  | [only] => s!"'{only}'"
  | [first, last] => s!"'{first}' or '{last}'"
  | first :: rest => s!"'{first}', " ++ alternativesText rest

def message : Fault → String
  | .missing => "Field required"
  | .notString => "Input should be a valid string"
  | .notUnicode =>
    "Input should be a valid string, unable to parse raw data as a unicode string"
  | .stringTooShort least => "String should have at least " ++ counted least "character"
  | .stringTooLong most => "String should have at most " ++ counted most "character"
  | .stringMismatch pattern => s!"String should match pattern '{pattern}'"
  | .notBoolean => "Input should be a valid boolean"
  | .unreadableBoolean => "Input should be a valid boolean, unable to interpret input"
  | .unreadableInteger =>
    "Input should be a valid integer, unable to parse string as an integer"
  | .integerTooLong =>
    "Unable to parse input string as an integer, exceeded maximum size"
  | .notKeyword alternatives => "Input should be " ++ alternativesText alternatives
  | .notSequence => "Input should be a valid tuple"
  | .notList => "Input should be a valid list"
  | .tooFewItems kind least count =>
    s!"{kind} should have at least " ++ counted least "item" ++
      s!" after validation, not {count}"
  | .notRecord kind => s!"Input should be a valid dictionary or instance of {kind}"
  | .notObject => "Input should be a valid dictionary or object to extract fields from"
  | .malformedJson => "JSON decode error"

end Fault

/-- A fault, and the way from the whole value to the part that has it. -/
structure Issue where
  path : List Step
  fault : Fault
  deriving DecidableEq, Repr

/-- The same fault seen from one step further out. -/
def Issue.within (step : Step) (issue : Issue) : Issue :=
  { issue with path := step :: issue.path }

end ContractAtlas.Schema
