import ContractAtlas.Json.Basic
import ContractAtlas.Schema.Issue

/-!
# Decoders

A decoder turns a JSON value into a value of a type, or names everything that
stands in the way.  Decoders of records combine those of their fields, and the
issues come in the order of the fields.

Booleans are read generously: besides true and false, the numbers one and zero and
some common words are accepted, whatever their case.
-/

namespace ContractAtlas.Schema

/-- A value that has the expected form, or the issues of one that has not. -/
inductive Checked (α : Type) where
  | valid (value : α)
  | invalid (issues : List Issue)

namespace Checked

variable {α β : Type}

def map (f : α → β) : Checked α → Checked β
  | .valid value => .valid (f value)
  | .invalid issues => .invalid issues

/-- Apply a checked function to a checked value; the issues of both are kept. -/
def apply : Checked (α → β) → Checked α → Checked β
  | .valid f, .valid value => .valid (f value)
  | .valid _, .invalid issues => .invalid issues
  | .invalid issues, .valid _ => .invalid issues
  | .invalid issues, .invalid more => .invalid (issues ++ more)

instance : Applicative Checked where
  pure := .valid
  seq f value := apply f (value ())

def fault (fault : Fault) : Checked α := .invalid [⟨[], fault⟩]

/-- The same result seen from one step further out. -/
def within (step : Step) : Checked α → Checked α
  | .valid value => .valid value
  | .invalid issues => .invalid (issues.map (·.within step))

def toExcept : Checked α → Except (List Issue) α
  | .valid value => .ok value
  | .invalid issues => .error issues

/-- Check all values; each one is a further item. -/
def items : Nat → List (Checked α) → Checked (List α)
  | _, [] => .valid []
  | position, value :: rest =>
    List.cons <$> value.within (.item position) <*> items (position + 1) rest

end Checked

/-- How to read a JSON value as a value of some type. -/
abbrev Decoder (α : Type) := Json → Checked α

variable {α : Type}

/-- Any string; a half of a surrogate pair in it is replaced. -/
def text : Decoder String
  | .str value => .valid value.shown
  | _ => .fault .notString

/-- The words for true. -/
def trueWords : List String := ["1", "t", "true", "y", "yes", "on"]

/-- The words for false. -/
def falseWords : List String := ["0", "f", "false", "n", "no", "off"]

/-- A word for true or false in any case of its ASCII letters. -/
def wordFlag (word : String) : Checked Bool :=
  if word.toLower ∈ trueWords then .valid true
  else if word.toLower ∈ falseWords then .valid false
  else .fault .unreadableBoolean

/-- Two to the power of 63, the bound of signed 64-bit words. -/
def wordBound : Int := 9223372036854775808

/-- One or zero.  A number too large for a 64-bit word is no boolean at all, any other
one is an unreadable boolean. -/
def numberFlag (value : Int) : Checked Bool :=
  if value = 1 then .valid true
  else if value = 0 then .valid false
  else if -wordBound ≤ value ∧ value < wordBound then .fault .unreadableBoolean
  else .fault .notBoolean

/-- A generous boolean. -/
def flag : Decoder Bool
  | .bool value => .valid value
  | .int value => numberFlag value
  | .float value =>
    match value.truncate? with
    | some whole =>
      if value.isIntegral && whole ≠ -wordBound then numberFlag whole else .fault .notBoolean
    | none => .fault .notBoolean
  | .str value =>
    match value.string? with
    | some word => wordFlag word
    | none => .fault .notUnicode
  | _ => .fault .notBoolean

/-- A value that may be null. -/
def nullable (decoder : Decoder α) : Decoder (Option α)
  | .null => .valid none
  | value => some <$> decoder value

/-- An array of values; anything else has the given fault. -/
def arrayOf (otherwise : Fault) (decoder : Decoder α) : Decoder (List α)
  | .arr items => Checked.items 0 (items.map decoder)
  | _ => .fault otherwise

/-- An array of values, kept as an unchangeable sequence. -/
def sequence (decoder : Decoder α) : Decoder (List α) :=
  arrayOf .notSequence decoder

/-- A string that is one of the keywords of a type. -/
def keyword (alternatives : List String) (ofKeyword? : String → Option α) : Decoder α := fun value =>
  match value.string? >>= ofKeyword? with
  | some meaning => .valid meaning
  | none => .fault (.notKeyword alternatives)

/-- A field that has to be there. -/
def required (name : String) (decoder : Decoder α) : Decoder α := fun record =>
  Checked.within (.field name) <|
    match record.field? name with
    | some value => decoder value
    | none => .fault .missing

/-- A field with a value to take in its absence. -/
def optional (name : String) (absent : α) (decoder : Decoder α) : Decoder α := fun record =>
  match record.field? name with
  | some value => (decoder value).within (.field name)
  | none => .valid absent

/-- An object; anything else has the given fault. -/
def object (otherwise : Fault) (decoder : Decoder α) : Decoder α
  | .obj fields => decoder (.obj fields)
  | _ => .fault otherwise

end ContractAtlas.Schema
