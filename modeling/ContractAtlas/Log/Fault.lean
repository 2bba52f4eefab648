import ContractAtlas.Json.Writer

/-!
# Faults of log calls

A log call holds a template and the values to put into it.  If they do not fit, if a field
hides what the record needs, or if the record cannot be laid out on a line, the call has no
line.
-/

namespace ContractAtlas.Log

/-- Why a log call has no line. -/
inductive Fault where
  | tooFewValues
  | tooManyValues
  /-- A value of the named kind where a number is needed. -/
  | notNumber (kind : String)
  | infinite
  | notANumber
  /-- A template that ends within a placeholder. -/
  | unfinished
  | unknownPlaceholder (conversion : Char) (position : Nat)
  /-- A level's name of a kind that no colour can be looked up for. -/
  | noColour (kind : String)
  /-- A level's name of a kind that cannot be padded. -/
  | noPadding (kind : String)
  /-- A value of the named kind in the place of what renders the message. -/
  | notCallable (kind : String)
  /-- A value of the named kind in the place of an exception, which has no parts. -/
  | noParts (kind : String)
  /-- A value of the named kind in the place of an exception, which has too few parts. -/
  | tooFewParts (kind : String)
  /-- An object in the place of an exception, whose parts have no numbers. -/
  | noFirstPart
  /-- A value of the named kind as a part of an exception, which lacks an attribute. -/
  | noAttribute (kind name : String)
  /-- A value that is not displayed. -/
  | undisplayed (fault : Json.WriteFault)
  /-- An object that is not written. -/
  | unwritten (fault : Json.WriteFault)
  deriving DecidableEq, Repr

/-- What kind of value this is. -/
def kindOf : Json → String
  | .null => "NoneType"
  | .bool _ => "bool"
  | .int _ => "int"
  | .float _ => "float"
  | .str _ => "str"
  | .arr _ => "list"
  | .obj _ => "dict"

namespace Fault

def hexadecimalText (n : Nat) : String :=
  String.ofList (Nat.toDigits 16 n)

def message : Fault → String
  | .tooFewValues => "not enough arguments for format string"
  | .tooManyValues => "not all arguments converted during string formatting"
  | .notNumber kind => s!"%d format: a real number is required, not {kind}"
  | .infinite => "cannot convert float infinity to integer"
  | .notANumber => "cannot convert float NaN to integer"
  | .unfinished => "incomplete format"
  | .unknownPlaceholder conversion position =>
    let code := conversion.toNat
    let shown := if 31 ≤ code ∧ code ≤ 126 then conversion else '?'
    s!"unsupported format character '{shown}' (0x{hexadecimalText code}) at index {position}"
  | .noColour kind => s!"unhashable type: '{kind}'"
  | .noPadding kind => s!"unsupported format string passed to {kind}.__format__"
  | .notCallable kind => s!"'{kind}' object is not callable"
  | .noParts kind => s!"'{kind}' object is not subscriptable"
  | .tooFewParts kind => s!"{kind} index out of range"
  | .noFirstPart => "0"
  | .noAttribute kind name => s!"'{kind}' object has no attribute '{name}'"
  | .undisplayed fault => fault.message "getting the repr of an object"
  | .unwritten fault => fault.message "encoding a JSON object"

end Fault

end ContractAtlas.Log
