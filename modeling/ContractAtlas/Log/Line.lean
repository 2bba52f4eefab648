import ContractAtlas.Log.Record

/-!
# Log lines

A record is laid out either as one JSON object or as a line for a terminal with the
level in colour.  In the object the time, the level, the logger and the message come
first, and no extra field can take their places.
-/

namespace ContractAtlas.Log

/-- A moment of universal time. -/
structure Moment where
  year : Nat
  month : Nat
  day : Nat
  hour : Nat
  minute : Nat
  second : Nat
  microsecond : Nat := 0
  deriving DecidableEq, Repr

/-- The decimal digits of a number, at least `width` of them. -/
def padded (width n : Nat) : String :=
  let digits := Nat.toDigits 10 n
  String.ofList (List.replicate (width - digits.length) '0' ++ digits)

namespace Moment

variable (moment : Moment)

/-- The time of day. -/
def clock : String :=
  padded 2 moment.hour ++ ":" ++ padded 2 moment.minute ++ ":" ++ padded 2 moment.second

/-- The date and the time of day with its offset from universal time. -/
def stamp : String :=
  padded 4 moment.year ++ "-" ++ padded 2 moment.month ++ "-" ++ padded 2 moment.day ++ "T" ++
    moment.clock ++
    (if moment.microsecond = 0 then "" else "." ++ padded 6 moment.microsecond) ++ "+00:00"

end Moment

/-- The layouts of a line. -/
inductive Layout where
  | object
  | terminal
  deriving DecidableEq, Repr

namespace Record

variable (record : Record)

/-- The four fields that every object starts with. -/
def leadingFields (moment : Moment) : List (String × Json) := [
  ("timestamp", .ofString moment.stamp),
  ("level", record.levelName),
  ("logger", record.name),
  ("message", .ofString record.message)]

/-- The names of the leading fields. -/
def leadingNames : List String := ["timestamp", "level", "logger", "message"]

/-- The fields of the object before the exception. -/
def objectFields (moment : Moment) : List (String × Json) :=
  record.leadingFields moment ++
    record.extraFields.filter fun field => !leadingNames.contains field.1

/-- The record as an object. -/
def object (moment : Moment) : Json :=
  let fields := record.objectFields moment
  .record <| match record.exception with
    | some caught => Json.setField "exception" (.ofString caught.line) fields
    | none => fields

def objectLine (moment : Moment) : Except Fault String := do
  renderable record.fields
  let text ← ((record.object moment).written .plain).mapError .unwritten
  return text.shown

/-- The escape sequence that ends a colour. -/
def plainColour : String := "\x1b[0m"

/-- The escape sequence of a level's colour. -/
def colourOf (level : Json) : Except Fault String :=
  match level with
  | .str name =>
    .ok <| match name.shown with
      | "DEBUG" => "\x1b[36m"
      | "INFO" => "\x1b[32m"
      | "WARNING" => "\x1b[33m"
      | "ERROR" => "\x1b[31m"
      | "CRITICAL" => "\x1b[1;31m"
      | _ => plainColour
  | .arr _ | .obj _ => .error (.noColour (kindOf level))
  | _ => .ok plainColour

/-- A level's name padded to eight characters. -/
def paddedLevel (level : Json) : Except Fault String := do
  let text ← match level with
    | .bool value => pure (if value then "1" else "0")
    | .null | .arr _ | .obj _ => .error (.noPadding (kindOf level))
    | value => displayed value
  return text ++ "".pushn ' ' (8 - text.length)

/-- What stands before the message: the time in colour, the level and the logger. -/
def terminalStart (moment : Moment) : Except Fault String := do
  let colour ← colourOf record.levelName
  let level ← paddedLevel record.levelName
  let name ← displayed record.name
  return colour ++ moment.clock ++ " [" ++ level ++ "]" ++ plainColour ++ " " ++ name ++ ": "

/-- An extra field as it stands behind the message. -/
def fieldText (field : String × Json) : Except Fault String := do
  return field.1 ++ "=" ++ (← displayed field.2)

/-- What stands behind the message: the extra fields. -/
def terminalFields : Except Fault String := do
  let texts ← record.extraFields.mapM fieldText
  return if texts.isEmpty then "" else "  " ++ " ".intercalate texts

/-- The lines below the message: the exception. -/
def terminalEnd (exception : Option Caught) : String :=
  match exception with
  | some caught => "\n" ++ caught.line
  | none => ""

def terminalLine (moment : Moment) : Except Fault String := do
  let start ← record.terminalStart moment
  renderable record.fields
  let fields ← record.terminalFields
  return start ++ record.message ++ fields ++ terminalEnd record.exception

def line (layout : Layout) (moment : Moment) : Except Fault String :=
  match layout with
  | .object => record.objectLine moment
  | .terminal => record.terminalLine moment

end Record

/-- The line of a call.  The message of an object is rendered first, that of a line for a
terminal when the line has come to it. -/
def Call.line (call : Call) (layout : Layout) (moment : Moment) : Except Fault String := do
  match layout with
  | .object => (← call.record).objectLine moment
  | .terminal =>
    let blank := call.recordWith "" none
    let start ← blank.terminalStart moment
    renderable call.fields
    let message ← call.message
    let fields ← blank.terminalFields
    return start ++ message ++ fields ++ Record.terminalEnd (← call.caught)

end ContractAtlas.Log
