import ContractAtlas.Log.Level
import ContractAtlas.Log.Template

/-!
# Log records

A record says what happened, how much it weighs and who says so.  It may carry fields
of its own and the exception that was caught.

Some field names belong to the record itself.  To set a field of such a name is to set what
the record says of itself, and it is no extra field.  `getMessage` belongs to no record, and
yet it is what renders the message: a field of this name hides it, and the message cannot be
rendered.
-/

namespace ContractAtlas.Log

/-- An exception by its kind and its text. -/
structure Caught where
  kind : String
  text : String
  deriving DecidableEq, Repr

def Caught.line (caught : Caught) : String :=
  if caught.text.isEmpty then caught.kind else caught.kind ++ ": " ++ caught.text

namespace Caught

/-- The exception that three values describe: its type, the exception and its trace.  None
of the values can be an exception or a trace, so they describe one only if there is nothing
in their places. -/
def ofParts (exception trace : Json) : Except Fault Caught :=
  match exception, trace with
  | .null, .null => .ok ⟨"NoneType", "None"⟩
  | other, .null => .error (.noAttribute (kindOf other) "__suppress_context__")
  | _, other => .error (.noAttribute (kindOf other) "tb_frame")

/-- What a value in the place of an exception comes to.  A value that counts as nothing is
no exception, and neither is a list that starts with nothing. -/
def ofValue? : Json → Except Fault (Option Caught)
  | .str text =>
    match text with
    | [] => .ok none
    | [_] | [_, _] => .error (.tooFewParts "string")
    | _ => .error (.noAttribute "str" "tb_frame")
  | .arr items =>
    match items with
    | [] | .null :: _ => .ok none
    | _ :: exception :: trace :: _ => some <$> ofParts exception trace
    | _ => .error (.tooFewParts "list")
  | .obj [] => .ok none
  | .obj _ => .error .noFirstPart
  | value => if Arguments.isNothing value then .ok none else .error (.noParts (kindOf value))

end Caught

structure Record where
  level : Level
  logger : String
  message : String
  fields : List (String × Json) := []
  exception : Option Caught := none
  /-- The name that the record gives its level. -/
  levelName : Json := .ofString level.name
  /-- The name that the record gives its logger. -/
  name : Json := .ofString logger

/-- The field names that belong to a record itself. -/
def ownNames : List String := [
  "name", "msg", "args", "levelname", "levelno", "pathname", "filename", "module",
  "exc_info", "exc_text", "stack_info", "lineno", "funcName", "created", "msecs",
  "relativeCreated", "thread", "threadName", "processName", "process", "message",
  "asctime", "taskName"]

/-- Whether a name is that of an extra field: neither the record's own nor hidden behind
an underscore. -/
def isExtraName (name : String) : Bool :=
  !ownNames.contains name && name.toList.head? != some '_'

/-- A field named `getMessage` hides what renders the message, and no value of a field can be
called in its place. -/
def renderable (fields : List (String × Json)) : Except Fault Unit :=
  match fields.lookup "getMessage" with
  | some value => .error (.notCallable (kindOf value))
  | none => .ok ()

namespace Record

variable (record : Record)

def extraFields : List (String × Json) :=
  record.fields.filter fun field => isExtraName field.1

end Record

/-- The records that weigh at least as much as a level. -/
def atLeast (level : Level) (records : List Record) : List Record :=
  records.filter fun record => level.weight ≤ record.level.weight

/-- A request to log something: a template with its values, and fields in the order in
which they were set. -/
structure Call where
  level : Level
  logger : String
  template : String
  values : List Json := []
  settings : List (String × Json) := []
  exception : Option Caught := none

namespace Call

variable (call : Call)

/-- Each field once, at the place where it was set first and with its last value. -/
def fields : List (String × Json) :=
  call.settings.foldl (fun known (name, value) => Json.setField name value known) []

/-- The message.  The fields `msg` and `args` take the place of the template and of its
values. -/
def message : Except Fault String := do
  let template ← match call.fields.lookup "msg" with
    | some value => displayed value
    | none => .ok call.template
  let arguments := match call.fields.lookup "args" with
    | some value => Arguments.ofValue value
    | none => Arguments.ofList call.values
  return String.ofList (← fill template.toList arguments)

/-- The exception, or what a field puts in its place. -/
def caught : Except Fault (Option Caught) :=
  match call.fields.lookup "exc_info" with
  | some value => Caught.ofValue? value
  | none => .ok call.exception

/-- The record of a call with a message and an exception.  The fields `levelname` and `name`
are its names for its level and its logger. -/
def recordWith (message : String) (exception : Option Caught) : Record where
  level := call.level
  logger := call.logger
  message
  fields := call.fields
  exception
  levelName := (call.fields.lookup "levelname").getD (.ofString call.level.name)
  name := (call.fields.lookup "name").getD (.ofString call.logger)

/-- The record of a call. -/
def record : Except Fault Record := do
  renderable call.fields
  let message ← call.message
  return call.recordWith message (← call.caught)

end Call

end ContractAtlas.Log
