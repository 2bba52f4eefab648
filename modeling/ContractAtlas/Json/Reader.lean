import ContractAtlas.Json.Lexeme

/-!
# Reading JSON

A reader goes through the text once, from left to right, and keeps the arrays and
objects that are still open on a stack.  At every point it knows what may come
next; the first lexeme that does not fit ends the reading, and the error says
where.  An array or object that would be nested deeper than `nestingLimit` ends
it too, even if the text is faulty further on.
-/

namespace ContractAtlas.Json

/-- Why a text is not read as JSON. -/
inductive ReadError where
  /-- What stands at this position, counted in characters, does not fit. -/
  | malformed (position : Nat)
  | longNumeral
  | tooDeep
  deriving DecidableEq, Repr

/-- An array or object that is still open, with what it holds so far in reverse
order. -/
inductive Frame where
  | array (items : List Json)
  | object (fields : List (Text × Json))
  /-- An object whose next field has its key already. -/
  | field (fields : List (Text × Json)) (key : Text)

/-- What may come next. -/
inductive Expected where
  /-- A value, or the end of the array that was just opened. -/
  | firstItem
  | value
  /-- A key, or the end of the object that was just opened. -/
  | firstKey
  | key
  | colon
  /-- A comma, or the end of the innermost array or object. -/
  | separator
  /-- Nothing: the text is complete. -/
  | nothing (result : Json)

/-- The point that a reading has reached. -/
structure Reading where
  openFrames : List Frame
  expected : Expected

namespace Reading

def start : Reading := ⟨[], .value⟩

/-- Go on after a complete value. -/
def complete (frames : List Frame) (value : Json) : Reading :=
  match frames with
  | [] => ⟨[], .nothing value⟩
  | .array items :: outer => ⟨.array (value :: items) :: outer, .separator⟩
  | .field fields key :: outer => ⟨.object ((key, value) :: fields) :: outer, .separator⟩
  | .object fields :: outer => ⟨.object fields :: outer, .separator⟩

/-- Open an array or object. -/
def enter (frames : List Frame) (frame : Frame) (expected : Expected) :
    Except ReadError Reading :=
  if frames.length < nestingLimit then .ok ⟨frame :: frames, expected⟩ else .error .tooDeep

/-- Go on with the lexeme at a position where a value may start. -/
def takeValue (frames : List Frame) (position : Nat) : Lexeme → Except ReadError Reading
  | .scalar value => .ok (complete frames value)
  | .string value => .ok (complete frames (.str value))
  | .mark .openArray => enter frames (.array []) .firstItem
  | .mark .openObject => enter frames (.object []) .firstKey
  | .badString offset => .error (.malformed (position + offset))
  | .longNumeral => .error .longNumeral
  | .mark _ | .unknown => .error (.malformed position)

/-- Go on with the lexeme at a position where a key has to start. -/
def takeKey (frames : List Frame) (position : Nat) : Lexeme → Except ReadError Reading
  | .string key =>
    match frames with
    | .object fields :: outer => .ok ⟨.field fields key :: outer, .colon⟩
    | _ => .error (.malformed position)
  | .badString offset => .error (.malformed (position + offset))
  | _ => .error (.malformed position)

/-- Go on with a lexeme. -/
def take (reading : Reading) (position : Nat) (lexeme : Lexeme) : Except ReadError Reading :=
  match reading.expected, lexeme, reading.openFrames with
  | .firstItem, .mark .closeArray, .array items :: outer
  | .separator, .mark .closeArray, .array items :: outer =>
    .ok (complete outer (.arr items.reverse))
  | .firstKey, .mark .closeObject, .object fields :: outer
  | .separator, .mark .closeObject, .object fields :: outer =>
    .ok (complete outer (ofFields fields.reverse))
  | .separator, .mark .comma, .array items :: outer => .ok ⟨.array items :: outer, .value⟩
  | .separator, .mark .comma, .object fields :: outer => .ok ⟨.object fields :: outer, .key⟩
  | .colon, .mark .colon, frames => .ok ⟨frames, .value⟩
  | .firstItem, other, frames | .value, other, frames => takeValue frames position other
  | .firstKey, other, frames | .key, other, frames => takeKey frames position other
  | _, _, _ => .error (.malformed position)

/-- The value of a text that ends here. -/
def finish (reading : Reading) (position : Nat) : Except ReadError Json :=
  match reading.expected with
  | .nothing result => .ok result
  | _ => .error (.malformed position)

/-- Read on from a position; the next `skipped` characters belong to a lexeme that
was taken already. -/
def run (reading : Reading) (skipped position : Nat) : List Char → Except ReadError Json
  | [] => reading.finish position
  | c :: rest =>
    match skipped with
    | more + 1 => run reading more (position + 1) rest
    | 0 =>
      if isSpace c then run reading 0 (position + 1) rest
      else
        let (lexeme, length) := lexeme (c :: rest)
        match reading.take position lexeme with
        | .ok next => run next (length - 1) (position + 1) rest
        | .error error => .error error

end Reading

/-- The value that a text denotes. -/
def read (chars : List Char) : Except ReadError Json :=
  Reading.start.run 0 0 chars

end ContractAtlas.Json
