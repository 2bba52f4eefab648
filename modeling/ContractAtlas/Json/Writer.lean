import ContractAtlas.Json.Basic
import ContractAtlas.Numeral.Integer
import ContractAtlas.Numeral.Shortest

/-!
# Writing JSON

Values are written on one line.  A style says whether a space follows commas and
colons and whether everything beyond printable ASCII is escaped.  The compact
style escapes only what has to be: quotes, backslashes and control characters.

Not every value is written: an integer may have as many digits as one that is read, and
arrays and objects may be nested as deeply.  `write` gives the text of a value without
regard to these limits, and `written` keeps to them.
-/

namespace ContractAtlas.Json

/-- The choices that the format leaves open. -/
structure Style where
  /-- What follows a comma or a colon. -/
  gap : List Char
  /-- Whether characters beyond printable ASCII are escaped. -/
  ascii : Bool

/-- No space at all, and every character as it is. -/
def Style.compact : Style := ⟨[], false⟩

/-- A space after each comma and colon, and printable ASCII only. -/
def Style.plain : Style := ⟨[' '], true⟩

/-- Numbers that no decimal denotes are written as words. -/
def spelling : Binary64.Spelling := ⟨"NaN", "Infinity"⟩

/-- Four lower-case hexadecimal digits. -/
def hex4 (unit : Nat) : List Char :=
  [unit / 4096 % 16, unit / 256 % 16, unit / 16 % 16, unit % 16].map Nat.digitChar

def escapedUnit (unit : Nat) : List Char :=
  '\\' :: 'u' :: hex4 unit

/-- The units that a code point is escaped as: one, or a surrogate pair. -/
def escapedPoint (number : Nat) : List Char :=
  if number < 0x10000 then escapedUnit number
  else
    let offset := number - 0x10000
    escapedUnit (0xD800 + offset / 0x400) ++ escapedUnit (0xDC00 + offset % 0x400)

/-- The escapes of two characters. -/
def shortEscapeOf? : Char → Option (List Char)
  | '"' => some ['\\', '"']
  | '\\' => some ['\\', '\\']
  | '\n' => some ['\\', 'n']
  | '\r' => some ['\\', 'r']
  | '\t' => some ['\\', 't']
  | '\x08' => some ['\\', 'b']
  | '\x0C' => some ['\\', 'f']
  | _ => none

/-- A code point as it stands inside a string. -/
def writePoint (style : Style) (point : CodePoint) : Text :=
  match point with
  | .char c =>
    match shortEscapeOf? c with
    | some escape => Text.ofChars escape
    | none =>
      if c.toNat < 0x20 || (style.ascii && 0x7E < c.toNat) then
        Text.ofChars (escapedPoint c.toNat)
      else [point]
  | .half _ => if style.ascii then Text.ofChars (escapedPoint point.number) else [point]

def writeString (style : Style) (text : Text) : Text :=
  .char '"' :: text.flatMap (writePoint style) ++ [.char '"']

def writeInt (value : Int) : List Char :=
  let digits := Nat.toDigits 10 value.natAbs
  if value < 0 then '-' :: digits else digits

mutual

/-- The text of a value. -/
def write (style : Style) : Json → Text
  | .null => Text.ofString "null"
  | .bool true => Text.ofString "true"
  | .bool false => Text.ofString "false"
  | .int value => Text.ofChars (writeInt value)
  | .float value => Text.ofChars (value.text spelling)
  | .str value => writeString style value
  | .arr items => .char '[' :: writeItems style items ++ [.char ']']
  | .obj fields => .char '{' :: writeFields style fields ++ [.char '}']

/-- Items with a comma between neighbours. -/
def writeItems (style : Style) : List Json → Text
  | [] => []
  | [item] => write style item
  | item :: next :: rest =>
    write style item ++ .char ',' :: Text.ofChars style.gap ++ writeItems style (next :: rest)

/-- Fields with a comma between neighbours. -/
def writeFields (style : Style) : List (Text × Json) → Text
  | [] => []
  | [(key, value)] =>
    writeString style key ++ .char ':' :: Text.ofChars style.gap ++ write style value
  | (key, value) :: next :: rest =>
    writeString style key ++ .char ':' :: Text.ofChars style.gap ++ write style value ++
      .char ',' :: Text.ofChars style.gap ++ writeFields style (next :: rest)

end

/-- The value without any space, characters as they are. -/
def compact (value : Json) : Text :=
  value.write .compact

/-- The value in printable ASCII, with a space after commas and colons. -/
def plain (value : Json) : String :=
  (value.write .plain).shown

/-! ## Limits -/

/-- Why a value is not written. -/
inductive WriteFault where
  /-- An integer of more than `Numeral.digitLimit` digits. -/
  | longInteger
  | tooDeep
  deriving DecidableEq, Repr

/-- What is said of a value that is not written, and of what was to be done with it. -/
def WriteFault.message (activity : String) : WriteFault → String
  | .longInteger =>
    s!"Exceeds the limit ({Numeral.digitLimit} digits) for integer string conversion; use " ++
      "sys.set_int_max_str_digits() to increase the limit"
  | .tooDeep => "maximum recursion depth exceeded while " ++ activity

mutual

/-- Find the first fault of a value around which so many arrays and objects may still be
opened. -/
def checkWithin (room : Nat) : Json → Except WriteFault Unit
  | .int value =>
    if (Nat.toDigits 10 value.natAbs).length ≤ Numeral.digitLimit then .ok ()
    else .error .longInteger
  | .arr items =>
    match room with
    | inside + 1 => checkItems inside items
    | 0 => .error .tooDeep
  | .obj fields =>
    match room with
    | inside + 1 => checkFields inside fields
    | 0 => .error .tooDeep
  | _ => .ok ()

def checkItems (room : Nat) : List Json → Except WriteFault Unit
  | [] => .ok ()
  | item :: rest =>
    match checkWithin room item with
    | .ok () => checkItems room rest
    | .error fault => .error fault

def checkFields (room : Nat) : List (Text × Json) → Except WriteFault Unit
  | [] => .ok ()
  | (_, value) :: rest =>
    match checkWithin room value with
    | .ok () => checkFields room rest
    | .error fault => .error fault

end

/-- Find the first fault of a value that stands by itself. -/
def check (value : Json) : Except WriteFault Unit :=
  value.checkWithin nestingLimit

/-- The text of a value that keeps to the limits. -/
def written (style : Style) (value : Json) : Except WriteFault Text := do
  value.check
  return value.write style

end ContractAtlas.Json
