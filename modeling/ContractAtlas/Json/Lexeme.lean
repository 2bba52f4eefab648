import ContractAtlas.Json.Basic
import ContractAtlas.Numeral.Integer

/-!
# Lexemes of JSON text

The smallest meaningful pieces of JSON text: punctuation, strings, and the
values written without inner structure.  `lexeme` reads the one at the start of
a non-blank text and says how many characters it takes.  The longest numeral
counts, so a point or an exponent without digits is not part of it.
-/

namespace ContractAtlas.Json

/-- The marks between values. -/
inductive Mark where
  | openArray
  | closeArray
  | openObject
  | closeObject
  | comma
  | colon
  deriving DecidableEq, Repr

/-- One piece of JSON text. -/
inductive Lexeme where
  | mark (mark : Mark)
  | scalar (value : Json)
  | string (value : Text)
  /-- A string with a fault at a distance from its opening quote. -/
  | badString (offset : Nat)
  | longNumeral
  | unknown

/-- The four characters that may stand around values. -/
def isSpace (c : Char) : Bool :=
  c == ' ' || c == '\t' || c == '\n' || c == '\r'

def hexDigit? (c : Char) : Option Nat :=
  if '0' ≤ c ∧ c ≤ '9' then some (c.toNat - '0'.toNat)
  else if 'a' ≤ c ∧ c ≤ 'f' then some (c.toNat - 'a'.toNat + 10)
  else if 'A' ≤ c ∧ c ≤ 'F' then some (c.toNat - 'A'.toNat + 10)
  else none

/-- The unit that four hexadecimal digits denote. -/
def unit? (a b c d : Char) : Option Nat := do
  return (((← hexDigit? a) * 16 + (← hexDigit? b)) * 16 + (← hexDigit? c)) * 16 + (← hexDigit? d)

/-- The character that a backslash and one character denote. -/
def shortEscape? : Char → Option Char
  | '"' => some '"'
  | '\\' => some '\\'
  | '/' => some '/'
  | 'b' => some '\x08'
  | 'f' => some '\x0C'
  | 'n' => some '\n'
  | 'r' => some '\r'
  | 't' => some '\t'
  | _ => none

/-- Read the inside of a string up to its closing quote.  `read` holds what came
before, last first, and `offset` the distance from the opening quote; the result
is the text with the number of characters up to and including the closing quote,
or the distance of the fault.  An escaped unit needs four digits and at least one
character after them. -/
def stringTail (read : Text) (offset : Nat) : List Char → Except Nat (Text × Nat)
  | [] => .error 0
  | '"' :: _ => .ok (Text.joinSurrogates read.reverse, offset + 1)
  | '\\' :: 'u' :: a :: b :: c :: d :: next :: rest =>
    match unit? a b c d with
    | some unit => stringTail (CodePoint.ofUnit unit :: read) (offset + 6) (next :: rest)
    | none => .error (offset + 1)
  | '\\' :: 'u' :: _ => .error (offset + 1)
  | '\\' :: c :: rest =>
    match shortEscape? c with
    | some char => stringTail (.char char :: read) (offset + 2) rest
    | none => .error offset
  | ['\\'] => .error 0
  | c :: rest =>
    if c.toNat < 0x20 then .error offset else stringTail (.char c :: read) (offset + 1) rest

def isDigit (c : Char) : Bool := '0' ≤ c && c ≤ '9'

/-- The parts of a numeral, as they are written. -/
structure NumberText where
  negative : Bool
  whole : List Char
  fraction : List Char
  exponent : Option (Bool × List Char)
  /-- The number of characters of the numeral. -/
  length : Nat

/-- The whole part: a zero, or digits that start with another one. -/
def wholeDigits : List Char → List Char
  | '0' :: _ => ['0']
  | chars => chars.takeWhile isDigit

/-- The digits behind a point, if there are any. -/
def fractionDigits : List Char → List Char
  | '.' :: rest => rest.takeWhile isDigit
  | _ => []

/-- The exponent at the start of a text, its sign and its digits, with the number
of characters it takes. -/
def exponentPart : List Char → Option (Bool × List Char × Nat)
  | mark :: rest =>
    if mark == 'e' || mark == 'E' then
      let (negative, digits, sign) := match rest with
        | '-' :: digits => (true, digits, 1)
        | '+' :: digits => (false, digits, 1)
        | digits => (false, digits, 0)
      let digits := digits.takeWhile isDigit
      if digits.isEmpty then none else some (negative, digits, 1 + sign + digits.length)
    else none
  | [] => none

/-- The longest numeral at the start of a text. -/
def number? (chars : List Char) : Option NumberText :=
  let (negative, unsigned) := match chars with
    | '-' :: rest => (true, rest)
    | rest => (false, rest)
  let whole := wholeDigits unsigned
  if whole.isEmpty then none
  else
    let afterWhole := unsigned.drop whole.length
    let fraction := fractionDigits afterWhole
    let pointed := if fraction.isEmpty then 0 else fraction.length + 1
    let exponent := exponentPart (afterWhole.drop pointed)
    some {
      negative, whole, fraction
      exponent := exponent.map fun (sign, digits, _) => (sign, digits)
      length := (if negative then 1 else 0) + whole.length + pointed +
        (exponent.map fun (_, _, length) => length).getD 0 }

def decimalValue (digits : List Char) : Nat :=
  digits.foldl (fun value c => value * 10 + (c.toNat - '0'.toNat)) 0

/-- A numeral with a fraction or an exponent is a floating-point number; any other
is an integer, whose digits are limited. -/
def NumberText.lexeme (number : NumberText) : Lexeme :=
  if number.fraction.isEmpty && number.exponent.isNone then
    if Numeral.digitLimit < number.whole.length then .longNumeral
    else .scalar (.int (Numeral.signed number.negative (decimalValue number.whole)))
  else
    let shift : Int := match number.exponent with
      | some (negative, digits) => Numeral.signed negative (decimalValue digits)
      | none => 0
    .scalar <| .float <| Binary64.ofDecimal number.negative
      (decimalValue (number.whole ++ number.fraction)) (shift - number.fraction.length)

/-- The values that are written as words. -/
def namedValues : List (String × Json) := [
  ("null", .null), ("true", .bool true), ("false", .bool false), ("NaN", .float .nan),
  ("Infinity", .float (.infinite false)), ("-Infinity", .float (.infinite true))]

def mark? : Char → Option Mark
  | '[' => some .openArray
  | ']' => some .closeArray
  | '{' => some .openObject
  | '}' => some .closeObject
  | ',' => some .comma
  | ':' => some .colon
  | _ => none

/-- The lexeme at the start of a text that does not begin with space, and its
length. -/
def lexeme (chars : List Char) : Lexeme × Nat :=
  match chars with
  | [] => (.unknown, 0)
  | '"' :: rest =>
    match stringTail [] 1 rest with
    | .ok (value, length) => (.string value, length)
    | .error offset => (.badString offset, 1)
  | c :: _ =>
    match mark? c with
    | some mark => (.mark mark, 1)
    | none =>
      match namedValues.find? fun entry => entry.1.toList.isPrefixOf chars with
      | some (name, value) => (.scalar value, name.length)
      | none =>
        match number? chars with
        | some number => (number.lexeme, number.length)
        | none => (.unknown, 1)

end ContractAtlas.Json
