import ContractAtlas.Text.Blank
import ContractAtlas.Text.Digit

/-!
# Integer numerals

An integer is read from decimal digits of any script, with an optional sign,
spaces around it and single underscores between its digits.  A numeral of more
than `digitLimit` digits is refused, however small its value: leading zeros
count.  For display, the digits of an integer may be grouped in threes.
-/

namespace ContractAtlas.Numeral

open ContractAtlas.Text

/-- The most digits a numeral may have. -/
def digitLimit : Nat := 4300

/-- Why a text is not read as an integer. -/
inductive Fault where
  | malformed
  | tooLong (count : Nat)
  deriving DecidableEq, Repr

/-- What is said of a numeral with more digits than the limit. -/
def tooLongMessage (count : Nat) : String :=
  s!"Exceeds the limit ({digitLimit} digits) for integer string conversion: value has " ++
    s!"{count} digits; use sys.set_int_max_str_digits() to increase the limit"

/-- The value of a run of digits. -/
def ofDigits (digits : List Char) : Except Fault Nat :=
  if digits.isEmpty then .error .malformed
  else match digitsValue? digits with
    | none => .error .malformed
    | some value =>
      if digitLimit < digits.length then .error (.tooLong digits.length) else .ok value

/-- The digits of a text in which single underscores may stand between digits. -/
def ungroup? (chars : List Char) : Option (List Char) :=
  let groups := chars.splitOn '_'
  if groups.any List.isEmpty then none else some groups.flatten

/-- An optional sign, and what follows it. -/
def splitSign : List Char → Bool × List Char
  | '-' :: rest => (true, rest)
  | '+' :: rest => (false, rest)
  | chars => (false, chars)

def signed (negative : Bool) (magnitude : Nat) : Int :=
  if negative then -magnitude else magnitude

/-- The integer that a text denotes. -/
def read (chars : List Char) : Except Fault Int := do
  let (negative, rest) := splitSign (trimSpaces chars)
  let some digits := ungroup? rest | .error .malformed
  return signed negative (← ofDigits digits)

/-- Put a comma before every third digit from the right. -/
def groupThousands (digits : List Char) : List Char :=
  let leading := digits.length % 3
  let rec triples : List Char → List Char
    | a :: b :: c :: rest => ',' :: a :: b :: c :: triples rest
    | rest => rest
  let grouped := digits.take leading ++ triples (digits.drop leading)
  if leading = 0 then grouped.drop 1 else grouped

/-- An integer with its digits grouped in threes. -/
def grouped (value : Int) : String :=
  let digits := groupThousands (Nat.toDigits 10 value.natAbs)
  String.ofList (if value < 0 then '-' :: digits else digits)

end ContractAtlas.Numeral
