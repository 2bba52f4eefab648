import ContractAtlas.Text.CodePoint
import ContractAtlas.Text.UnprintableTable
import ContractAtlas.Text.Word

/-!
# Quoted text

A text between quotation marks, in which everything that has no visible form of its
own is escaped.  The marks are apostrophes, unless the text holds an apostrophe and
no double quotation mark.
-/

namespace ContractAtlas.Text

/-- Whether a character can be shown as it is. -/
def isPrintable (c : Char) : Bool :=
  if c.toNat < 0x80 then 0x20 ≤ c.toNat && c.toNat < 0x7F
  else !inRuns c.toNat unprintableRuns

/-- The lower-case hexadecimal digits of a number, at least `width` of them. -/
def hexadecimal (width n : Nat) : List Char :=
  let digits := Nat.toDigits 16 n
  List.replicate (width - digits.length) '0' ++ digits

/-- The escape of a code point by its number. -/
def numericEscape (n : Nat) : List Char :=
  if n < 0x100 then '\\' :: 'x' :: hexadecimal 2 n
  else if n < 0x10000 then '\\' :: 'u' :: hexadecimal 4 n
  else '\\' :: 'U' :: hexadecimal 8 n

/-- A code point as it stands between two quotation marks. -/
def quotedPoint (mark : Char) : CodePoint → List Char
  | .half offset => numericEscape (CodePoint.half offset).number
  | .char c =>
    if c = mark ∨ c = '\\' then ['\\', c]
    else if c = '\n' then ['\\', 'n']
    else if c = '\r' then ['\\', 'r']
    else if c = '\t' then ['\\', 't']
    else if isPrintable c then [c]
    else numericEscape c.toNat

/-- The quotation mark that a text is put between. -/
def quotationMark (text : Text) : Char :=
  if text.contains (.char '\'') && !text.contains (.char '"') then '"' else '\''

def quote (text : Text) : List Char :=
  let mark := quotationMark text
  mark :: text.flatMap (quotedPoint mark) ++ [mark]

end ContractAtlas.Text
