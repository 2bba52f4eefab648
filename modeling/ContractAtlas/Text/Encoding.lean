import ContractAtlas.Text.CodePoint

/-!
# Encodings of text

JSON is sent as bytes in one of the encodings of Unicode.  A mark at the start tells which, and
without a mark the zeros among the first bytes do, since JSON starts with ASCII characters.

What is decoded consists of characters: half of a surrogate pair that is encoded by itself is
not decoded.
-/

namespace ContractAtlas.Text

/-- Whether the first byte of a number is its greatest or its least. -/
inductive ByteOrder where
  | greatestFirst
  | leastFirst
  deriving DecidableEq, Repr

/-- The number that bytes denote. -/
def ByteOrder.number (order : ByteOrder) (bytes : List UInt8) : Nat :=
  let ordered := match order with
    | .greatestFirst => bytes
    | .leastFirst => bytes.reverse
  ordered.foldl (fun number byte => number * 256 + byte.toNat) 0

/-- The numbers of two bytes each. -/
def ByteOrder.pairs (order : ByteOrder) : List UInt8 → Option (List Nat)
  | [] => some []
  | [_] => none
  | first :: second :: rest => (order.number [first, second] :: ·) <$> order.pairs rest

/-- The numbers of four bytes each. -/
def ByteOrder.quadruples (order : ByteOrder) : List UInt8 → Option (List Nat)
  | [] => some []
  | first :: second :: third :: fourth :: rest =>
    (order.number [first, second, third, fourth] :: ·) <$> order.quadruples rest
  | _ => none

/-- The character of a number. -/
def charOfNumber? (number : Nat) : Option Char :=
  if number.isValidChar then some (Char.ofNat number) else none

inductive Encoding where
  | utf8
  | utf16 (order : ByteOrder)
  | utf32 (order : ByteOrder)
  deriving DecidableEq, Repr

namespace Encoding

def decode? (encoding : Encoding) (bytes : ByteArray) : Option (List Char) :=
  match encoding with
  | .utf8 => (String.fromUTF8? bytes).map String.toList
  | .utf16 order =>
    (order.pairs bytes.data.toList).bind fun units =>
      chars? (joinSurrogates (units.map CodePoint.ofUnit))
  | .utf32 order => (order.quadruples bytes.data.toList).bind (·.mapM charOfNumber?)

/-- The marks at the start.  One of them starts with another one and comes before it. -/
def marks : List (List UInt8 × Encoding) := [
  ([0x00, 0x00, 0xFE, 0xFF], .utf32 .greatestFirst),
  ([0xFF, 0xFE, 0x00, 0x00], .utf32 .leastFirst),
  ([0xFE, 0xFF], .utf16 .greatestFirst),
  ([0xFF, 0xFE], .utf16 .leastFirst),
  ([0xEF, 0xBB, 0xBF], .utf8)]

/-- The encoding of bytes without a mark. -/
def unmarked (bytes : List UInt8) : Encoding :=
  match bytes.map (· == 0) with
  | true :: true :: _ :: _ :: _ => .utf32 .greatestFirst
  | true :: _ :: _ :: _ :: _ => .utf16 .greatestFirst
  | _ :: true :: true :: true :: _ => .utf32 .leastFirst
  | _ :: true :: _ :: _ :: _ => .utf16 .leastFirst
  | [true, _] => .utf16 .greatestFirst
  | [_, true] => .utf16 .leastFirst
  | _ => .utf8

end Encoding

/-- The characters of JSON text that was sent as bytes. -/
def decode? (bytes : ByteArray) : Option (List Char) :=
  match Encoding.marks.find? fun (mark, _) => mark.isPrefixOf bytes.data.toList with
  | some (mark, encoding) => encoding.decode? (bytes.extract mark.length bytes.size)
  | none => (Encoding.unmarked bytes.data.toList).decode? bytes

end ContractAtlas.Text
