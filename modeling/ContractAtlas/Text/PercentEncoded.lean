/-!
# Percent-encoded text

In the address of a resource, characters without a place there are written as the
hexadecimal numbers of their bytes, each behind a percent sign.
-/

namespace ContractAtlas.Text

/-- Whether a character may stand in an address as it is. -/
def isAddressChar (c : Char) : Bool :=
  c.isAlphanum || "_.-~:/%#?=@[]!$&'()*+,;".toList.contains c

/-- A byte as a percent sign and two upper-case hexadecimal digits. -/
def percentByte (byte : UInt8) : List Char :=
  ['%', (Nat.digitChar (byte.toNat / 16)).toUpper, (Nat.digitChar (byte.toNat % 16)).toUpper]

/-- A character as it stands in an address. -/
def addressChar (c : Char) : List Char :=
  if isAddressChar c then [c] else (String.utf8EncodeChar c).flatMap percentByte

def percentEncode (chars : List Char) : List Char :=
  chars.flatMap addressChar

end ContractAtlas.Text
