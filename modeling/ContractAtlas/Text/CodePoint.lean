/-!
# Code points and text

Source text consists of characters.  Strings read from JSON may also hold half
of a surrogate pair, written as an escape, and such a half is no character.
`Text` is therefore a list of code points, most of which are characters.

The main facts are that a surrogate pair of escapes denotes one character
(`joinSurrogates`) and that text without halves is the same thing as a list of
characters (`chars?_ofChars`).
-/

namespace ContractAtlas

/-- A character, or one half of a surrogate pair.  The half `offset` stands for
the code point `0xD800 + offset`; the first 1024 halves open a pair and the
others close one. -/
inductive CodePoint where
  | char (value : Char)
  | half (offset : Fin 2048)
  deriving DecidableEq, Repr

/-- A string that may hold halves of surrogate pairs. -/
abbrev Text := List CodePoint

namespace CodePoint

/-- The number of a code point. -/
def number : CodePoint → Nat
  | .char value => value.toNat
  | .half offset => 0xD800 + offset.val

/-- The code point of a sixteen-bit unit. -/
def ofUnit (unit : Nat) : CodePoint :=
  if h : 0xD800 ≤ unit ∧ unit < 0xE000 then
    .half ⟨unit - 0xD800, by omega⟩
  else
    .char (Char.ofNat unit)

/-- The character that an opening and a closing half denote together. -/
def joined (opening closing : Fin 2048) : Char :=
  Char.ofNat (0x10000 + opening.val * 1024 + (closing.val - 1024))

end CodePoint

namespace Text

def ofChars (chars : List Char) : Text :=
  chars.map .char

def ofString (string : String) : Text :=
  ofChars string.toList

/-- The characters of a text that holds no half of a surrogate pair. -/
def chars? (text : Text) : Option (List Char) :=
  text.mapM fun
    | .char value => some value
    | .half _ => none

def string? (text : Text) : Option String :=
  (chars? text).map String.ofList

/-- The text as it can be shown: a half of a pair appears as the replacement
character. -/
def shown (text : Text) : String :=
  String.ofList <| text.map fun
    | .char value => value
    | .half _ => '\uFFFD'

/-- Put together each opening half that is directly followed by a closing one. -/
def joinSurrogates : Text → Text
  | .half opening :: .half closing :: rest =>
    if opening.val < 1024 ∧ 1024 ≤ closing.val then
      .char (CodePoint.joined opening closing) :: joinSurrogates rest
    else
      .half opening :: joinSurrogates (.half closing :: rest)
  | point :: rest => point :: joinSurrogates rest
  | [] => []

@[simp]
theorem chars?_ofChars (chars : List Char) : chars? (ofChars chars) = some chars := by
  induction chars with
  | nil => rfl
  | cons c rest ih =>
    simp only [chars?, ofChars, List.map_cons, List.mapM_cons] at ih ⊢
    simp [ih]

@[simp]
theorem string?_ofString (string : String) : string? (ofString string) = some string := by
  simp [string?, ofString]

theorem ofString_injective {left right : String} (h : ofString left = ofString right) :
    left = right := by
  have := congrArg string? h
  simpa using this

end Text

end ContractAtlas
