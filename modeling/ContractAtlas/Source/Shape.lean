import ContractAtlas.Text.Blank
import ContractAtlas.Text.Word

/-!
# Shapes and their occurrences

A shape recognises one construct at the start of a text.  It sees the character
before that text, since most constructs open with a word that must not continue
another one, and gives what it read together with the text that is left.

`occurrences` finds a shape from left to right: it tries every position in turn
and goes on behind each occurrence, so that occurrences never overlap.
-/

namespace ContractAtlas.Source

open ContractAtlas.Text

/-- A construct that may stand at the start of a text. -/
abbrev Shape (α : Type) := Option Char → List Char → Option (α × List Char)

/-- One place where a shape was found: its first position, the position behind it,
and what was read there. -/
structure Occurrence (α : Type) where
  start : Nat
  stop : Nat
  value : α
  deriving Repr

/-- The occurrences in the text that follows `before` and starts at `position`.  The
next `skipped` characters belong to an occurrence that was found already. -/
def occurrencesFrom {α : Type} (shape : Shape α) (before : Option Char)
    (skipped position : Nat) : List Char → List (Occurrence α)
  | [] => []
  | c :: rest =>
    match skipped with
    | more + 1 => occurrencesFrom shape (some c) more (position + 1) rest
    | 0 =>
      match shape before (c :: rest) with
      | none => occurrencesFrom shape (some c) 0 (position + 1) rest
      | some (value, left) =>
        let length := rest.length + 1 - left.length
        ⟨position, position + length, value⟩ ::
          occurrencesFrom shape (some c) (length - 1) (position + 1) rest

/-- The occurrences of a shape in a text. -/
def occurrences {α : Type} (shape : Shape α) (text : List Char) : List (Occurrence α) :=
  occurrencesFrom shape none 0 0 text

/-- What the first occurrence of a shape reads. -/
def first? {α : Type} (shape : Shape α) (text : List Char) : Option α :=
  (occurrences shape text).head?.map (·.value)

/-! ## Parts of shapes -/

/-- The text behind a given beginning. -/
def after? (beginning : String) (text : List Char) : Option (List Char) :=
  if beginning.toList.isPrefixOf text then some (text.drop beginning.length) else none

/-- The text behind a word that does not continue another word. -/
def keyword? (word : String) (before : Option Char) (text : List Char) : Option (List Char) :=
  if before.any isWord then none else after? word text

/-- The text behind one or more blanks. -/
def blanks? : List Char → Option (List Char)
  | c :: rest => if isBlank c then some (trimStart rest) else none
  | [] => none

/-- A non-empty run of word characters, and the text behind it. -/
def name? (text : List Char) : Option (List Char × List Char) :=
  let name := text.takeWhile isWord
  if name.isEmpty then none else some (name, text.dropWhile isWord)

/-- The text behind a character. -/
def mark? (mark : Char) : List Char → Option (List Char)
  | c :: rest => if c = mark then some rest else none
  | [] => none

/-- What stands before the first closing parenthesis, and the text behind it. -/
def closed? (text : List Char) : Option (List Char × List Char) := do
  let rest ← mark? ')' (text.dropWhile (· ≠ ')'))
  return (text.takeWhile (· ≠ ')'), rest)

/-- A parenthesised text without inner closing parentheses. -/
def enclosed? (text : List Char) : Option (List Char × List Char) := do
  closed? (← mark? '(' text)

/-- Whether a character ends a statement or bounds a block. -/
def endsStatement (c : Char) : Bool :=
  c == ';' || c == '{' || c == '}'

/-- A run without semicolons and braces up to an opening brace. -/
def upToBody? (text : List Char) : Option (List Char × List Char) := do
  let rest ← mark? '{' (text.dropWhile (!endsStatement ·))
  return (text.takeWhile (!endsStatement ·), rest)

/-- The part of a text that was read when `left` remains. -/
def readPart (text left : List Char) : List Char :=
  text.take (text.length - left.length)

/-- Every text that a shape leaves behind is a tail of the text it was given. -/
theorem length_trimStart_le (text : List Char) : (trimStart text).length ≤ text.length :=
  (List.dropWhile_suffix _).length_le

theorem length_mark? {mark : Char} {text rest : List Char} (h : mark? mark text = some rest) :
    text = mark :: rest := by
  cases text with
  | nil => simp [mark?] at h
  | cons c tail =>
    by_cases hc : c = mark
    · simp [mark?, hc] at h
      simp [hc, h]
    · simp [mark?, hc] at h

end ContractAtlas.Source
