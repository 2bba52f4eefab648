import ContractAtlas.Source.Shape

/-!
# The heading of a source

A source says once which license it is under, which compiler versions it asks for
and which contract it declares.  The first occurrence of each counts.
-/

namespace ContractAtlas.Source

open ContractAtlas.Text

/-- Leave out every parenthesised argument list. -/
def withoutArguments (skipped : Nat) : List Char → List Char
  | [] => []
  | c :: rest =>
    match skipped with
    | more + 1 => withoutArguments more rest
    | 0 =>
      match enclosed? (c :: rest) with
      | some (_, left) => withoutArguments (rest.length - left.length) rest
      | none => c :: withoutArguments 0 rest

/-- The contracts that an inheritance clause names, without the arguments of their
constructors. -/
def parents (clause : List Char) : List String :=
  (((withoutArguments 0 clause).splitOn ',').map trim).filter
    (fun parent => !parent.isEmpty && parent.all isQualified) |>.map String.ofList

/-- The parents that a contract's name is followed by, if any. -/
def inheritance (text : List Char) : List String :=
  match blanks? text >>= after? "is" with
  | some (c :: rest) =>
    if isBlank c then parents (rest.takeWhile fun c => c ≠ '{' && c ≠ ';') else []
  | _ => []

/-- A contract's name and its parents. -/
structure Title where
  name : String
  parents : List String
  deriving DecidableEq, Repr

/-- The word `contract`, a name, and perhaps an inheritance clause. -/
def titleShape : Shape Title := fun before text => do
  let (name, rest) ← name? (← blanks? (← keyword? "contract" before text))
  return (⟨String.ofList name, inheritance rest⟩, rest)

/-- The words `pragma solidity`, a blank, and at least one more character before
the next semicolon.  The version is what stands there between the blanks. -/
def versionShape : Shape String := fun before text => do
  let rest ← after? "solidity" (← blanks? (← keyword? "pragma" before text))
  match rest.takeWhile (· ≠ ';') with
  | c :: d :: clause =>
    if isBlank c then
      some (String.ofList (trim (d :: clause)), rest.dropWhile (· ≠ ';'))
    else none
  | _ => none

/-- A comment with the tag of a license.  The identifier is the rest of the line on
which the first character behind the tag stands.  Where only blanks follow, an
empty identifier is read, unless all of them are line feeds. -/
def licenseShape : Shape String := fun _ text => do
  let rest ← after? "SPDX-License-Identifier:" (trimStart (← after? "//" text))
  match trimStart rest with
  | [] => if rest.any (· ≠ '\n') then some ("", []) else none
  | body =>
    some (String.ofList (trimEnd (body.takeWhile (· ≠ '\n'))), body.dropWhile (· ≠ '\n'))

end ContractAtlas.Source
