import ContractAtlas.Declaration
import ContractAtlas.Source.Shape

/-!
# State variables

A state variable is written with its visibility behind its type,

    uint256 public constant MAX = 10;

or in front of it, `public constant uint256 MAX = 10;`.  The first form goes
first: what it covers is not read again in the second one.  Neither is read inside
the header of a function without a body, where the same words declare a result.
-/

namespace ContractAtlas.Source

open ContractAtlas.Text

/-- What a state variable's statement says. -/
structure VariableParts where
  type : List Char
  visibility : Visibility
  isConstant : Bool
  name : List Char
  initialValue : Option (List Char)

/-- The part of a statement behind the type. -/
structure VariableTail where
  visibility : Visibility
  isConstant : Bool
  name : List Char
  initialValue : Option (List Char)

/-- A visibility that a variable can have. -/
def storageVisibility? (text : List Char) : Option (Visibility × List Char) :=
  [Visibility.publicly, .privately, .internally].findSome? fun visibility =>
    (after? visibility.keyword text).map (visibility, ·)

/-- The end of a statement: a semicolon, or an equals sign with at least one
character before the next semicolon. -/
def initialValue? : List Char → Option (Option (List Char) × List Char)
  | ';' :: rest => some (none, rest)
  | '=' :: rest =>
    let value := rest.takeWhile (· ≠ ';')
    if value.isEmpty then none
    else do
      let left ← mark? ';' (rest.dropWhile (· ≠ ';'))
      return (some (trim value), left)
  | _ => none

/-- A name and the end of the statement, with blanks allowed between them. -/
def namedValue? (text : List Char) : Option ((List Char × Option (List Char)) × List Char) := do
  let (name, rest) ← name? text
  let (value, left) ← initialValue? (trimStart rest)
  return ((name, value), left)

/-- The text behind a qualifier and blanks. -/
def qualifier? (word : String) (text : List Char) : Option (List Char) := do
  blanks? (← after? word text)

/-- Blanks, a visibility, and the rest of the statement.  A word that could be a
qualifier is the variable's name if no other name follows. -/
def variableTail? (text : List Char) : Option (VariableTail × List Char) := do
  let (visibility, rest) ← storageVisibility? (← blanks? text)
  let rest ← blanks? rest
  let finish (isConstant : Bool) (rest : List Char) : Option (VariableTail × List Char) := do
    let ((name, value), left) ← namedValue? rest
    return (⟨visibility, isConstant, name, value⟩, left)
  (qualifier? "constant" rest >>= finish true) <|>
    (qualifier? "immutable" rest >>= finish false) <|> finish false rest

/-- The text behind one pair of brackets, with blanks before it. -/
def afterBrackets? (text : List Char) : Option (List Char) := do
  let inside ← mark? '[' (trimStart text)
  mark? ']' (inside.dropWhile (· ≠ ']'))

theorem length_afterBrackets? {text rest : List Char} (h : afterBrackets? text = some rest) :
    rest.length < text.length := by
  simp only [afterBrackets?, Option.bind_eq_bind, Option.bind_eq_some_iff] at h
  obtain ⟨inside, hinside, hrest⟩ := h
  have hopen := congrArg List.length (length_mark? hinside)
  have hclose := congrArg List.length (length_mark? hrest)
  have htrim := length_trimStart_le text
  have hdrop := (List.dropWhile_suffix (l := inside) (· ≠ ']')).length_le
  simp only [List.length_cons] at hopen hclose
  omega

/-- The text behind any number of pairs of brackets. -/
def afterAllBrackets (text : List Char) : List Char :=
  match hrest : afterBrackets? text with
  | some rest =>
    have := length_afterBrackets? hrest
    afterAllBrackets rest
  | none => text
termination_by text.length

/-- A statement whose type is a qualified name, perhaps of an array. -/
def plainVariable? (text : List Char) : Option (VariableTail × List Char × List Char) := do
  let c ← text.head?
  if startsIdentifier c then
    let behind := afterAllBrackets (text.dropWhile isQualified)
    let (tail, left) ← variableTail? behind
    return (tail, readPart text behind, left)
  else none

/-- The first closing parenthesis, before any semicolon or brace, behind which the
statement can go on: the rest of the statement, and the text behind the
parenthesis. -/
def mappingTail? : List Char → Option (VariableTail × List Char × List Char)
  | [] => none
  | c :: rest =>
    if endsStatement c then none
    else if c = ')' then
      match variableTail? rest with
      | some (tail, left) => some (tail, rest, left)
      | none => mappingTail? rest
    else mappingTail? rest

/-- A statement whose type is a mapping. -/
def mappingVariable? (text : List Char) : Option (VariableTail × List Char × List Char) := do
  let (tail, behind, left) ← mappingTail? (← mark? '(' (trimStart (← after? "mapping" text)))
  return (tail, readPart text behind, left)

/-- A statement with the visibility behind the type. -/
def typeFirstShape : Shape VariableParts := fun before text =>
  if before.any isQualified then none
  else do
    let (tail, type, left) ← mappingVariable? text <|> plainVariable? text
    return (⟨collapse type, tail.visibility, tail.isConstant, tail.name, tail.initialValue⟩, left)

/-- A type, blanks, a name and the end of the statement.  Before a semicolon no
blank is allowed here. -/
def typedValue? (text : List Char) :
    Option ((List Char × List Char × Option (List Char)) × List Char) := do
  let (type, rest) ← name? text
  let (name, rest) ← name? (← blanks? rest)
  let rest := if (trimStart rest).head? = some '=' then trimStart rest else rest
  let (value, left) ← initialValue? rest
  return ((type, name, value), left)

/-- A statement with the visibility in front of the type. -/
def visibilityFirstShape : Shape VariableParts := fun before text =>
  if before.any isWord then none
  else do
    let (visibility, rest) ← storageVisibility? text
    let rest ← blanks? rest
    let finish (isConstant : Bool) (rest : List Char) : Option (VariableParts × List Char) := do
      let ((type, name, value), left) ← typedValue? rest
      return (⟨type, visibility, isConstant, name, value⟩, left)
    (qualifier? "constant" rest >>= finish true) <|> finish false rest

/-- The word `function`, as a whole word. -/
def functionWordShape : Shape Unit := fun before text => do
  let rest ← keyword? "function" before text
  if rest.head?.any isWord then none else some ((), rest)

/-- Whether the statement before a position has the word `function` in it already. -/
def inFunctionHeader (text : List Char) (position : Nat) : Bool :=
  let statement := ((text.take position).reverse.takeWhile (!endsStatement ·)).reverse
  !(occurrences functionWordShape statement).isEmpty

/-- Whether two occurrences share a character. -/
def Occurrence.overlaps {α β : Type} (left : Occurrence α) (right : Occurrence β) : Bool :=
  left.start < right.stop && right.start < left.stop

/-- The occurrences of state variables in their order. -/
def variableOccurrences (text : List Char) : List (Occurrence VariableParts) :=
  let inStatement (found : Occurrence VariableParts) : Bool :=
    !inFunctionHeader text found.start
  let typeFirst := (occurrences typeFirstShape text).filter inStatement
  let visibilityFirst := (occurrences visibilityFirstShape text).filter fun found =>
    !typeFirst.any (found.overlaps ·) && inStatement found
  typeFirst.merge visibilityFirst fun left right => left.start ≤ right.start

def declaredVariable (found : Occurrence VariableParts) : VariableDeclaration :=
  { name := String.ofList found.value.name
    type := String.ofList found.value.type
    visibility := found.value.visibility
    offset := found.start
    isConstant := found.value.isConstant
    initialValue := found.value.initialValue.map String.ofList }

def stateVariables (text : List Char) : List VariableDeclaration :=
  (variableOccurrences text).map declaredVariable

end ContractAtlas.Source
