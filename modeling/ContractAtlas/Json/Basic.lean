import ContractAtlas.Numeral.Binary64
import ContractAtlas.Text.CodePoint

/-!
# JSON values

A JSON value keeps what its text says: integers of any size apart from
floating-point numbers, strings that may hold halves of surrogate pairs, and
objects whose fields stay in order.  A repeated key keeps the place of its first
field and takes the value of its last one (`setField`).
-/

namespace ContractAtlas

inductive Json where
  | null
  | bool (value : Bool)
  | int (value : Int)
  | float (value : Binary64)
  | str (value : Text)
  | arr (items : List Json)
  | obj (fields : List (Text × Json))

namespace Json

/-- How many arrays and objects may be open at once, when text is read and when it is
written. -/
def nestingLimit : Nat := 980

/-- The string value with the characters of `string`. -/
def ofString (string : String) : Json :=
  .str (Text.ofString string)

def ofStrings (strings : List String) : Json :=
  .arr (strings.map ofString)

/-- The value of an optional fact, null if it is absent. -/
def ofOption {α : Type} (encode : α → Json) : Option α → Json
  | some value => encode value
  | none => .null

/-- An object from fields with distinct names. -/
def record (fields : List (String × Json)) : Json :=
  .obj (fields.map fun (name, value) => (Text.ofString name, value))

/-- Set a field in place if the key is there, and append it otherwise. -/
def setField {κ : Type} [DecidableEq κ] (key : κ) (value : Json) :
    List (κ × Json) → List (κ × Json)
  | [] => [(key, value)]
  | (known, old) :: rest =>
    if known = key then (known, value) :: rest else (known, old) :: setField key value rest

/-- An object from the fields of its text, in their order. -/
def ofFields (fields : List (Text × Json)) : Json :=
  .obj (fields.foldl (fun known (key, value) => setField key value known) [])

/-- The value of a field, if this is an object that has it. -/
def field? (value : Json) (name : String) : Option Json :=
  match value with
  | .obj fields => (fields.find? fun entry => entry.1 == Text.ofString name).map (·.2)
  | _ => none

def keys : Json → List Text
  | .obj fields => fields.map (·.1)
  | _ => []

/-- The characters of a string without halves of surrogate pairs. -/
def string? : Json → Option String
  | .str value => value.string?
  | _ => none

def items? : Json → Option (List Json)
  | .arr items => some items
  | _ => none

theorem setField_of_notMem {κ : Type} [DecidableEq κ] {key : κ} {value : Json}
    {fields : List (κ × Json)} (h : ∀ entry ∈ fields, entry.1 ≠ key) :
    setField key value fields = fields ++ [(key, value)] := by
  induction fields with
  | nil => rfl
  | cons entry rest ih =>
    have hne : entry.1 ≠ key := h entry (by simp)
    have hrest := ih fun other hother => h other (by simp [hother])
    simp [setField, hne, hrest]

end Json

end ContractAtlas
