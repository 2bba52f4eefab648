import ContractAtlas.Json.Display
import ContractAtlas.Log.Fault

/-!
# Message templates

A template is a text with placeholders, `%s` for the text of any value and `%d` for an
integer; `%%` stands for a percent sign.  Placeholders take the given values one after
the other, and no value may be left over unless it is a collection that stands alone.
-/

namespace ContractAtlas.Log

/-- The values for the placeholders of a template. -/
structure Arguments where
  values : List Json
  /-- Whether values may be left over. -/
  lenient : Bool := false

namespace Arguments

/-- Several values; a single object with fields is a collection that stands alone. -/
def ofList : List Json → Arguments
  | [.obj (field :: fields)] => ⟨[.obj (field :: fields)], true⟩
  | values => ⟨values, false⟩

/-- Whether a value counts as nothing at all. -/
def isNothing : Json → Bool
  | .null | .bool false | .int 0 | .str [] | .arr [] | .obj [] => true
  | .float value => value.isZero
  | _ => false

/-- One value in place of a list of them. -/
def ofValue (value : Json) : Arguments :=
  if isNothing value then ⟨[], false⟩
  else
    match value with
    | .arr _ | .obj _ => ⟨[value], true⟩
    | _ => ⟨[value], false⟩

end Arguments

/-- The text of a value that is displayed. -/
def displayed (value : Json) : Except Fault String :=
  value.displayed.mapError .undisplayed

/-- The integer part of a number, as digits. -/
def integerText : Json → Except Fault (List Char)
  | .bool value => .ok (if value then ['1'] else ['0'])
  | .int value => String.toList <$> displayed (.int value)
  | .float (.infinite _) => .error .infinite
  | .float value =>
    match value.truncate? with
    | some whole => .ok (Json.writeInt whole)
    | none => .error .notANumber
  | value => .error (.notNumber (kindOf value))

/-- A value in place of the placeholder whose conversion stands at a position. -/
def converted (conversion : Char) (position : Nat) (value : Json) : Except Fault (List Char) :=
  if conversion = 's' then String.toList <$> displayed value
  else if conversion = 'd' then integerText value
  else .error (.unknownPlaceholder conversion position)

/-- The rest of a template from a position on, filled with values, and the values that
are left over. -/
def fillFrom (position : Nat) :
    List Char → List Json → Except Fault (List Char × List Json)
  | [], values => .ok ([], values)
  | ['%'], _ => .error .unfinished
  | '%' :: '%' :: template, values => do
    let (text, left) ← fillFrom (position + 2) template values
    return ('%' :: text, left)
  | '%' :: _ :: _, [] => .error .tooFewValues
  | '%' :: conversion :: template, value :: values => do
    let start ← converted conversion (position + 1) value
    let (text, left) ← fillFrom (position + 2) template values
    return (start ++ text, left)
  | c :: template, values => do
    let (text, left) ← fillFrom (position + 1) template values
    return (c :: text, left)

/-- A template filled with values.  Without any value it is no template but a text. -/
def fill (template : List Char) (arguments : Arguments) : Except Fault (List Char) :=
  if arguments.values.isEmpty then .ok template
  else do
    let (text, left) ← fillFrom 0 template arguments.values
    if left.isEmpty || arguments.lenient then .ok text else .error .tooManyValues

end ContractAtlas.Log
