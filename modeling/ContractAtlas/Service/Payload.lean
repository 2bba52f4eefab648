import ContractAtlas.Diagram.Selection
import ContractAtlas.Json.Reader
import ContractAtlas.Schema.Decoder
import ContractAtlas.Service.Message
import ContractAtlas.Text.Encoding

/-!
# Payloads

The body of a request is read as JSON if its media type says so, and then checked
against the form that the endpoint asks for.  A rejection tells every issue together
with the value that it is about, so it can only be told if those values can be written
in a response.
-/

namespace ContractAtlas.Service

open ContractAtlas.Schema

/-- The media type of a content-type field, in lower case and without parameters. -/
def mediaType (field : String) : List Char :=
  (Text.trim (field.toList.takeWhile (· ≠ ';'))).map Char.toLower

/-- Whether a content-type field announces JSON. -/
def announcesJson (field : String) : Bool :=
  match (mediaType field).splitOn '/' with
  | [kind, subtype] =>
    kind == "application".toList &&
      (subtype == "json".toList || "+json".toList.isSuffixOf subtype)
  | _ => false

/-- The body of a request. -/
inductive Payload where
  | absent
  | json (value : Json)
  /-- A body that is not announced as JSON. -/
  | uninterpreted

/-- Why a body cannot be read. -/
inductive PayloadError where
  | malformed (position : Nat)
  /-- The body cannot be decoded, it is too deep, or it holds too long a numeral. -/
  | unreadable
  deriving DecidableEq, Repr

def Payload.ofRequest (request : Request) : Except PayloadError Payload :=
  if request.body.bytes.isEmpty then .ok .absent
  else if (request.header? "content-type").any announcesJson then
    match (Text.decode? request.body.bytes).map Json.read with
    | some (.ok value) => .ok (.json value)
    | some (.error (.malformed position)) => .error (.malformed position)
    | _ => .error .unreadable
  else .ok .uninterpreted

/-- A value of the form that is asked for. -/
def Payload.decode {α : Type} (decoder : Decoder α) (payload : Payload) : Checked α :=
  match payload with
  | .absent | .json .null => .fault .missing
  | .json value => object .notObject decoder value
  | .uninterpreted => .fault .notObject

/-- The value itself; what is not JSON has none. -/
def Payload.value : Payload → Json
  | .json value => value
  | _ => .null

/-! ## Forms -/

/-- A string whose length lies between two bounds. -/
def boundedText (least most : Nat) : Decoder String
  | .str value =>
    match value.string? with
    | none => .fault .notUnicode
    | some text =>
      if text.length < least then .fault (.stringTooShort least)
      else if most < text.length then .fault (.stringTooLong most)
      else .valid text
  | _ => .fault .notString

/-- The greatest length of a source. -/
def sourceLimit : Nat := 100000

/-- The greatest length of a contract's name. -/
def nameLimit : Nat := 200

/-- The zeros of the scripts that came after version 14 of the Unicode character
database, up to version 16. -/
def laterZeroDigits : List Nat :=
  [0x10D40, 0x116D0, 0x116DA, 0x11BF0, 0x11F50, 0x16130, 0x16D70, 0x1CCF0, 0x1E4F0, 0x1E5F1]

/-- A decimal digit of any script. -/
def isFormDigit (c : Char) : Bool :=
  (Text.digitValue? c).isSome ||
    laterZeroDigits.any fun first => first ≤ c.toNat && c.toNat < first + 10

/-- The pattern of a function's node. -/
def nodePattern : String := "^function-\\d+$"

/-- Whether a string has the form of a function's node. -/
def isFunctionNode (id : String) : Bool :=
  let digits := id.toList.drop "function-".length
  "function-".toList.isPrefixOf id.toList && !digits.isEmpty && digits.all isFormDigit

/-- A string in the form of a function's node. -/
def nodeText : Decoder String
  | .str value =>
    match value.string? with
    | none => .fault .notUnicode
    | some text =>
      if isFunctionNode text then .valid text else .fault (.stringMismatch nodePattern)
  | _ => .fault .notString

/-- A source that is not empty. -/
def sourceForm : Decoder String :=
  required "source" (boundedText 1 sourceLimit)

/-- A source and the node of one of its functions. -/
def functionForm : Decoder (String × String) := fun record =>
  Prod.mk <$> sourceForm record <*> required "node_id" nodeText record

/-- A named source of a batch. -/
def batchEntryForm : Decoder (String × String) :=
  object .notObject fun record =>
    Prod.mk
      <$> optional "name" "" (boundedText 0 nameLimit) record
      <*> optional "source" "" (boundedText 0 sourceLimit) record

/-- A list of named sources that is not empty. -/
def batchEntries : Decoder (List (String × String))
  | .arr [] => .fault (.tooFewItems "List" 1 0)
  | value => arrayOf .notList batchEntryForm value

def batchForm : Decoder (List (String × String)) :=
  required "contracts" batchEntries

/-- The view that a path names. -/
def viewForm (name : String) : Checked View :=
  match View.ofName? name with
  | some view => .valid view
  | none => .fault (.notKeyword (View.all.map View.name))

/-! ## Rejections -/

/-- A value that an issue is about: the object in which a field is missing, or else the
value at the end of the way. -/
def subject (value : Json) : List Step → Fault → Json
  | [], _ => value
  | [.field _], .missing => value
  | .field name :: path, fault => subject ((value.field? name).getD .null) path fault
  | .item position :: path, fault =>
    subject ((value.items?.getD [])[position]?.getD .null) path fault

mutual

/-- Whether a value can be written in a response: it holds no half of a surrogate pair
and no number that no decimal denotes. -/
def isTellable : Json → Bool
  | .null | .bool _ | .int _ | .float (.finite ..) => true
  | .float _ => false
  | .str value => (Text.chars? value).isSome
  | .arr items => areTellable items
  | .obj fields => areFieldsTellable fields

/-- Whether all values can be written in a response. -/
def areTellable : List Json → Bool
  | [] => true
  | item :: rest => isTellable item && areTellable rest

/-- Whether all keys and values can be written in a response. -/
def areFieldsTellable : List (Text × Json) → Bool
  | [] => true
  | (key, value) :: rest =>
    (Text.chars? key).isSome && isTellable value && areFieldsTellable rest

end

/-- Why a request is rejected before it is handled. -/
inductive Rejection where
  | unreadable
  /-- The issues, each with its place in the whole request. -/
  | issues (issues : List Issue)
  /-- Issues about values that cannot be told. -/
  | untellable

/-- The rejection of a payload for its issues, with further ones about the path. -/
def Rejection.ofIssues (payload : Payload) (pathIssues bodyIssues : List Issue) : Rejection :=
  if bodyIssues.all fun issue => isTellable (subject payload.value issue.path issue.fault) then
    .issues (pathIssues ++ bodyIssues.map (·.within (.field "body")))
  else .untellable

/-- A value from the path together with a payload in the form that is asked for; the issues
of the path come first. -/
def formWith {α β : Type} (pathValue : Checked α) (decoder : Decoder β)
    (payload : Except PayloadError Payload) : Except Rejection (α × β) :=
  match payload with
  | .error (.malformed position) =>
    .error (.issues [⟨[.field "body", .item position], .malformedJson⟩])
  | .error .unreadable => .error .unreadable
  | .ok payload =>
    match pathValue, payload.decode decoder with
    | .valid first, .valid second => .ok (first, second)
    | .invalid pathIssues, .valid _ => .error (.ofIssues payload pathIssues [])
    | .valid _, .invalid issues => .error (.ofIssues payload [] issues)
    | .invalid pathIssues, .invalid issues => .error (.ofIssues payload pathIssues issues)

/-- A payload in the form that is asked for. -/
def form {α : Type} (decoder : Decoder α) (payload : Except PayloadError Payload) :
    Except Rejection α :=
  (formWith (.valid ()) decoder payload).map (·.2)

/-! ## Responses -/

def stepJson : Step → Json
  | .field name => .ofString name
  | .item position => .int position

/-- An issue as it is told to the client. -/
def issueJson (issue : Issue) : Json :=
  .record [
    ("type", .ofString issue.fault.code),
    ("loc", .arr (issue.path.map stepJson)),
    ("msg", .ofString issue.fault.message)]

/-- What comes of a rejected request.  Issues that cannot be told end in a crash. -/
def Rejection.outcome : Rejection → Outcome
  | .unreadable => .responded (.json 400 (detail "There was an error parsing the body"))
  | .issues found =>
    .responded (.json 422 (.record [("detail", .arr (found.map issueJson))]))
  | .untellable => .crashed "the issues of the request cannot be written"

end ContractAtlas.Service
