import ContractAtlas.Json.Basic

/-!
# Requests and responses

What a client sends and what it gets back.  Names of header fields have no case, and of
several fields with one name the first counts.
-/

namespace ContractAtlas.Service

/-- The bytes of a body. -/
structure Body where
  bytes : ByteArray

/-- A text as it is sent. -/
instance : Coe String Body where
  coe text := ⟨text.toUTF8⟩

structure Request where
  method : String
  path : String
  headers : List (String × String) := []
  body : Body := ""

namespace Request

/-- The value of a header field. -/
def header? (request : Request) (name : String) : Option String :=
  (request.headers.find? fun field => field.1.toLower == name).map (·.2)

/-- The path in the address of a request to a plain host: without line breaks and tabs, and
without what looks like a query or a fragment. -/
def loggedPath (request : Request) : String :=
  let kept := request.path.toList.filter fun c => c ≠ '\t' && c ≠ '\n' && c ≠ '\r'
  String.ofList ((kept.takeWhile fun c => c ≠ '?' && c ≠ '#').dropWhile (· ≠ '/'))

/-- The method and a path, as they are logged. -/
def titleWith (request : Request) (path : String) : String :=
  request.method ++ " " ++ path

/-- The title of a request to a plain host. -/
def title (request : Request) : String :=
  request.titleWith request.loggedPath

end Request

/-- What a response holds. -/
inductive Content where
  | json (value : Json)
  | plain (text : String)
  /-- Nothing at all. -/
  | empty

structure Response where
  status : Nat
  headers : List (String × String) := []
  content : Content
  /-- Whether the response tells how long it took. -/
  timed : Bool := true

namespace Response

/-- A response with a JSON value. -/
def json (status : Nat) (value : Json) : Response :=
  { status, headers := [("content-type", "application/json")], content := .json value }

/-- The response with further header fields. -/
def withHeaders (response : Response) (fields : List (String × String)) : Response :=
  { response with headers := response.headers ++ fields }

end Response

/-- A detail that is told in place of an answer. -/
def detail (text : String) : Json :=
  .record [("detail", .ofString text)]

/-- What comes of a request. -/
inductive Outcome where
  | responded (response : Response)
  /-- An error that nobody has foreseen. -/
  | crashed (text : String)

end ContractAtlas.Service
