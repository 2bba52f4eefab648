import ContractAtlas.Service.Message
import ContractAtlas.Text.Blank

/-!
# Requests from other origins

A browser says from which origin a page asks, and before an unusual request it asks for
permission.  Allowed origins are told so in a header field; all responses say that they
depend on the origin.
-/

namespace ContractAtlas.Service.CrossOrigin

def allowedMethods : List String := ["GET", "POST", "OPTIONS"]

def allowedHeaders : List String :=
  ["Accept", "Accept-Language", "Content-Language", "Content-Type"]

/-- Whether a request asks for the permission to send another one. -/
def isPreflight (request : Request) : Bool :=
  request.method == "OPTIONS" && (request.header? "origin").isSome &&
    (request.header? "access-control-request-method").isSome

/-- Whether every header field of a comma-separated list is allowed. -/
def allowsHeaders (names : String) : Bool :=
  (names.toList.splitOn ',').all fun name =>
    (allowedHeaders.map String.toLower).contains (String.ofList (Text.trim name)).toLower

/-- What is not allowed in the request that a client asks the permission for. -/
def objections (origins : List String) (request : Request) : List String :=
  let origin := (request.header? "origin").getD ""
  let method := (request.header? "access-control-request-method").getD ""
  let headers := request.header? "access-control-request-headers"
  let network := request.header? "access-control-request-private-network"
  (if origins.contains origin then [] else ["origin"]) ++
    (if allowedMethods.contains method then [] else ["method"]) ++
    (if headers.all allowsHeaders then [] else ["headers"]) ++
    (if network.isNone then [] else ["private-network"])

/-- The field that allows the origin of a request, if it is one of the allowed ones. -/
def originHeader (origins : List String) (request : Request) : List (String × String) :=
  match request.header? "origin" with
  | some origin =>
    if origins.contains origin then [("access-control-allow-origin", origin)] else []
  | none => []

/-- The answer to a request for permission, if this is one. -/
def preflight? (origins : List String) (request : Request) : Option Response :=
  if isPreflight request then
    let failures := objections origins request
    let headers := [
      ("content-type", "text/plain; charset=utf-8"),
      ("vary", "Origin, Access-Control-Request-Method, Access-Control-Request-Headers, " ++
        "Access-Control-Request-Private-Network"),
      ("access-control-allow-methods", ", ".intercalate allowedMethods),
      ("access-control-max-age", "600"),
      ("access-control-allow-headers", ", ".intercalate allowedHeaders)]
    some {
      status := if failures.isEmpty then 200 else 400
      headers := headers ++ originHeader origins request
      content := .plain <|
        if failures.isEmpty then "OK" else "Disallowed CORS " ++ ", ".intercalate failures }
  else none

/-- The fields that tell a client that a response depends on its origin. -/
def originFields (origins : List String) (request : Request) : List (String × String) :=
  ("vary", "Origin") :: originHeader origins request

end ContractAtlas.Service.CrossOrigin
