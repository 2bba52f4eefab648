import ContractAtlas.Service.CrossOrigin
import ContractAtlas.Service.Payload
import ContractAtlas.Service.Route

/-!
# The framework of the service

The service stands on libraries that receive requests for it, find the way to its endpoints, read
bodies and answer for it where it has nothing to say.  What it takes from them are the parameters
of a `Framework`.  What it relies on is little: a request that asks for permission leads to no
endpoint, and no answer that is not its own says that there were too many requests
(`Framework.Documented`).

`Framework.standard` does what the libraries do with requests that name a plain host, that announce
the type of their body and that do not encode halves of surrogate pairs.
-/

namespace ContractAtlas.Service

/-- Where a request leads: to an endpoint, or to an answer without one. -/
inductive Route where
  | endpoint (endpoint : Endpoint)
  | answered (response : Response)

/-- What the service leaves to the libraries that it stands on. -/
structure Framework where
  /-- The path in the address of a request, or why the address has none. -/
  addressPath : Request → Except String String
  /-- The answer to a request that asks for permission, for the origins that are allowed. -/
  preflight? : List String → Request → Option Response
  /-- The header fields that are added to the response for the origin of a request. -/
  originFields : List String → Request → List (String × String)
  route : Request → Route
  /-- The body of a request as the endpoints get it. -/
  payload : Request → Except PayloadError Payload
  /-- What comes of a request whose path or payload has not the form that is asked for. -/
  rejected : Rejection → Outcome

/-- The status of an outcome in the response that the client gets. -/
def Outcome.status : Outcome → Nat
  | .responded response => response.status
  | .crashed _ => 500

namespace Framework

/-- What is relied on. -/
structure Documented (framework : Framework) : Prop where
  /-- Permission is asked for with a method that no endpoint knows. -/
  preflight_eq_none : ∀ {origins request endpoint},
    framework.route request = .endpoint endpoint → framework.preflight? origins request = none
  status_preflight : ∀ {origins request response},
    framework.preflight? origins request = some response → response.status ≠ 429
  status_answered : ∀ {request response},
    framework.route request = .answered response → response.status ≠ 429
  status_rejected : ∀ rejection, (framework.rejected rejection).status ≠ 429

/-- The route of a request on the common way. -/
def standardRoute (request : Request) : Route :=
  match Destination.ofRequest request with
  | .endpoint endpoint => .endpoint endpoint
  | .page page => .answered page.response
  | .wrongMethod allowed => .answered (methodNotAllowed allowed)
  | .elsewhere path => .answered (redirection request path)
  | .nowhere => .answered notFound

def standard : Framework where
  addressPath request := .ok request.loggedPath
  preflight? := CrossOrigin.preflight?
  originFields := CrossOrigin.originFields
  route := standardRoute
  payload := Payload.ofRequest
  rejected := Rejection.outcome

@[simp]
theorem route_standard : standard.route = standardRoute := rfl

@[simp]
theorem payload_standard : standard.payload = Payload.ofRequest := rfl

end Framework

end ContractAtlas.Service
