import ContractAtlas.Service.Framework
import ContractAtlas.Service.Inquiry
import ContractAtlas.Service.RateLimit
import ContractAtlas.Service.SizeLimit

/-!
# The service

A request passes the size limit, the access log, the check of its origin, the routes,
the check of its path and payload, and the rate limit, in this order, before it is
answered.  Of all this only the rate limit remembers anything, so the service is a
function from its window and a request to a response, the records for the log and the
next window.

What happens on the way is partly left to a `Framework`.
-/

namespace ContractAtlas.Service

/-- One step of a part of the service. -/
structure Turn (α : Type) where
  result : α
  records : List Log.Record := []
  window : RateWindow

/-- A request together with what became of it. -/
abbrev Exchange := Turn Response

/-- A response without records. -/
def silent (window : RateWindow) (response : Response) : Turn Outcome :=
  ⟨.responded response, [], window⟩

/-- What comes of an answer. -/
def outcomeOf : Except Failure Json → Outcome
  | .ok answer => .responded (.json 200 answer)
  | .error (.refused refusal) => .responded (.json refusal.status refusal.envelope)
  | .error (.unexpected text) => .crashed text

/-- An inquiry behind the rate limit. -/
def inquire (settings : Settings) (limit : RateLimit) (window : RateWindow) (path : String)
    (inquiry : Inquiry) : Turn Outcome :=
  if settings.rateLimited && inquiry.isLimited then
    if window.admits limit path then
      let answered := inquiry.answer settings
      ⟨outcomeOf answered.answer, answered.records, window.hit path⟩
    else
      ⟨.responded limit.response, [limit.record], window.hit path⟩
  else
    let answered := inquiry.answer settings
    ⟨outcomeOf answered.answer, answered.records, window⟩

/-- The address of every client. -/
def clientAddress : String := "127.0.0.1"

def accessRecord (title : String) (status : Nat) : Log.Record :=
  { level := if 500 ≤ status then .warning else .info
    logger := "contractviz.request"
    message := title
    fields := [("status", .int status), ("client_ip", .ofString clientAddress)] }

/-- The response after an error that nobody has foreseen. -/
def crashResponse : Response :=
  { Response.json 500 <| errorEnvelope "INTERNAL_SERVER_ERROR"
      "An unexpected error occurred. Please try again later." (.record [])
    with timed := false }

def crashRecord (text : String) : Log.Record :=
  { level := .error
    logger := "contractviz.middleware.error_handler"
    message := "Unhandled exception: " ++ text }

/-- The exchange in which an error ends that nobody has foreseen. -/
def crash (text : String) (records : List Log.Record) (window : RateWindow) : Exchange :=
  ⟨crashResponse, records ++ [crashRecord text], window⟩

namespace Framework

variable (framework : Framework) (settings : Settings) (limit : RateLimit) (window : RateWindow)
  (request : Request)

/-- The method and the path of a request, as they are logged. -/
def title : Except String String :=
  (framework.addressPath request).map request.titleWith

/-- A request behind the check of its origin. -/
def dispatch : Turn Outcome :=
  match framework.route request with
  | .answered response => silent window response
  | .endpoint endpoint =>
    match Inquiry.ofPayload endpoint (framework.payload request) with
    | .error rejection => ⟨framework.rejected rejection, [], window⟩
    | .ok inquiry => inquire settings limit window request.path inquiry

/-- A turn with the header fields for the origin of the request in its response. -/
def annotated (turn : Turn Outcome) : Turn Outcome :=
  { turn with
    result := match turn.result with
      | .responded response =>
        .responded (response.withHeaders (framework.originFields settings.origins request))
      | .crashed text => .crashed text }

/-- A request behind the access log. -/
def behindLog : Turn Outcome :=
  match framework.preflight? settings.origins request with
  | some response => silent window response
  | none => framework.annotated settings request (framework.dispatch settings limit window request)

/-- The exchange in which a turn behind the access log ends.  What was answered is logged under
the title of the request. -/
def concluded (turn : Turn Outcome) : Exchange :=
  match turn.result, framework.title request with
  | .responded response, .ok title =>
    ⟨response, turn.records ++ [accessRecord title response.status], turn.window⟩
  | .responded _, .error text | .crashed text, _ => crash text turn.records turn.window

/-- A request behind the size limit. -/
def behindLimit : Exchange :=
  framework.concluded request (framework.behindLog settings limit window request)

/-- One request. -/
def exchange : Exchange :=
  match SizeLimit.excess? settings.maxInputBytes (request.header? "content-length") with
  | some length =>
    match framework.title request with
    | .ok title =>
      ⟨SizeLimit.response settings.maxInputBytes length,
        [SizeLimit.record title settings.maxInputBytes length], window⟩
    | .error text => crash text [] window
  | none => framework.behindLimit settings limit window request

/-- Several requests, one after the other. -/
def exchanges : RateWindow → List Request → List Exchange
  | _, [] => []
  | window, request :: rest =>
    let first := framework.exchange settings limit window request
    first :: exchanges first.window rest

end Framework

/-- One request to the service. -/
abbrev exchange : Settings → RateLimit → RateWindow → Request → Exchange :=
  Framework.standard.exchange

/-- Several requests to the service, one after the other. -/
abbrev exchanges : Settings → RateLimit → RateWindow → List Request → List Exchange :=
  Framework.standard.exchanges

/-! ## Start and end -/

/-- The logger of the service as a whole. -/
def mainLogger : String := "contractviz.main"

def startRecord (settings : Settings) : Log.Record :=
  { level := .info
    logger := mainLogger
    message := s!"contractviz API started  env={settings.environment}  origins=" ++
      (Json.ofStrings settings.origins).display ++ s!"  max_input={settings.maxInputBytes}" }

def endRecord : Log.Record :=
  { level := .info
    logger := mainLogger
    message := "contractviz API shutting down" }

end ContractAtlas.Service
