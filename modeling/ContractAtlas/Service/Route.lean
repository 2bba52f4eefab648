import ContractAtlas.Service.Message
import ContractAtlas.Text.PercentEncoded

/-!
# Routes

Which endpoint a path leads to.  Every endpoint knows one method.  Beside the endpoints there
are pages that describe the service.  A path that leads somewhere only without the slashes at
its end is redirected there.
-/

namespace ContractAtlas.Service

/-- The version of the service. -/
def version : String := "1.0.0"

/-- A path without one line break at its end. -/
def withoutBreak (path : String) : String :=
  match path.toList.reverse with
  | '\n' :: rest => String.ofList rest.reverse
  | _ => path

/-- The endpoints of the service. -/
inductive Endpoint where
  | health
  | analyse
  | analyseBatch
  | functionDiagram
  /-- The diagram of a contract in the view that the path names. -/
  | contractDiagram (view : String)
  deriving DecidableEq, Repr

namespace Endpoint

/-- The method that an endpoint knows. -/
def method : Endpoint → String
  | .health => "GET"
  | _ => "POST"

/-- The endpoints with a fixed path. -/
def fixed : List (String × Endpoint) := [
  ("/api/v1/analyze", .analyse),
  ("/api/v1/analyze/batch", .analyseBatch),
  ("/api/v1/diagrams/function", .functionDiagram),
  ("/health", .health)]

/-- The path up to a view's name. -/
def diagramsPath : String := "/api/v1/diagrams/"

/-- The name of a view in a path: one segment, which is not empty. -/
def viewName? (path : String) : Option String :=
  if diagramsPath.toList.isPrefixOf path.toList then
    let name := path.toList.drop diagramsPath.length
    if name.isEmpty || name.contains '/' then none else some (String.ofList name)
  else none

/-- The endpoint that a path leads to. -/
def ofPath? (path : String) : Option Endpoint :=
  match fixed.lookup (withoutBreak path) with
  | some endpoint => some endpoint
  | none => (viewName? path).map .contractDiagram

end Endpoint

/-- The pages that describe the service. -/
inductive Page where
  | description
  | reference
  | authorization
  | overview
  deriving DecidableEq, Repr

namespace Page

def all : List Page := [.description, .reference, .authorization, .overview]

def path : Page → String
  | .description => "/openapi.json"
  | .reference => "/docs"
  | .authorization => "/docs/oauth2-redirect"
  | .overview => "/redoc"

/-- The page that a path leads to. -/
def ofPath? (path : String) : Option Page :=
  all.find? (·.path == withoutBreak path)

/-- The methods that pages know. -/
def methods : List String := ["GET", "HEAD"]

/-- A page that is read in a browser.  Only its title is told here. -/
def titled (title : String) : Response :=
  { status := 200, headers := [("content-type", "text/html; charset=utf-8")],
    content := .plain title }

def response : Page → Response
  | .description => .json 200 <| .record [("info", .record [
      ("title", .ofString "contractviz API"), ("version", .ofString version)])]
  | .reference => titled "contractviz API - Swagger UI"
  | .authorization => titled "Swagger UI: OAuth2 Redirect"
  | .overview => titled "contractviz API - ReDoc"

end Page

/-- Where a request leads. -/
inductive Destination where
  | endpoint (endpoint : Endpoint)
  | page (page : Page)
  | wrongMethod (allowed : String)
  | elsewhere (path : String)
  | nowhere
  deriving DecidableEq, Repr

namespace Destination

/-- A path without the slashes at its end. -/
def withoutSlashes (path : String) : String :=
  String.ofList (path.toList.reverse.dropWhile (· == '/')).reverse

/-- Whether something is found under a path. -/
def isKnown (path : String) : Bool :=
  (Endpoint.ofPath? path).isSome || (Page.ofPath? path).isSome

def ofRequest (request : Request) : Destination :=
  match Endpoint.ofPath? request.path, Page.ofPath? request.path with
  | some target, _ =>
    if request.method = target.method then .endpoint target else .wrongMethod target.method
  | none, some target =>
    if Page.methods.contains request.method then .page target
    else .wrongMethod (", ".intercalate Page.methods)
  | none, none =>
    let shorter := withoutSlashes request.path
    if shorter ≠ request.path ∧ isKnown shorter then .elsewhere shorter else .nowhere

end Destination

def notFound : Response :=
  .json 404 (detail "Not Found")

def methodNotAllowed (allowed : String) : Response :=
  (Response.json 405 (detail "Method Not Allowed")).withHeaders [("allow", allowed)]

/-- The redirection to another path at the same host. -/
def redirection (request : Request) (path : String) : Response :=
  let address := "http://" ++ (request.header? "host").getD "" ++ path
  { status := 307
    headers := [("location", String.ofList (Text.percentEncode address.toList))]
    content := .empty }

end ContractAtlas.Service
