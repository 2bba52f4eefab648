import ContractAtlas.Batch
import ContractAtlas.Diagram.Selection

/-!
# Refusals

The requests that the analysis turns down: a text that is no contract, a node that is no
function, a batch in which nothing succeeds or that is too large.  Each refusal has a
code, a sentence and details for the client.
-/

namespace ContractAtlas

inductive Refusal where
  | format (error : FormatError)
  | noSuchFunction (id : String)
  | batch (error : BatchError)
  | tooManyContracts (received : Nat) (limit : Int)
  deriving DecidableEq, Repr

namespace Refusal

def status : Refusal → Nat
  | .format _ => 422
  | .noSuchFunction _ => 404
  | .batch _ => 422
  | .tooManyContracts .. => 400

def code : Refusal → String
  | .format _ => "INVALID_CONTRACT_FORMAT"
  | .noSuchFunction _ => "NODE_NOT_FOUND"
  | .batch _ => "BATCH_ANALYSIS_FAILED"
  | .tooManyContracts .. => "TOO_MANY_CONTRACTS"

def message : Refusal → String
  | .format error => error.message
  | .noSuchFunction id => SelectionError.message (.notFound id)
  | .batch error => error.message
  | .tooManyContracts _ limit => s!"A batch may contain at most {limit} contracts."

def details : Refusal → Json
  | .format error => .record [
      ("reason", .ofString error.fault.reason),
      ("input_summary", .ofString error.summary)]
  | .noSuchFunction id => .record [("node_id", .ofString id)]
  | .batch error => .record [("errors", .ofStrings error.errors)]
  | .tooManyContracts received limit => .record [
      ("received", .int received),
      ("limit", .int limit)]

end Refusal

/-- The envelope in which clients are told of errors. -/
def errorEnvelope (code message : String) (details : Json) : Json :=
  .record [
    ("error", .bool true),
    ("error_code", .ofString code),
    ("message", .ofString message),
    ("details", details)]

def Refusal.envelope (refusal : Refusal) : Json :=
  errorEnvelope refusal.code refusal.message refusal.details

end ContractAtlas
