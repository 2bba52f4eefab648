import ContractAtlas.Log.Record
import ContractAtlas.Numeral.Integer
import ContractAtlas.Refusal
import ContractAtlas.Service.Message

/-!
# The size limit

A request is turned away by the length that it announces, before its body is read.  A
length that is not announced, or that is no integer, counts as zero.
-/

namespace ContractAtlas.Service.SizeLimit

/-- The length that a header field announces. -/
def announced (field : Option String) : Int :=
  match Numeral.read (field.getD "0").toList with
  | .ok length => length
  | .error _ => 0

/-- The announced length, if it is beyond the limit. -/
def excess? (limit : Int) (field : Option String) : Option Int :=
  let length := announced field
  if limit < length then some length else none

/-- The response to a request that is too long. -/
def response (limit length : Int) : Response :=
  { Response.json 413 <| errorEnvelope "PAYLOAD_TOO_LARGE"
      (s!"Request body ({Numeral.grouped length} bytes) exceeds the " ++
        s!"maximum allowed size ({Numeral.grouped limit} bytes).")
      (.record [("limit", .int limit)])
    with timed := false }

def record (title : String) (limit length : Int) : Log.Record :=
  { level := .warning
    logger := "contractviz.size_limit"
    message := s!"Payload too large: {length} bytes (limit {limit})  " ++ title }

theorem excess?_eq_some_iff {limit length : Int} {field : Option String} :
    excess? limit field = some length ↔ announced field = length ∧ limit < length := by
  simp only [excess?]
  split <;> simp_all
  · intro h
    omega
  · intro h
    omega

end ContractAtlas.Service.SizeLimit
