import ContractAtlas.References
import ContractAtlas.Schema.Decoder

/-!
# Security findings

A finding points at something in a contract that deserves a closer look.  Payable
functions come first, one finding each; then every rule whose tokens occur in the
text is reported once, in the order of the catalog, with the functions in whose
scope a token occurs.
-/

namespace ContractAtlas

inductive Severity where
  | high
  | medium
  | low
  | info
  deriving DecidableEq, Repr

namespace Severity

def name : Severity → String
  | .high => "High"
  | .medium => "Medium"
  | .low => "Low"
  | .info => "Info"

def all : List Severity := [.high, .medium, .low, .info]

def ofName? (word : String) : Option Severity :=
  all.find? (·.name == word)

@[simp]
theorem ofName?_name (severity : Severity) : ofName? severity.name = some severity := by
  cases severity <;> rfl

end Severity

structure Finding where
  severity : Severity
  description : String
  location : String
  recommendation : String
  affectedFunctions : List String := []
  deriving DecidableEq, Repr

/-- A rule that applies to a contract as soon as one of its tokens occurs.  The severity
is a `Severity` once it is known to be one, and its name before that. -/
structure Rule (σ : Type) where
  tokens : List String
  severity : σ
  description : String
  recommendation : String
  location : String := "Contract"

namespace Rule

def appliesTo {σ : Type} (rule : Rule σ) (text : Text) : Bool :=
  rule.tokens.any (text.mentions ·)

/-- The rules that every contract is held against. -/
def catalog : List (Rule Severity) := [
  { tokens := ["selfdestruct", "suicide"]
    severity := .high
    description := "Contract uses selfdestruct/suicide"
    recommendation :=
      "Avoid using selfdestruct as it can be dangerous and is deprecated." },
  { tokens := ["tx.origin"]
    severity := .high
    description := "Usage of tx.origin found"
    recommendation := "Use msg.sender instead of tx.origin for authentication." }]

/-- What a rule reports about a contract that it applies to. -/
def finding (rule : Rule Severity) (extraction : Extraction) : Finding :=
  { severity := rule.severity
    description := rule.description
    location := rule.location
    recommendation := rule.recommendation
    affectedFunctions := unique <| (extraction.functions.filter fun function =>
      rule.appliesTo (extraction.scopeOf function)).map (·.name) }

/-- The rule with its severity recognised. -/
def recognise (rule : Rule String) : Except (List Schema.Issue) (Rule Severity) :=
  match Severity.ofName? rule.severity with
  | some severity => .ok { rule with severity }
  | none => .error [⟨[.field "severity"], .notKeyword (Severity.all.map Severity.name)⟩]

end Rule

/-- The finding about a payable function. -/
def payableFinding (name : String) : Finding :=
  { severity := .medium
    description := s!"Payable function '{name}' found"
    location := s!"Function: {name}"
    recommendation := "Ensure proper access controls and value validation are in place."
    affectedFunctions := [name] }

namespace Extraction

/-- All findings under the given rules. -/
def scan (extraction : Extraction) (rules : List (Rule Severity)) : List Finding :=
  ((extraction.functions.filter (·.mutability = .payable)).map (payableFinding ·.name)) ++
    (rules.filter (·.appliesTo extraction.text)).map (·.finding extraction)

/-- All findings under rules with named severities.  Only a rule that applies needs a
severity of its name. -/
def scanNamed (extraction : Extraction) (rules : List (Rule String)) :
    Except (List Schema.Issue) (List Finding) := do
  let applicable ← (rules.filter (·.appliesTo extraction.text)).mapM Rule.recognise
  return extraction.scan applicable

end Extraction

end ContractAtlas
