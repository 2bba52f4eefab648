import ContractAtlas.Contract
import ContractAtlas.Schema.Decoder

/-!
# Contracts from JSON

The JSON form of an analysed contract is read back field by field.  Fields with a
usual value may be left out, unknown fields are ignored, and every field that does not
fit is reported, in the order of the fields.
-/

namespace ContractAtlas

open Schema

def strings : Decoder (List String) := sequence text

def decodeParameter : Decoder Parameter :=
  object (.notRecord "Parameter") fun record =>
    Parameter.mk
      <$> optional "name" "" text record
      <*> required "type" text record
      <*> optional "indexed" none (nullable flag) record

def mutabilityKeyword : Decoder Mutability :=
  keyword (Mutability.all.map Mutability.keyword) Mutability.ofKeyword?

def visibilityKeyword : Decoder Visibility :=
  keyword (Visibility.all.map Visibility.keyword) Visibility.ofKeyword?

def flowCategoryName : Decoder FlowCategory :=
  keyword (FlowCategory.all.map FlowCategory.name) FlowCategory.ofName?

def severityName : Decoder Severity :=
  keyword (Severity.all.map Severity.name) Severity.ofName?

/-- The only kind that a function record can have. -/
def functionKind : Decoder Unit :=
  keyword ["function"] fun word => if word = "function" then some () else none

/-- A sequence with at least one item. -/
def nonEmpty {α : Type} (decoder : Decoder (List α)) : Decoder (List α) := fun value =>
  match decoder value with
  | .valid [] => .fault (.tooFewItems "Tuple" 1 0)
  | result => result

def decodeFunction : Decoder FunctionRecord :=
  object (.notRecord "FunctionRecord") fun record =>
    (fun name (_ : Unit) inputs outputs mutability visibility modifiers isPayable roles
        flowCategory calls =>
      { name, inputs, outputs, mutability, visibility, modifiers, isPayable, roles,
        flowCategory, calls : FunctionRecord })
      <$> required "name" text record
      <*> optional "kind" () functionKind record
      <*> optional "inputs" [] (sequence decodeParameter) record
      <*> optional "outputs" [] (sequence decodeParameter) record
      <*> optional "mutability" .nonpayable mutabilityKeyword record
      <*> optional "visibility" .publicly visibilityKeyword record
      <*> optional "modifiers" [] strings record
      <*> optional "is_payable" false flag record
      <*> optional "roles" ["user"] (nonEmpty strings) record
      <*> optional "flow_category" .user flowCategoryName record
      <*> optional "calls" [] strings record

def decodeEvent : Decoder EventRecord :=
  object (.notRecord "EventRecord") fun record =>
    EventRecord.mk
      <$> required "name" text record
      <*> optional "inputs" [] (sequence decodeParameter) record
      <*> optional "anonymous" false flag record
      <*> optional "emitted_by" [] strings record

def decodeVariable : Decoder VariableRecord :=
  object (.notRecord "StateVariableRecord") fun record =>
    VariableRecord.mk
      <$> required "name" text record
      <*> required "type" text record
      <*> required "visibility" visibilityKeyword record
      <*> optional "is_constant" false flag record
      <*> optional "initial_value" none (nullable text) record
      <*> optional "read_by" [] strings record
      <*> optional "written_by" [] strings record

def decodeFinding : Decoder Finding :=
  object (.notRecord "SecurityFinding") fun record =>
    Finding.mk
      <$> required "severity" severityName record
      <*> required "description" text record
      <*> required "location" text record
      <*> required "recommendation" text record
      <*> optional "affected_functions" [] strings record

def decodeRole : Decoder RoleRecord :=
  object (.notRecord "RoleRecord") fun record =>
    RoleRecord.mk
      <$> required "name" text record
      <*> optional "permissions" [] strings record
      <*> optional "functions" [] strings record

def decodeContract : Decoder Contract :=
  object (.notRecord "AnalyzedContract") fun record =>
    Contract.mk
      <$> required "name" text record
      <*> optional "version" "Unknown" text record
      <*> optional "license" none (nullable text) record
      <*> optional "inherits_from" [] strings record
      <*> optional "modifiers" [] strings record
      <*> optional "functions" [] (sequence decodeFunction) record
      <*> optional "events" [] (sequence decodeEvent) record
      <*> optional "state_variables" [] (sequence decodeVariable) record
      <*> optional "roles" [] (sequence decodeRole) record
      <*> optional "security_findings" [] (sequence decodeFinding) record
      <*> optional "has_ownership" false flag record
      <*> optional "has_access_control" false flag record

end ContractAtlas
