import ContractAtlas.Contract

/-!
# Contracts as JSON

The JSON form of every record, with its fields in a fixed order.  Absent facts are
null.
-/

namespace ContractAtlas

/-- The JSON form of the values of a type. -/
class ToJson (α : Type) where
  toJson : α → Json

export ToJson (toJson)

def Json.ofRecords {α : Type} [ToJson α] (values : List α) : Json :=
  .arr (values.map toJson)

instance : ToJson Parameter where
  toJson parameter := .record [
    ("name", .ofString parameter.name),
    ("type", .ofString parameter.type),
    ("indexed", .ofOption .bool parameter.indexed)]

instance : ToJson FunctionRecord where
  toJson function := .record [
    ("name", .ofString function.name),
    ("kind", .ofString "function"),
    ("inputs", .ofRecords function.inputs),
    ("outputs", .ofRecords function.outputs),
    ("mutability", .ofString function.mutability.keyword),
    ("visibility", .ofString function.visibility.keyword),
    ("modifiers", .ofStrings function.modifiers),
    ("is_payable", .bool function.isPayable),
    ("roles", .ofStrings function.roles),
    ("flow_category", .ofString function.flowCategory.name),
    ("calls", .ofStrings function.calls)]

instance : ToJson EventRecord where
  toJson event := .record [
    ("name", .ofString event.name),
    ("inputs", .ofRecords event.inputs),
    ("anonymous", .bool event.isAnonymous),
    ("emitted_by", .ofStrings event.emittedBy)]

instance : ToJson VariableRecord where
  toJson declaration := .record [
    ("name", .ofString declaration.name),
    ("type", .ofString declaration.type),
    ("visibility", .ofString declaration.visibility.keyword),
    ("is_constant", .bool declaration.isConstant),
    ("initial_value", .ofOption .ofString declaration.initialValue),
    ("read_by", .ofStrings declaration.readBy),
    ("written_by", .ofStrings declaration.writtenBy)]

instance : ToJson Finding where
  toJson finding := .record [
    ("severity", .ofString finding.severity.name),
    ("description", .ofString finding.description),
    ("location", .ofString finding.location),
    ("recommendation", .ofString finding.recommendation),
    ("affected_functions", .ofStrings finding.affectedFunctions)]

instance : ToJson RoleRecord where
  toJson role := .record [
    ("name", .ofString role.name),
    ("permissions", .ofStrings role.permissions),
    ("functions", .ofStrings role.functions)]

instance : ToJson Contract where
  toJson contract := .record [
    ("name", .ofString contract.name),
    ("version", .ofString contract.version),
    ("license", .ofOption .ofString contract.license),
    ("inherits_from", .ofStrings contract.parents),
    ("modifiers", .ofStrings contract.modifiers),
    ("functions", .ofRecords contract.functions),
    ("events", .ofRecords contract.events),
    ("state_variables", .ofRecords contract.stateVariables),
    ("roles", .ofRecords contract.roles),
    ("security_findings", .ofRecords contract.findings),
    ("has_ownership", .bool contract.hasOwnership),
    ("has_access_control", .bool contract.hasAccessControl)]

end ContractAtlas
