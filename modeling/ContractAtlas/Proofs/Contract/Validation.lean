import ContractAtlas.Proofs.Schema.Reading

/-!
# Written records are valid

The schema of a contract turns down a function without roles and a word that is no keyword of
its field, and nothing else that can be written.  A record whose words are keywords is read
back as it is, and so is a contract whose functions have roles.
-/

namespace ContractAtlas

open Schema

theorem decodeParameter_toJson (parameter : Parameter) :
    decodeParameter (toJson parameter) = .valid parameter := by
  simp [decodeParameter, toJson, Schema.required, Schema.optional, Json.field?_record_cons]

theorem sequence_ofRecords_parameters (parameters : List Parameter) :
    sequence decodeParameter (.ofRecords parameters) = .valid parameters :=
  sequence_ofRecords fun parameter _ => decodeParameter_toJson parameter

/-! ## Functions -/

@[simp]
theorem functionKind_ofString : functionKind (.ofString "function") = .valid () :=
  keyword_ofString rfl

/-- A function record as it is written, with words for its visibility and its mutability. -/
def FunctionRecord.written (record : FunctionRecord) (visibility mutability : String) : Json :=
  .record [
    ("name", .ofString record.name),
    ("kind", .ofString "function"),
    ("inputs", .ofRecords record.inputs),
    ("outputs", .ofRecords record.outputs),
    ("mutability", .ofString mutability),
    ("visibility", .ofString visibility),
    ("modifiers", .ofStrings record.modifiers),
    ("is_payable", .bool record.isPayable),
    ("roles", .ofStrings record.roles),
    ("flow_category", .ofString record.flowCategory.name),
    ("calls", .ofStrings record.calls)]

theorem decodeFunction_written {record : FunctionRecord} {visibility mutability : String}
    (hroles : record.roles ≠ []) (hvisibility : record.visibility.keyword = visibility)
    (hmutability : record.mutability.keyword = mutability) :
    decodeFunction (record.written visibility mutability) = .valid record := by
  have hvisible : visibilityKeyword (.ofString visibility) = .valid record.visibility :=
    keyword_ofString (hvisibility ▸ Visibility.ofKeyword?_keyword _)
  have hmutable : mutabilityKeyword (.ofString mutability) = .valid record.mutability :=
    keyword_ofString (hmutability ▸ Mutability.ofKeyword?_keyword _)
  have hcategory : flowCategoryName (.ofString record.flowCategory.name) =
      .valid record.flowCategory := keyword_ofString (FlowCategory.ofName?_name _)
  have hshared : nonEmpty strings (.ofStrings record.roles) = .valid record.roles :=
    nonEmpty_of_valid (strings_ofStrings _) hroles
  simp [decodeFunction, FunctionRecord.written, Schema.required, Schema.optional,
    Json.field?_record_cons, sequence_ofRecords_parameters, hvisible, hmutable, hcategory, hshared]

theorem decodeFunction_toJson {record : FunctionRecord} (hroles : record.roles ≠ []) :
    decodeFunction (toJson record) = .valid record :=
  decodeFunction_written hroles rfl rfl

/-! ## The other parts of a contract -/

theorem decodeEvent_toJson (record : EventRecord) :
    decodeEvent (toJson record) = .valid record := by
  simp [decodeEvent, toJson, Schema.required, Schema.optional, Json.field?_record_cons,
    sequence_ofRecords_parameters]

/-- A record of a state variable as it is written, with a word for its visibility. -/
def VariableRecord.written (record : VariableRecord) (visibility : String) : Json :=
  .record [
    ("name", .ofString record.name),
    ("type", .ofString record.type),
    ("visibility", .ofString visibility),
    ("is_constant", .bool record.isConstant),
    ("initial_value", .ofOption .ofString record.initialValue),
    ("read_by", .ofStrings record.readBy),
    ("written_by", .ofStrings record.writtenBy)]

theorem decodeVariable_written {record : VariableRecord} {visibility : String}
    (hvisibility : record.visibility.keyword = visibility) :
    decodeVariable (record.written visibility) = .valid record := by
  have hvisible : visibilityKeyword (.ofString visibility) = .valid record.visibility :=
    keyword_ofString (hvisibility ▸ Visibility.ofKeyword?_keyword _)
  simp [decodeVariable, VariableRecord.written, Schema.required, Schema.optional,
    Json.field?_record_cons, hvisible]

theorem decodeVariable_toJson (record : VariableRecord) :
    decodeVariable (toJson record) = .valid record :=
  decodeVariable_written rfl

theorem decodeFinding_toJson (finding : Finding) :
    decodeFinding (toJson finding) = .valid finding := by
  have hseverity : severityName (.ofString finding.severity.name) = .valid finding.severity :=
    keyword_ofString (Severity.ofName?_name _)
  simp [decodeFinding, toJson, Schema.required, Schema.optional, Json.field?_record_cons,
    hseverity]

theorem decodeRole_toJson (record : RoleRecord) :
    decodeRole (toJson record) = .valid record := by
  simp [decodeRole, toJson, Schema.required, Schema.optional, Json.field?_record_cons]

/-! ## Contracts -/

theorem decodeContract_toJson {contract : Contract}
    (hroles : ∀ function ∈ contract.functions, function.roles ≠ []) :
    decodeContract (toJson contract) = .valid contract := by
  have hfunctions : sequence decodeFunction (.ofRecords contract.functions) =
      .valid contract.functions :=
    sequence_ofRecords fun function hfunction => decodeFunction_toJson (hroles function hfunction)
  have hevents : sequence decodeEvent (.ofRecords contract.events) = .valid contract.events :=
    sequence_ofRecords fun event _ => decodeEvent_toJson event
  have hvariables : sequence decodeVariable (.ofRecords contract.stateVariables) =
      .valid contract.stateVariables :=
    sequence_ofRecords fun declaration _ => decodeVariable_toJson declaration
  have htable : sequence decodeRole (.ofRecords contract.roles) = .valid contract.roles :=
    sequence_ofRecords fun role _ => decodeRole_toJson role
  have hfindings : sequence decodeFinding (.ofRecords contract.findings) =
      .valid contract.findings :=
    sequence_ofRecords fun finding _ => decodeFinding_toJson finding
  simp [decodeContract, toJson, Schema.required, Schema.optional, Json.field?_record_cons,
    hfunctions, hevents, hvariables, htable, hfindings]

end ContractAtlas
