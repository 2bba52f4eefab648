import ContractAtlas.Diagram.Selection
import ContractAtlas.Proofs.Contract.Validation
import ContractAtlas.Proofs.Integrity
import ContractAtlas.Proofs.Interface.RoundTrip

/-!
# Contracts as JSON text and back

A contract that was read from JSON, however loosely its fields were written there, is written
in one form only, and from this form it is read as the same contract.  Two facts carry this.
The JSON form of a record holds nothing that compact text would lose, and it is nested in at
most five arrays and objects.  And the one thing that the schema turns down among all that can
be written, a function without roles, it turns down already when the contract is read first.
-/

namespace ContractAtlas

/-! ## What a reading says -/

namespace Schema

variable {α : Type} {decoder : Decoder α} {value : Json}

theorem Checked.eq_valid_of_toExcept {checked : Checked α} {result : α}
    (hresult : checked.toExcept = .ok result) : checked = .valid result := by
  cases checked with
  | valid value => rw [Except.ok.inj hresult]
  | invalid issues => contradiction

theorem Checked.valid_mem_of_items {position : Nat} {checks : List (Checked α)}
    {results : List α} (hitems : items position checks = .valid results) :
    ∀ result ∈ results, Checked.valid result ∈ checks := by
  induction checks generalizing position results with
  | nil =>
      injection hitems with hitems
      subst hitems
      simp
  | cons check rest ih =>
      rw [items, Checked.seq_eq_valid_iff] at hitems
      obtain ⟨_, more, hcons, hmore, rfl⟩ := hitems
      obtain ⟨first, hfirst, rfl⟩ := Checked.map_eq_valid_iff.mp hcons
      intro result hresult
      rcases List.mem_cons.mp hresult with rfl | hresult
      · rw [within_eq_valid_iff.mp hfirst]
        exact List.mem_cons_self
      · exact List.mem_cons_of_mem _ (ih hmore result hresult)

/-- Every item of a sequence is read from a value of its own. -/
theorem exists_of_mem_of_sequence {results : List α}
    (hsequence : sequence decoder value = .valid results) :
    ∀ result ∈ results, ∃ item, decoder item = .valid result := by
  cases value with
  | arr items =>
      intro result hresult
      obtain ⟨item, -, hitem⟩ :=
        List.mem_map.mp (Checked.valid_mem_of_items hsequence result hresult)
      exact ⟨item, hitem⟩
  | _ => contradiction

theorem ne_nil_of_nonEmpty {decoder : Decoder (List α)} {results : List α}
    (hresults : nonEmpty decoder value = .valid results) : results ≠ [] := by
  rintro rfl
  rw [nonEmpty] at hresults
  split at hresults
  · contradiction
  next hother => exact hother hresults

/-- An optional field is absent, or it is read from its value. -/
theorem optional_eq_valid {name : String} {absent result : α}
    (hfield : optional name absent decoder value = .valid result) :
    result = absent ∨ ∃ written, decoder written = .valid result := by
  rw [optional] at hfield
  split at hfield
  next written _ => exact .inr ⟨written, Checked.within_eq_valid_iff.mp hfield⟩
  next => exact .inl (Checked.valid.inj hfield).symm

theorem exists_of_object {otherwise : Fault} {result : α}
    (hobject : object otherwise decoder value = .valid result) :
    decoder value = .valid result := by
  cases value with
  | obj fields => exact hobject
  | _ => contradiction

end Schema

open Schema

/-- A function that was read has a role. -/
theorem roles_ne_nil_of_decodeFunction {value : Json} {record : FunctionRecord}
    (hrecord : decodeFunction value = .valid record) : record.roles ≠ [] := by
  have hfields := exists_of_object hrecord
  simp only [Checked.seq_eq_valid_iff, Checked.map_eq_valid_iff] at hfields
  obtain ⟨_, calls, ⟨_, category, ⟨_, roles, ⟨_, payable, ⟨_, modifiers, ⟨_, visibility,
    ⟨_, mutability, ⟨_, outputs, ⟨_, inputs, ⟨_, kind, ⟨name, -, rfl⟩, -, rfl⟩, -, rfl⟩, -, rfl⟩,
    -, rfl⟩, -, rfl⟩, -, rfl⟩, -, rfl⟩, hroles, rfl⟩, -, rfl⟩, -, rfl⟩ := hfields
  rcases optional_eq_valid hroles with rfl | ⟨written, hwritten⟩
  · exact List.cons_ne_nil _ _
  · exact ne_nil_of_nonEmpty hwritten

/-- Every function of a contract that was read has a role. -/
theorem roles_ne_nil_of_decodeContract {value : Json} {contract : Contract}
    (hcontract : decodeContract value = .valid contract) :
    ∀ function ∈ contract.functions, function.roles ≠ [] := by
  have hfields := exists_of_object hcontract
  simp only [Checked.seq_eq_valid_iff, Checked.map_eq_valid_iff] at hfields
  obtain ⟨_, control, ⟨_, ownership, ⟨_, findings, ⟨_, roles, ⟨_, declarations, ⟨_, events,
    ⟨_, functions, ⟨_, modifiers, ⟨_, parents, ⟨_, license, ⟨_, version, ⟨name, -, rfl⟩,
    -, rfl⟩, -, rfl⟩, -, rfl⟩, -, rfl⟩, hfunctions, rfl⟩, -, rfl⟩, -, rfl⟩, -, rfl⟩, -, rfl⟩,
    -, rfl⟩, -, rfl⟩ := hfields
  rcases optional_eq_valid hfunctions with rfl | ⟨written, hwritten⟩
  · simp
  · intro function hfunction
    obtain ⟨item, hitem⟩ := exists_of_mem_of_sequence hwritten function hfunction
    exact roles_ne_nil_of_decodeFunction hitem

/-! ## What compact text carries -/

namespace Json

/-- A value that compact text carries, with at most `depth` arrays and objects around its
innermost values. -/
structure CarriedWithin (depth : Nat) (value : Json) : Prop where
  portable : value.Portable
  nesting_le : value.nesting ≤ depth

namespace CarriedWithin

variable {depth : Nat}

theorem ofString (string : String) : CarriedWithin depth (Json.ofString string) :=
  ⟨.ofString string, Nat.zero_le _⟩

theorem bool (value : Bool) : CarriedWithin depth (Json.bool value) :=
  ⟨.bool value, Nat.zero_le _⟩

theorem ofOption {α : Type} {encode : α → Json}
    (hencode : ∀ value, CarriedWithin depth (encode value)) (value : Option α) :
    CarriedWithin depth (Json.ofOption encode value) := by
  cases value with
  | none => exact ⟨.null, Nat.zero_le _⟩
  | some value => exact hencode value

theorem arr {α : Type} {encode : α → Json} {values : List α}
    (hvalues : ∀ value ∈ values, CarriedWithin depth (encode value)) :
    CarriedWithin (depth + 1) (Json.arr (values.map encode)) where
  portable := by
    refine .arr fun item hitem => ?_
    obtain ⟨value, hvalue, rfl⟩ := List.mem_map.mp hitem
    exact (hvalues value hvalue).portable
  nesting_le := by
    rw [nesting, Nat.add_le_add_iff_right, nestingItems_le_iff]
    intro item hitem
    obtain ⟨value, hvalue, rfl⟩ := List.mem_map.mp hitem
    exact (hvalues value hvalue).nesting_le

theorem ofStrings (strings : List String) : CarriedWithin (depth + 1) (Json.ofStrings strings) :=
  arr fun string _ => ofString string

theorem ofRecords {α : Type} [ToJson α]
    (hencode : ∀ value : α, CarriedWithin depth (toJson value)) (values : List α) :
    CarriedWithin (depth + 1) (Json.ofRecords values) :=
  arr fun value _ => hencode value

theorem nestingFields_le {fields : List (Text × Json)}
    (hfields : ∀ field ∈ fields, field.2.nesting ≤ depth) : nestingFields fields ≤ depth := by
  induction fields with
  | nil => exact Nat.zero_le _
  | cons field rest ih =>
      rw [List.forall_mem_cons] at hfields
      exact Nat.max_le.mpr ⟨hfields.1, ih hfields.2⟩

/-- A record is carried with one more object around what its fields hold. -/
theorem record {fields : List (String × Json)} (hdistinct : (fields.map (·.1)).Nodup)
    (hfields : ∀ field ∈ fields, CarriedWithin depth field.2) :
    CarriedWithin (depth + 1) (Json.record fields) where
  portable := .record hdistinct fun field hfield => (hfields field hfield).portable
  nesting_le := by
    rw [Json.record, nesting, Nat.add_le_add_iff_right]
    apply nestingFields_le
    intro field hfield
    obtain ⟨entry, hentry, rfl⟩ := List.mem_map.mp hfield
    exact (hfields entry hentry).nesting_le

end CarriedWithin

end Json

open Json

theorem carriedWithin_parameter (parameter : Parameter) : CarriedWithin 1 (toJson parameter) := by
  apply CarriedWithin.record (by simp)
  simp [CarriedWithin.ofString, CarriedWithin.ofOption CarriedWithin.bool]

theorem carriedWithin_function (record : FunctionRecord) : CarriedWithin 3 (toJson record) := by
  apply CarriedWithin.record (by simp)
  simp [CarriedWithin.ofString, CarriedWithin.bool, CarriedWithin.ofStrings,
    CarriedWithin.ofRecords carriedWithin_parameter]

theorem carriedWithin_event (record : EventRecord) : CarriedWithin 3 (toJson record) := by
  apply CarriedWithin.record (by simp)
  simp [CarriedWithin.ofString, CarriedWithin.bool, CarriedWithin.ofStrings,
    CarriedWithin.ofRecords carriedWithin_parameter]

theorem carriedWithin_variable (record : VariableRecord) : CarriedWithin 3 (toJson record) := by
  apply CarriedWithin.record (by simp)
  simp [CarriedWithin.ofString, CarriedWithin.bool, CarriedWithin.ofStrings,
    CarriedWithin.ofOption CarriedWithin.ofString]

theorem carriedWithin_finding (finding : Finding) : CarriedWithin 3 (toJson finding) := by
  apply CarriedWithin.record (by simp)
  simp [CarriedWithin.ofString, CarriedWithin.ofStrings]

theorem carriedWithin_role (record : RoleRecord) : CarriedWithin 3 (toJson record) := by
  apply CarriedWithin.record (by simp)
  simp [CarriedWithin.ofString, CarriedWithin.ofStrings]

theorem carriedWithin_contract (contract : Contract) : CarriedWithin 5 (toJson contract) := by
  apply CarriedWithin.record (by simp)
  simp [CarriedWithin.ofString, CarriedWithin.bool, CarriedWithin.ofStrings,
    CarriedWithin.ofOption CarriedWithin.ofString,
    CarriedWithin.ofRecords carriedWithin_function, CarriedWithin.ofRecords carriedWithin_event,
    CarriedWithin.ofRecords carriedWithin_variable, CarriedWithin.ofRecords carriedWithin_role,
    CarriedWithin.ofRecords carriedWithin_finding]

/-! ## There and back -/

namespace Contract

/-- The contract can be restored from its compact text: what is read from the text is valid, and
it is the contract, with the same text and the same diagrams. -/
def IsRestored (contract : Contract) : Prop :=
  ∃ (text : String) (value : Json) (reread : Contract),
    Text.ofString text = (toJson contract).compact ∧
    Json.read text.toList = .ok value ∧
    decodeContract value = .valid reread ∧
    reread = contract ∧
    (toJson reread).compact = Text.ofString text ∧
    ∀ view : View, view.diagram reread = view.diagram contract

theorem isRestored_of_roles {contract : Contract}
    (hroles : ∀ function ∈ contract.functions, function.roles ≠ []) : contract.IsRestored := by
  have hcarried := carriedWithin_contract contract
  have hroom : (toJson contract).nesting ≤ nestingLimit :=
    Nat.le_trans hcarried.nesting_le (by decide)
  obtain ⟨chars, hchars, hread⟩ := hcarried.portable.exists_read_compact hroom
  have htext : Text.ofString (String.ofList chars) = (toJson contract).compact := by
    rw [Text.ofString, String.toList_ofList, hchars]
  have hvalue : Json.read (String.ofList chars).toList = .ok (toJson contract) := by
    rw [String.toList_ofList, hread]
  exact ⟨String.ofList chars, toJson contract, contract, htext, hvalue,
    decodeContract_toJson hroles, rfl, htext.symm, fun _ => rfl⟩

theorem Analysed.roles_ne_nil {contract : Contract} (hanalysed : contract.Analysed) :
    ∀ function ∈ contract.functions, function.roles ≠ [] := by
  obtain ⟨extraction, name, hreturned, rfl⟩ := hanalysed.exists_extraction
  exact hreturned.referencesResolve.roles_ne_nil

/-- Contracts that are read from JSON and contracts that an analysis returns can be restored from
their text. -/
theorem isRestored_of_read_or_analysed {contract : Contract}
    (hcontract : (∃ value, decodeContract value = .valid contract) ∨ contract.Analysed) :
    contract.IsRestored := by
  rcases hcontract with ⟨value, hvalue⟩ | hanalysed
  · exact isRestored_of_roles (roles_ne_nil_of_decodeContract hvalue)
  · exact isRestored_of_roles hanalysed.roles_ne_nil

end Contract

/-- A contract as it may be written by hand, with fields left out and in any order, an unknown
field, numbers and words for booleans, and a name that has to be escaped. -/
def looseContract : Json := .record [
  ("note", .null),
  ("has_ownership", .float (.ofInt 1)),
  ("name", .ofString "Bücher\"\\\n𝔵"),
  ("functions", .arr [.record [
    ("mutability", .ofString "payable"),
    ("name", .ofString "pay"),
    ("is_payable", .int 1),
    ("roles", .ofStrings ["admin", "admin"]),
    ("inputs", .arr [.record [("type", .ofString "uint8"), ("indexed", .ofString "Yes")]])]]),
  ("state_variables", .arr [.record [
    ("visibility", .ofString "private"),
    ("initial_value", .null),
    ("type", .ofString "uint8"),
    ("name", .ofString "x"),
    ("is_constant", .ofString "OFF")]])]

/-- What `looseContract` is read as. -/
def tidyContract : Contract where
  name := "Bücher\"\\\n𝔵"
  functions := [{
    name := "pay"
    inputs := [⟨"", "uint8", some true⟩]
    mutability := .payable
    isPayable := true
    roles := ["admin", "admin"] }]
  stateVariables := [{ name := "x", type := "uint8", visibility := .privately }]
  hasOwnership := true

theorem isRestored_tidyContract :
    decodeContract looseContract = .valid tidyContract ∧ tidyContract.IsRestored := by
  have hread : decodeContract looseContract = .valid tidyContract := by
    apply Checked.eq_valid_of_toExcept
    decide +kernel
  exact ⟨hread, Contract.isRestored_of_read_or_analysed (.inl ⟨looseContract, hread⟩)⟩

end ContractAtlas
