import ContractAtlas.Interface.Entry
import ContractAtlas.Proofs.Schema.Acceptance

/-!
# The declarations of an interface list

A function of an interface list comes from one entry of the list: one of type
`function` whose fields can all be read.  The entry determines the function, and an
entry names no modifiers.  It is the same with events.
-/

namespace ContractAtlas.Interface

open ContractAtlas.Schema

/-- An entry declares a function exactly if all its fields can be read; the function is
then put together from what was read. -/
theorem functionEntry_eq_valid_iff {position : Nat} {entry : Json}
    {declaration : FunctionDeclaration} :
    functionEntry position entry = .valid declaration ↔
      ∃ name inputs outputs constant payable,
        required "name" entryName entry = .valid name ∧
        entryParameters "inputs" entry = .valid inputs ∧
        entryParameters "outputs" entry = .valid outputs ∧
        optional "constant" none (nullable flag) entry = .valid constant ∧
        optional "payable" none (nullable flag) entry = .valid payable ∧
        declaration =
          { name
            offset := position
            inputs := inputs.map functionParameter
            outputs := outputs.map functionParameter
            visibility :=
              (entryKeyword? "visibility" Visibility.ofKeyword? entry).getD .publicly
            mutability := entryMutability
              (entryKeyword? "stateMutability" Mutability.ofKeyword? entry) constant payable
            entry := some entry.compact } := by
  simp only [functionEntry, Checked.seq_eq_valid_iff, Checked.map_eq_valid_iff]
  constructor
  · rintro ⟨_, payable, ⟨_, constant, ⟨_, outputs, ⟨_, inputs, ⟨name, hname, rfl⟩, hinputs, rfl⟩,
      houtputs, rfl⟩, hconstant, rfl⟩, hpayable, rfl⟩
    exact ⟨name, inputs, outputs, constant, payable, hname, hinputs, houtputs, hconstant,
      hpayable, rfl⟩
  · rintro ⟨name, inputs, outputs, constant, payable, hname, hinputs, houtputs, hconstant,
      hpayable, rfl⟩
    exact ⟨_, payable, ⟨_, constant, ⟨_, outputs, ⟨_, inputs, ⟨name, hname, rfl⟩, hinputs, rfl⟩,
      houtputs, rfl⟩, hconstant, rfl⟩, hpayable, rfl⟩

/-- An entry declares an event exactly if all its fields can be read. -/
theorem eventEntry_eq_valid_iff {position : Nat} {entry : Json} {declaration : EventDeclaration} :
    eventEntry position entry = .valid declaration ↔
      ∃ name inputs isAnonymous,
        required "name" entryName entry = .valid name ∧
        entryParameters "inputs" entry = .valid inputs ∧
        optional "anonymous" none (nullable flag) entry = .valid isAnonymous ∧
        declaration =
          { name
            offset := position
            inputs := inputs.map eventParameter
            isAnonymous := isAnonymous.getD false
            entry := some entry.compact } := by
  simp only [eventEntry, Checked.seq_eq_valid_iff, Checked.map_eq_valid_iff]
  constructor
  · rintro ⟨_, isAnonymous, ⟨_, inputs, ⟨name, hname, rfl⟩, hinputs, rfl⟩, hanonymous, rfl⟩
    exact ⟨name, inputs, isAnonymous, hname, hinputs, hanonymous, rfl⟩
  · rintro ⟨name, inputs, isAnonymous, hname, hinputs, hanonymous, rfl⟩
    exact ⟨_, isAnonymous, ⟨_, inputs, ⟨name, hname, rfl⟩, hinputs, rfl⟩, hanonymous, rfl⟩

theorem Outcome.ofChecked_eq_iff {α : Type} {accept : α → Outcome} {checked : Checked α}
    {found : Outcome} (hrelated : found ≠ .unrelated) (hwell : ∀ fault, found ≠ .malformed fault) :
    ofChecked accept checked = found ↔
      ∃ declaration, checked = .valid declaration ∧ accept declaration = found := by
  cases checked with
  | valid declaration => simp [ofChecked]
  | invalid issues =>
      cases issues with
      | nil => simp [ofChecked, hrelated.symm]
      | cons issue rest => simp [ofChecked, (hwell issue.fault).symm]

/-- Unless an entry is unrelated or malformed, it declares something of its type. -/
theorem outcome_eq_iff {position : Nat} {entry : Json} {found : Outcome}
    (hrelated : found ≠ .unrelated) (hwell : ∀ fault, found ≠ .malformed fault) :
    outcome position entry = found ↔
      ((entry.field? "type" >>= Json.string?) = some "function" ∧
        ∃ declaration, functionEntry position entry = .valid declaration ∧
          .function declaration = found) ∨
      ((entry.field? "type" >>= Json.string?) = some "event" ∧
        ∃ declaration, eventEntry position entry = .valid declaration ∧
          .event declaration = found) := by
  rw [outcome]
  split
  next htype => simp [htype, Outcome.ofChecked_eq_iff hrelated hwell]
  next htype => simp [htype, Outcome.ofChecked_eq_iff hrelated hwell]
  next hnotFunction hnotEvent =>
    refine iff_of_false hrelated.symm ?_
    rintro (⟨htype, -⟩ | ⟨htype, -⟩)
    · exact hnotFunction htype
    · exact hnotEvent htype

theorem function?_outcome_eq_some_iff {position : Nat} {entry : Json}
    {declaration : FunctionDeclaration} :
    (outcome position entry).function? = some declaration ↔
      (entry.field? "type" >>= Json.string?) = some "function" ∧
        functionEntry position entry = .valid declaration := by
  have hfunction : (outcome position entry).function? = some declaration ↔
      outcome position entry = .function declaration := by
    cases outcome position entry <;> simp [Outcome.function?]
  rw [hfunction, outcome_eq_iff (by simp) (by simp)]
  simp

theorem event?_outcome_eq_some_iff {position : Nat} {entry : Json}
    {declaration : EventDeclaration} :
    (outcome position entry).event? = some declaration ↔
      (entry.field? "type" >>= Json.string?) = some "event" ∧
        eventEntry position entry = .valid declaration := by
  have hevent : (outcome position entry).event? = some declaration ↔
      outcome position entry = .event declaration := by
    cases outcome position entry <;> simp [Outcome.event?]
  rw [hevent, outcome_eq_iff (by simp) (by simp)]
  simp

/-- Every function of a list comes from an entry at its offset. -/
theorem mem_functions_iff {entries : List Json} {declaration : FunctionDeclaration} :
    declaration ∈ functions entries ↔
      ∃ position entry, entries[position]? = some entry ∧
        (entry.field? "type" >>= Json.string?) = some "function" ∧
        functionEntry position entry = .valid declaration := by
  simp only [functions, outcomes, List.mem_filterMap, List.mem_map]
  constructor
  · rintro ⟨_, ⟨⟨entry, position⟩, hmem, rfl⟩, houtcome⟩
    exact ⟨position, entry, List.mem_zipIdx_iff_getElem?.mp hmem,
      function?_outcome_eq_some_iff.mp houtcome⟩
  · rintro ⟨position, entry, hmem, hentry⟩
    exact ⟨_, ⟨(entry, position), List.mem_zipIdx_iff_getElem?.mpr hmem, rfl⟩,
      function?_outcome_eq_some_iff.mpr hentry⟩

theorem modifiers_of_mem_functions {entries : List Json} {declaration : FunctionDeclaration}
    (hdeclaration : declaration ∈ functions entries) : declaration.modifiers = [] := by
  obtain ⟨position, entry, -, -, hentry⟩ := mem_functions_iff.mp hdeclaration
  obtain ⟨_, _, _, _, _, -, -, -, -, -, rfl⟩ := functionEntry_eq_valid_iff.mp hentry
  rfl

/-- A function of an interface list keeps the compact text of its entry. -/
theorem exists_entry_of_mem_functions {entries : List Json} {declaration : FunctionDeclaration}
    (hdeclaration : declaration ∈ functions entries) :
    ∃ position, ∃ entry ∈ entries, (outcome position entry).function? = some declaration ∧
      declaration.entry = some entry.compact := by
  obtain ⟨position, entry, hmem, hentry⟩ := mem_functions_iff.mp hdeclaration
  refine ⟨position, entry, List.mem_of_getElem? hmem,
    function?_outcome_eq_some_iff.mpr hentry, ?_⟩
  obtain ⟨_, _, _, _, _, -, -, -, -, -, rfl⟩ := functionEntry_eq_valid_iff.mp hentry.2
  rfl

theorem isSome_entry_of_mem_functions {entries : List Json} {declaration : FunctionDeclaration}
    (hdeclaration : declaration ∈ functions entries) : declaration.entry.isSome = true := by
  obtain ⟨_, _, _, _, hentry⟩ := exists_entry_of_mem_functions hdeclaration
  exact Option.isSome_of_eq_some hentry

theorem isSome_entry_of_mem_events {entries : List Json} {declaration : EventDeclaration}
    (hdeclaration : declaration ∈ events entries) : declaration.entry.isSome = true := by
  simp only [events, outcomes, List.mem_filterMap, List.mem_map] at hdeclaration
  obtain ⟨_, ⟨⟨entry, position⟩, -, rfl⟩, houtcome⟩ := hdeclaration
  obtain ⟨-, hentry⟩ := event?_outcome_eq_some_iff.mp houtcome
  obtain ⟨_, _, _, -, -, -, rfl⟩ := eventEntry_eq_valid_iff.mp hentry
  rfl

end ContractAtlas.Interface
