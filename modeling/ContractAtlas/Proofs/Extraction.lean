import ContractAtlas.Batch
import ContractAtlas.Proofs.Interface.Entry
import ContractAtlas.Proofs.Source.Occurrence

/-!
# Extractions that are returned

What an extraction consists of once it is there: the entries of an interface list, or
the declarations of a source.  Every contract that is ever returned, also as part of a
batch, is the contract of such an extraction, perhaps under another name.
-/

namespace ContractAtlas

/-- What is made of a result is there only if the result is. -/
theorem exists_of_map_eq_ok {ε α β : Type} {result : Except ε α} {f : α → β} {value : β}
    (hmap : result.map f = .ok value) : ∃ original, result = .ok original ∧ f original = value := by
  cases result with
  | error error => contradiction
  | ok original => exact ⟨original, rfl, Except.ok.inj hmap⟩

/-- The list that a text is or holds. -/
theorem Probe.exists_read_of_ofText {text : String} {entries : List Json} {name : Option Text}
    (hprobe : Probe.ofText text = .interface entries name) :
    ∃ value, Json.read text.toList = .ok value ∧
      (value = .arr entries ∨ value.field? "abi" = some (.arr entries)) := by
  rw [Probe.ofText] at hprobe
  cases hread : Json.read text.toList with
  | error error =>
      rw [hread] at hprobe
      cases error <;> contradiction
  | ok value =>
      rw [hread] at hprobe
      refine ⟨value, rfl, ?_⟩
      simp only at hprobe
      split at hprobe
      next =>
        injection hprobe with hentries
        exact .inl (by rw [hentries])
      next =>
        split at hprobe
        next found hfound =>
          injection hprobe with hentries
          exact .inr (by rw [hfound, hentries])
        next => contradiction

namespace Extraction

variable {text : String} {extraction : Extraction}

/-- The extraction from a text with declarations holds what the scans for them find. -/
theorem ofDeclarations_eq_ok (hextract : ofDeclarations text = .ok extraction) :
    extraction =
      { mode := .source
        text := Text.ofString text
        contractName :=
          ((Source.first? Source.titleShape text.toList).map (·.name)).getD "Contract"
        version := (Source.first? Source.versionShape text.toList).getD "Unknown"
        license := Source.first? Source.licenseShape text.toList
        parents := ((Source.first? Source.titleShape text.toList).map (·.parents)).getD []
        modifiers := Source.modifiers text.toList
        functions := Source.functions text.toList
        events := Source.events text.toList
        stateVariables := Source.stateVariables text.toList } := by
  simp only [ofDeclarations] at hextract
  split at hextract
  · contradiction
  · injection hextract with hextract
    exact hextract.symm

theorem ofDeclarations_of_ofSource (hextract : ofSource text = .ok extraction) :
    ofDeclarations text = .ok extraction := by
  rw [ofSource] at hextract
  split at hextract
  · contradiction
  · exact hextract

/-- What is made of the extraction from a source may be made with the state variables that are
known to be found. -/
theorem map_ofSource_of_stateVariables {β : Type} {found : List VariableDeclaration}
    (hfound : Source.stateVariables text.toList = found) (f : Extraction → β) :
    (ofSource text).map f =
      (ofSource text).map fun extraction => f { extraction with stateVariables := found } := by
  cases hextract : ofSource text with
  | error error => rfl
  | ok extraction =>
      have hsame : { extraction with stateVariables := found } = extraction := by
        rw [ofDeclarations_eq_ok (ofDeclarations_of_ofSource hextract), hfound]
      simp only [Except.map, hsame]

/-- The entries of an interface list are those that the text turned out to hold. -/
theorem exists_probe_of_ofText (hextract : ofText text = .ok extraction) :
    (∃ entries name, Probe.ofText text = .interface entries name ∧
      extraction = ofEntries (Text.ofString text) entries name) ∨
    ofDeclarations text = .ok extraction := by
  rw [ofText] at hextract
  split at hextract
  · contradiction
  cases hprobe : Probe.ofText text with
  | interface entries name =>
      rw [hprobe] at hextract
      injection hextract with hextract
      exact .inl ⟨entries, name, rfl, hextract.symm⟩
  | source =>
      rw [hprobe] at hextract
      exact .inr hextract
  | refused fault =>
      rw [hprobe] at hextract
      contradiction

/-- A text is an interface list or has declarations. -/
theorem ofText_eq_ok (hextract : ofText text = .ok extraction) :
    (∃ entries name, extraction = ofEntries (Text.ofString text) entries name) ∨
      ofDeclarations text = .ok extraction := by
  rcases exists_probe_of_ofText hextract with ⟨entries, name, -, heq⟩ | hdeclarations
  · exact .inl ⟨entries, name, heq⟩
  · exact .inr hdeclarations

/-- The extractions that some text or interface list leads to. -/
inductive Returned : Extraction → Prop
  | ofText {text : String} {extraction : Extraction}
      (hextract : ofText text = .ok extraction) : Returned extraction
  | ofSource {text : String} {extraction : Extraction}
      (hextract : ofSource text = .ok extraction) : Returned extraction
  | ofInterface (entries : List Json) : Returned (ofInterface entries)

/-- Every function of an extraction lists each modifier once. -/
theorem Returned.nodup_modifiers (hreturned : extraction.Returned)
    {function : FunctionDeclaration} (hfunction : function ∈ extraction.functions) :
    function.modifiers.Nodup := by
  have hentry : ∀ {entries : List Json}, function ∈ Interface.functions entries →
      function.modifiers.Nodup := by
    intro entries hmem
    rw [Interface.modifiers_of_mem_functions hmem]
    exact List.nodup_nil
  have hsource : ∀ {text : String}, ofDeclarations text = .ok extraction →
      function.modifiers.Nodup := by
    intro text hextract
    rw [ofDeclarations_eq_ok hextract] at hfunction
    exact Source.nodup_modifiers_of_mem_functions hfunction
  cases hreturned with
  | ofText hextract =>
      rcases ofText_eq_ok hextract with ⟨entries, name, rfl⟩ | hextract
      · exact hentry hfunction
      · exact hsource hextract
  | ofSource hextract => exact hsource (ofDeclarations_of_ofSource hextract)
  | ofInterface entries => exact hentry hfunction

end Extraction

/-! ## Contracts that are returned -/

/-- A contract of a batch is the contract of one of its texts, under the name of that
text if it has one. -/
theorem Batch.mem_contracts_of_analyse {inputs : List (String × String)}
    {result : BatchResult} {entry : NamedContract} (hresult : analyse inputs = .ok result)
    (hentry : entry ∈ result.contracts) :
    ∃ name source contract, (name, source) ∈ inputs ∧
      Contract.ofText source = .ok contract ∧ entry = named name contract := by
  simp only [analyse] at hresult
  split at hresult
  · contradiction
  injection hresult with hresult
  subst hresult
  obtain ⟨one, hone, hanalysed⟩ := List.mem_filterMap.mp hentry
  obtain ⟨⟨name, source⟩, hpending, rfl⟩ := List.mem_map.mp hone
  have hinput : (name, source) ∈ inputs := List.mem_of_mem_filter hpending
  change (outcome name source).result? = some entry at hanalysed
  rw [outcome] at hanalysed
  cases hcontract : Contract.ofText source with
  | error error =>
      rw [hcontract] at hanalysed
      contradiction
  | ok contract =>
      rw [hcontract] at hanalysed
      injection hanalysed with hanalysed
      exact ⟨name, source, contract, hinput, hcontract, hanalysed.symm⟩

namespace Contract

/-- The contracts that an analysis returns, alone or as part of a batch. -/
inductive Analysed : Contract → Prop
  | ofText {text : String} {contract : Contract}
      (hcontract : ofText text = .ok contract) : Analysed contract
  | ofSource {text : String} {contract : Contract}
      (hcontract : ofSource text = .ok contract) : Analysed contract
  | ofInterface (entries : List Json) : Analysed (ofInterface entries)
  | ofBatch {inputs : List (String × String)} {result : BatchResult} {entry : NamedContract}
      (hresult : Batch.analyse inputs = .ok result) (hentry : entry ∈ result.contracts) :
      Analysed entry.contract

theorem exists_extraction_of_ofText {text : String} {contract : Contract}
    (hcontract : ofText text = .ok contract) :
    ∃ extraction : Extraction, extraction.Returned ∧ contract = extraction.contract := by
  obtain ⟨extraction, hextract, rfl⟩ := exists_of_map_eq_ok hcontract
  exact ⟨extraction, .ofText hextract, rfl⟩

/-- A returned contract differs at most in its name from the contract of an extraction. -/
theorem Analysed.exists_extraction {contract : Contract} (hanalysed : contract.Analysed) :
    ∃ (extraction : Extraction) (name : String),
      extraction.Returned ∧ contract = { extraction.contract with name } := by
  cases hanalysed with
  | ofText hcontract =>
      obtain ⟨extraction, hreturned, rfl⟩ := exists_extraction_of_ofText hcontract
      exact ⟨extraction, extraction.contract.name, hreturned, rfl⟩
  | ofSource hcontract =>
      obtain ⟨extraction, hextract, rfl⟩ := exists_of_map_eq_ok hcontract
      exact ⟨extraction, extraction.contract.name, .ofSource hextract, rfl⟩
  | ofInterface entries =>
      exact ⟨Extraction.ofInterface entries, _, .ofInterface entries, rfl⟩
  | ofBatch hresult hentry =>
      obtain ⟨name, source, contract, -, hcontract, rfl⟩ :=
        Batch.mem_contracts_of_analyse hresult hentry
      obtain ⟨extraction, hreturned, rfl⟩ := exists_extraction_of_ofText hcontract
      rw [Batch.named]
      split
      · exact ⟨extraction, extraction.contract.name, hreturned, rfl⟩
      · exact ⟨extraction, name, hreturned, rfl⟩

end Contract

end ContractAtlas
