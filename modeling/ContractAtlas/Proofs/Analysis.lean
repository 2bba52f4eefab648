import ContractAtlas.Proofs.Attribution
import ContractAtlas.Proofs.Contract.Validation
import ContractAtlas.Proofs.Diagram.WellFormed
import ContractAtlas.Proofs.Keywords

/-!
# Analyses that end

The analysis of a text ends in a contract or in a refusal that says what is wrong with the
text.  Nothing can go wrong in between: each record is put together from words that were read
in the text, and the schema accepts every one of them.  Nothing can go wrong afterwards
either: every view of the contract and every function in it can be drawn, with a colour for
its category.
-/

namespace ContractAtlas

/-! ## Words that were read in a text -/

/-- The words from which the visibility and the mutability of a function were read: words of a
header in a source, or words and flags of an entry in an interface list. -/
inductive FunctionDeclaration.ReadFrom (text : String) :
    FunctionDeclaration → String → String → Prop
  | header {found : Source.Occurrence Source.FunctionParts}
      (hfound : found ∈ Source.occurrences Source.functionShape text.toList) :
      ReadFrom text (Source.declaredFunction found)
        (Source.visibilityWord found.value.header) (Source.mutabilityWord found.value.header)
  | entry {entries : List Json} {name : Option Text} {position : Nat} {entry : Json}
      {function : FunctionDeclaration} {constant payable : Option Bool}
      (hprobe : Probe.ofText text = .interface entries name)
      (hposition : entries[position]? = some entry)
      (hentry : Interface.functionEntry position entry = .valid function)
      (hconstant : Schema.optional "constant" none (Schema.nullable Schema.flag) entry =
        .valid constant)
      (hpayable : Schema.optional "payable" none (Schema.nullable Schema.flag) entry =
        .valid payable) :
      ReadFrom text function (Interface.visibilityWord entry)
        (Interface.mutabilityWord entry constant payable)

/-- The words are the keywords of what the function holds. -/
theorem FunctionDeclaration.ReadFrom.keywords {text visibility mutability : String}
    {function : FunctionDeclaration} (hread : function.ReadFrom text visibility mutability) :
    function.visibility.keyword = visibility ∧ function.mutability.keyword = mutability := by
  cases hread with
  | header hfound => exact Source.keywords_functionHeader _
  | entry _ _ hentry hconstant hpayable =>
      obtain ⟨_, _, _, constant, payable, -, -, -, hother, hlast, rfl⟩ :=
        Interface.functionEntry_eq_valid_iff.mp hentry
      obtain rfl := Schema.Checked.valid.inj (hconstant.symm.trans hother)
      obtain rfl := Schema.Checked.valid.inj (hpayable.symm.trans hlast)
      exact ⟨Interface.keyword_visibility _, Interface.keyword_mutability _ _ _⟩

namespace Extraction

variable {text : String} {extraction : Extraction}

/-- Every refusal says what is wrong with the text itself. -/
theorem exists_fault_of_ofText {error : FormatError} (hextract : ofText text = .error error) :
    ∃ fault, error = .ofText fault text := by
  have hdeclarations : ofDeclarations text = .error error →
      ∃ fault, error = .ofText fault text := by
    intro hsource
    simp only [ofDeclarations] at hsource
    split at hsource
    · exact ⟨.noDeclarations, (Except.error.inj hsource).symm⟩
    · contradiction
  rw [ofText] at hextract
  split at hextract
  · exact ⟨.blank, (Except.error.inj hextract).symm⟩
  cases hprobe : Probe.ofText text with
  | interface entries name =>
      rw [hprobe] at hextract
      contradiction
  | source =>
      rw [hprobe] at hextract
      exact hdeclarations hextract
  | refused fault =>
      rw [hprobe] at hextract
      exact ⟨fault, (Except.error.inj hextract).symm⟩

theorem exists_words_of_mem_functions (hextract : ofText text = .ok extraction)
    {function : FunctionDeclaration} (hfunction : function ∈ extraction.functions) :
    ∃ visibility mutability, function.ReadFrom text visibility mutability := by
  rcases exists_probe_of_ofText hextract with ⟨entries, name, hprobe, rfl⟩ | hextract
  · obtain ⟨position, entry, hposition, -, hentry⟩ := Interface.mem_functions_iff.mp hfunction
    obtain ⟨_, _, _, constant, payable, -, -, -, hconstant, hpayable, -⟩ :=
      Interface.functionEntry_eq_valid_iff.mp hentry
    exact ⟨_, _, .entry hprobe hposition hentry hconstant hpayable⟩
  · rw [ofDeclarations_eq_ok hextract] at hfunction
    obtain ⟨found, hfound, rfl⟩ := List.mem_map.mp hfunction
    exact ⟨_, _, .header hfound⟩

theorem exists_word_of_mem_stateVariables (hextract : ofText text = .ok extraction)
    {declaration : VariableDeclaration} (hdeclaration : declaration ∈ extraction.stateVariables) :
    ∃ word, Source.ReadsVisibility text.toList declaration.visibility word := by
  rcases exists_probe_of_ofText hextract with ⟨entries, name, -, rfl⟩ | hextract
  · contradiction
  · rw [ofDeclarations_eq_ok hextract] at hdeclaration
    exact Source.exists_word_of_mem_stateVariables hdeclaration

/-! ## Assembly -/

/-- Every record is made of words that were read in the text, and the schema accepts it as it
is written. -/
structure AssembledFrom (text : String) (extraction : Extraction) : Prop where
  functions : ∀ function ∈ extraction.functions, ∃ visibility mutability,
    function.ReadFrom text visibility mutability ∧
      decodeFunction ((extraction.functionRecord function).written visibility mutability) =
        .valid (extraction.functionRecord function)
  events : ∀ event ∈ extraction.events,
    decodeEvent (toJson (extraction.eventRecord event)) = .valid (extraction.eventRecord event)
  stateVariables : ∀ declaration ∈ extraction.stateVariables, ∃ word,
    Source.ReadsVisibility text.toList declaration.visibility word ∧
      decodeVariable ((extraction.variableRecord declaration).written word) =
        .valid (extraction.variableRecord declaration)
  severities : extraction.scanNamed (Rule.catalog.map Rule.named) =
    .ok extraction.contract.findings
  findings : ∀ finding ∈ extraction.contract.findings,
    decodeFinding (toJson finding) = .valid finding
  roles : ∀ role ∈ extraction.contract.roles, decodeRole (toJson role) = .valid role
  contract : decodeContract (toJson extraction.contract) = .valid extraction.contract

theorem assembledFrom_of_ofText (hextract : ofText text = .ok extraction) :
    extraction.AssembledFrom text where
  functions := by
    intro function hfunction
    obtain ⟨visibility, mutability, hread⟩ := exists_words_of_mem_functions hextract hfunction
    obtain ⟨hvisibility, hmutability⟩ := hread.keywords
    exact ⟨visibility, mutability, hread,
      decodeFunction_written (Role.classify_ne_nil _ _) hvisibility hmutability⟩
  events := fun event _ => decodeEvent_toJson _
  stateVariables := by
    intro declaration hdeclaration
    obtain ⟨word, hword⟩ := exists_word_of_mem_stateVariables hextract hdeclaration
    exact ⟨word, hword, decodeVariable_written hword.keyword⟩
  severities := scanNamed_named extraction Rule.catalog
  findings := fun finding _ => decodeFinding_toJson finding
  roles := fun role _ => decodeRole_toJson role
  contract := by
    apply decodeContract_toJson
    intro function hfunction
    obtain ⟨declaration, -, rfl⟩ := List.mem_map.mp hfunction
    exact Role.classify_ne_nil _ _

end Extraction

/-! ## Drawing -/

/-- Every view of a contract and every function in it can be drawn. -/
structure Contract.Drawable (contract : Contract) : Prop where
  views : ∀ name ∈ ["flow", "class", "state"], ∃ view, View.ofName? name = some view ∧
    (view.diagram contract).kind.name = name ∧ (view.diagram contract).WellFormed
  functions : ∀ function ∈ contract.functions, (Diagram.focus function).WellFormed
  /-- The colours of a function's node are found under the name of its category. -/
  colours : ∀ index function, contract.functions[index]? = some function →
    flowColours.lookup function.flowCategory.name =
      some (Diagram.Flow.functionNode index function).style.palette

theorem Contract.Analysed.drawable {contract : Contract} (hanalysed : contract.Analysed) :
    contract.Drawable where
  views := by
    obtain ⟨hresolve, hroles⟩ := hanalysed.resolve_and_nodup_roles
    simp only [List.forall_mem_cons]
    refine ⟨⟨.flow, rfl, rfl, Diagram.wellFormed_flow hresolve hroles⟩,
      ⟨.classes, rfl, rfl, Diagram.wellFormed_classes contract⟩,
      ⟨.state, rfl, rfl, Diagram.wellFormed_stateAccess contract⟩, by simp⟩
  functions := fun function _ => Diagram.wellFormed_focus function
  colours := fun _ _ _ => (Option.some_get _).symm

/-- The analysis of a text fails only by saying what is wrong with the text, and everything
that it returns is valid and can be drawn. -/
theorem Contract.refused_or_drawable (text : String) :
    (∃ fault, Contract.ofText text = .error (.ofText fault text)) ∨
      ∃ extraction, Extraction.ofText text = .ok extraction ∧
        Contract.ofText text = .ok extraction.contract ∧
        extraction.AssembledFrom text ∧ extraction.contract.Drawable := by
  cases hextract : Extraction.ofText text with
  | error error =>
      obtain ⟨fault, rfl⟩ := Extraction.exists_fault_of_ofText hextract
      refine .inl ⟨fault, ?_⟩
      rw [Contract.ofText, hextract]
      rfl
  | ok extraction =>
      have hcontract : Contract.ofText text = .ok extraction.contract := by
        rw [Contract.ofText, hextract]
        rfl
      exact .inr ⟨extraction, rfl, hcontract, Extraction.assembledFrom_of_ofText hextract,
        Contract.Analysed.drawable (.ofText hcontract)⟩

end ContractAtlas
