import ContractAtlas.Proofs.Extraction
import ContractAtlas.Proofs.Json.Shift
import ContractAtlas.Proofs.Source.Shift

/-!
# Space in front of a text

Space in front of a text moves the declarations of a source as far as the space is long and
those of an interface list not at all.  Scopes move along, so that whatever is derived from
them stays.  Only the emissions of events and the rules of the catalog are looked for in the
whole text, and none of them starts with a blank.
-/

namespace ContractAtlas

theorem FormatError.ofText_append {space : String}
    (hspace : ∀ c ∈ space.toList, Text.isBlank c = true) (fault : FormatFault) (text : String) :
    FormatError.ofText fault (space ++ text) = FormatError.ofText fault text := by
  rw [FormatError.ofText, String.toList_append, Text.summarize_append_of_isBlank hspace,
    FormatError.ofText]

theorem Probe.ofText_append {space : String} (hspace : ∀ c ∈ space.toList, Json.isSpace c = true)
    (text : String) : Probe.ofText (space ++ text) = Probe.ofText text := by
  rw [Probe.ofText, String.toList_append, Json.read_append_of_isSpace hspace, Probe.ofText]
  cases Json.read text.toList with
  | error error => cases error <;> rfl
  | ok value => rfl

namespace Extraction

variable {extraction : Extraction} {space : String}

/-- How far space in front of the text moves the declarations: offsets in an interface list
are positions of entries. -/
def distance (extraction : Extraction) (space : String) : Nat :=
  match extraction.mode with
  | .interface => 0
  | .source => space.length

/-- The extraction with space in front of its text. -/
def behind (extraction : Extraction) (space : String) : Extraction :=
  { extraction with
    text := Text.ofString space ++ extraction.text
    modifiers := extraction.modifiers.map (·.shift (extraction.distance space))
    functions := extraction.functions.map (·.shift (extraction.distance space))
    events := extraction.events.map (·.shift (extraction.distance space))
    stateVariables := extraction.stateVariables.map (·.shift (extraction.distance space)) }

/-- The functions of an interface list keep their entries. -/
def KeepsEntries (extraction : Extraction) : Prop :=
  extraction.mode = .interface → ∀ function ∈ extraction.functions, function.entry.isSome = true

theorem knownNames_behind (extraction : Extraction) (space : String) :
    (extraction.behind space).knownNames = extraction.knownNames := by
  simp only [knownNames, behind, List.map_map]
  rfl

/-! ## Scopes and what is derived from them -/

section Derived

variable (hentries : extraction.KeepsEntries) (space)

include hentries

/-- A scope of a source starts as much further on as the text does, and an entry does not
depend on the text. -/
theorem scopeOf_behind {function : FunctionDeclaration}
    (hfunction : function ∈ extraction.functions) :
    (extraction.behind space).scopeOf (function.shift (extraction.distance space)) =
      extraction.scopeOf function := by
  change function.entry.getD ((Text.ofString space ++ extraction.text).drop
    (function.offset + extraction.distance space)) =
      function.entry.getD (extraction.text.drop function.offset)
  cases hmode : extraction.mode with
  | interface =>
      -- The offset is a position in the list here, so only the entry makes this the scope.
      obtain ⟨entry, hentry⟩ := Option.isSome_iff_exists.mp (hentries hmode function hfunction)
      rw [hentry]
      rfl
  | source =>
      have hlength : extraction.distance space = (Text.ofString space).length := by
        simp [distance, hmode, Text.ofString, Text.ofChars, String.length_toList]
      rw [hlength, Nat.add_comm, List.drop_length_add_append]

theorem names_filter_behind (test : Text → Bool) :
    ((extraction.behind space).functions.filter fun function =>
        test ((extraction.behind space).scopeOf function)).map (·.name) =
      (extraction.functions.filter fun function =>
        test (extraction.scopeOf function)).map (·.name) := by
  change ((extraction.functions.map (·.shift (extraction.distance space))).filter _).map _ = _
  rw [List.filter_map, List.map_map]
  have hfilter : extraction.functions.filter ((fun function =>
        test ((extraction.behind space).scopeOf function)) ∘
        (·.shift (extraction.distance space))) =
      extraction.functions.filter fun function => test (extraction.scopeOf function) := by
    apply List.filter_congr
    intro function hfunction
    rw [Function.comp_apply, scopeOf_behind space hentries hfunction]
  rw [hfilter]
  rfl

theorem functionRecord_behind {function : FunctionDeclaration}
    (hfunction : function ∈ extraction.functions) :
    (extraction.behind space).functionRecord (function.shift (extraction.distance space)) =
      extraction.functionRecord function := by
  have hscope := scopeOf_behind space hentries hfunction
  have hroles : (extraction.behind space).rolesOf (function.shift (extraction.distance space)) =
      extraction.rolesOf function := by
    rw [rolesOf, rolesOf, hscope]
    rfl
  have hcalls : (extraction.behind space).callsOf (function.shift (extraction.distance space)) =
      extraction.callsOf function := by
    simp only [callsOf, hscope, knownNames_behind]
    rfl
  simp only [functionRecord, hroles, hcalls]
  rfl

theorem variableRecord_behind (declaration : VariableDeclaration) :
    (extraction.behind space).variableRecord (declaration.shift (extraction.distance space)) =
      extraction.variableRecord declaration := by
  have hmentioning : ∀ string, (extraction.behind space).mentioningFunctions string =
      extraction.mentioningFunctions string := by
    intro string
    rw [mentioningFunctions, mentioningFunctions,
      names_filter_behind space hentries (·.mentions string)]
  simp only [variableRecord, readersOf, writersOf, hmentioning]
  rfl

theorem finding_behind (rule : Rule Severity) :
    rule.finding (extraction.behind space) = rule.finding extraction := by
  rw [Rule.finding, Rule.finding, names_filter_behind space hentries rule.appliesTo]

end Derived

/-! ## What is looked for in the whole text -/

section WholeText

variable (hspace : ∀ c ∈ space.toList, Text.isBlank c = true)

include hspace

theorem mentions_text_behind {part : String} (hpart : Text.startsVisibly part = true) :
    (extraction.behind space).text.mentions part = extraction.text.mentions part :=
  Text.mentions_append_of_isBlank hspace hpart extraction.text

theorem eventRecord_behind (event : EventDeclaration) :
    (extraction.behind space).eventRecord (event.shift (extraction.distance space)) =
      extraction.eventRecord event := by
  have hemit : Text.startsVisibly ("emit " ++ event.name) = true :=
    Text.startsVisibly_append (by decide) event.name
  have hemitters :
      (extraction.behind space).emittersOf (event.shift (extraction.distance space)) =
        extraction.emittersOf event := by
    have hentry : (event.shift (extraction.distance space)).entry = event.entry := rfl
    have hname : (event.shift (extraction.distance space)).name = event.name := rfl
    rw [emittersOf, emittersOf, hentry, hname, knownNames_behind, mentions_text_behind hspace hemit]
  simp only [eventRecord, hemitters]
  rfl

theorem appliesTo_text_behind {rule : Rule Severity}
    (hrule : ∀ token ∈ rule.tokens, Text.startsVisibly token = true) :
    rule.appliesTo (extraction.behind space).text = rule.appliesTo extraction.text := by
  rw [Rule.appliesTo, Rule.appliesTo, Bool.eq_iff_iff, List.any_eq_true, List.any_eq_true]
  constructor
  · rintro ⟨token, htoken, hmentions⟩
    exact ⟨token, htoken, mentions_text_behind hspace (hrule token htoken) ▸ hmentions⟩
  · rintro ⟨token, htoken, hmentions⟩
    exact ⟨token, htoken, (mentions_text_behind hspace (hrule token htoken)).trans hmentions⟩

theorem scan_behind (hentries : extraction.KeepsEntries) {rules : List (Rule Severity)}
    (hrules : ∀ rule ∈ rules, ∀ token ∈ rule.tokens, Text.startsVisibly token = true) :
    (extraction.behind space).scan rules = extraction.scan rules := by
  have happlicable : rules.filter (·.appliesTo (extraction.behind space).text) =
      rules.filter (·.appliesTo extraction.text) :=
    List.filter_congr fun rule hrule => appliesTo_text_behind hspace (hrules rule hrule)
  simp only [scan, happlicable, finding_behind space hentries]
  simp only [behind, List.filter_map, List.map_map]
  rfl

/-- The contract does not know that its text has moved. -/
theorem contract_behind (hentries : extraction.KeepsEntries) :
    (extraction.behind space).contract = extraction.contract := by
  have hfunctions : (extraction.behind space).functions.map
      (extraction.behind space).functionRecord =
        extraction.functions.map extraction.functionRecord := by
    change (extraction.functions.map _).map _ = _
    rw [List.map_map]
    exact List.map_congr_left fun function hfunction =>
      functionRecord_behind space hentries hfunction
  have hevents : (extraction.behind space).events.map (extraction.behind space).eventRecord =
      extraction.events.map extraction.eventRecord := by
    change (extraction.events.map _).map _ = _
    rw [List.map_map]
    exact List.map_congr_left fun event _ => eventRecord_behind hspace event
  have hvariables : (extraction.behind space).stateVariables.map
      (extraction.behind space).variableRecord =
        extraction.stateVariables.map extraction.variableRecord := by
    change (extraction.stateVariables.map _).map _ = _
    rw [List.map_map]
    exact List.map_congr_left fun declaration _ =>
      variableRecord_behind space hentries declaration
  have hmodifiers : (extraction.behind space).modifiers.map (·.name) =
      extraction.modifiers.map (·.name) := by
    simp only [behind, List.map_map]
    rfl
  have hcatalog : ∀ rule ∈ Rule.catalog, ∀ token ∈ rule.tokens,
      Text.startsVisibly token = true := by decide
  simp only [contract, hfunctions, hevents, hvariables, hmodifiers,
    scan_behind hspace hentries hcatalog]
  rfl

end WholeText

/-! ## Texts -/

theorem KeepsEntries.ofText {text : String} (hextract : ofText text = .ok extraction) :
    extraction.KeepsEntries := by
  intro hmode function hfunction
  rcases ofText_eq_ok hextract with ⟨entries, name, rfl⟩ | hextract
  · exact Interface.isSome_entry_of_mem_functions hfunction
  · rw [ofDeclarations_eq_ok hextract] at hmode
    contradiction

theorem ofDeclarations_append (hspace : ∀ c ∈ space.toList, Text.isBlank c = true)
    (text : String) :
    ofDeclarations (space ++ text) = (ofDeclarations text).map (·.behind space) := by
  have hmodifiers := Source.modifiers_append_of_isBlank hspace text.toList
  have hfunctions := Source.functions_append_of_isBlank hspace text.toList
  have hevents := Source.events_append_of_isBlank hspace text.toList
  have hvariables := Source.stateVariables_append_of_isBlank hspace text.toList
  have htitle := Source.skipsBlanks_titleShape.first?_append hspace text.toList
  have hversion := Source.skipsBlanks_versionShape.first?_append hspace text.toList
  have hlicense := Source.skipsBlanks_licenseShape.first?_append hspace text.toList
  rw [← String.toList_append] at hmodifiers hfunctions hevents hvariables htitle hversion hlicense
  simp only [ofDeclarations, hmodifiers, hfunctions, hevents, hvariables, htitle, hversion,
    hlicense, List.isEmpty_map, FormatError.ofText_append hspace]
  split
  · rfl
  · simp [Except.map, behind, distance, Text.ofString, Text.ofChars, String.length_toList]

/-- What a text with space in front leads to is what the text alone leads to, moved. -/
theorem ofText_append (hspace : ∀ c ∈ space.toList, Json.isSpace c = true) (text : String) :
    ofText (space ++ text) = (ofText text).map (·.behind space) := by
  have hblank := Text.forall_isBlank_of_isSpace hspace
  rw [ofText, ofText, Probe.ofText_append hspace, String.toList_append,
    Text.allBlank_append_of_isBlank hblank]
  simp only [FormatError.ofText_append hblank]
  split
  · rfl
  cases Probe.ofText text with
  | interface entries name =>
      have hfunctions : (Interface.functions entries).map (·.shift 0) =
          Interface.functions entries := List.map_id'' (fun _ => rfl) _
      have hevents : (Interface.events entries).map (·.shift 0) = Interface.events entries :=
        List.map_id'' (fun _ => rfl) _
      simp only [Except.map, ofEntries, behind, distance, hfunctions, hevents,
        Text.ofString_append]
      rfl
  | source => exact ofDeclarations_append hblank text
  | refused fault => rfl

end Extraction

/-- Space in front of a text changes neither its contract nor the error that refuses it.  What
is recognised is the same too, each offset of a source as much further on as the space is
long. -/
theorem Contract.unmoved_by_leading_space {space : String}
    (hspace : ∀ c ∈ space.toList, Json.isSpace c = true) (text : String) :
    Contract.ofText (space ++ text) = Contract.ofText text ∧
      Extraction.ofText (space ++ text) = (Extraction.ofText text).map (·.behind space) := by
  have hextraction := Extraction.ofText_append hspace text
  refine ⟨?_, hextraction⟩
  rw [Contract.ofText, Contract.ofText, hextraction]
  cases hextract : Extraction.ofText text with
  | error error => rfl
  | ok extraction =>
      have hcontract := Extraction.contract_behind (Text.forall_isBlank_of_isSpace hspace)
        (Extraction.KeepsEntries.ofText hextract)
      exact congrArg Except.ok hcontract

/-- A function that emits an event, in front of which the source may start later. -/
def emittingSource : String :=
  "function pay() \x7b emit Paid(); \x7d event Paid();"

/-- A text that is JSON and no interface list, also behind a space. -/
def numberText : String := " 7"

theorem unmoved_emittingSource :
    (∃ contract, Contract.ofText emittingSource = .ok contract ∧
      contract.events.map (·.emittedBy) = [["pay"]] ∧
      Contract.ofText ("\r\n\t " ++ emittingSource) = .ok contract) ∧
    (∃ extraction, Extraction.ofText emittingSource = .ok extraction ∧
      extraction.events.map (·.offset) = [32] ∧
      Extraction.ofText ("\r\n\t " ++ emittingSource) = .ok (extraction.behind "\r\n\t ") ∧
      (extraction.behind "\r\n\t ").events.map (·.offset) = [36]) ∧
    Contract.ofText ("\n" ++ numberText) = .error ⟨.notInterface, "7"⟩ := by
  have hspace : ∀ c ∈ "\r\n\t ".toList, Json.isSpace c = true := by simp [Json.isSpace]
  have hunmoved := Contract.unmoved_by_leading_space hspace emittingSource
  refine ⟨?_, ?_, ?_⟩
  · have hemitters : (Contract.ofText emittingSource).map (·.events.map (·.emittedBy)) =
        .ok [["pay"]] := by decide +kernel
    obtain ⟨contract, hcontract, hemitters⟩ := exists_of_map_eq_ok hemitters
    exact ⟨contract, hcontract, hemitters, hunmoved.1.trans hcontract⟩
  · have hoffsets : (Extraction.ofText emittingSource).map (·.events.map (·.offset)) =
        .ok [32] := by decide +kernel
    obtain ⟨extraction, hextract, hoffsets⟩ := exists_of_map_eq_ok hoffsets
    have hmoved := hunmoved.2
    rw [hextract] at hmoved
    refine ⟨extraction, hextract, hoffsets, hmoved, ?_⟩
    have hmovedOffsets : (Extraction.ofText ("\r\n\t " ++ emittingSource)).map
        (·.events.map (·.offset)) = .ok [36] := by decide +kernel
    rw [hmoved] at hmovedOffsets
    exact Except.ok.inj hmovedOffsets
  · have hrefused : Contract.ofText numberText = .error ⟨.notInterface, "7"⟩ := by
      decide +kernel
    have hfeed : ∀ c ∈ "\n".toList, Json.isSpace c = true := by simp [Json.isSpace]
    exact (Contract.unmoved_by_leading_space hfeed numberText).1.trans hrefused

end ContractAtlas
