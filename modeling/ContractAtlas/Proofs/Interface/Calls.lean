import ContractAtlas.Proofs.Diagram.FlowEdges
import ContractAtlas.Proofs.Interface.RoundTrip
import ContractAtlas.Proofs.RestatedEntries

/-!
# Calls between interface entries

An interface list holds no code, yet calls are looked for in it: the scope of a function is the
compact text of its entry, and any name in it with a parenthesis behind counts as a call.
Compact text is made of punctuation, numbers, the words for values and what stands between
quotes, and of all these only a string or a key can show a parenthesis
(`notMem_compact_of_unparenthesized`), however deep it lies and whatever else the entry holds.

So an entry without a parenthesis in its strings and keys calls nothing, and if this is true
of all functions of a list, none of them points at another one in the flow diagram.  In every
other entry a call is a name with a parenthesis inside one string or key
(`Extraction.mem_callsOf_iff`).
-/

namespace ContractAtlas

namespace Json

/-- A text without an opening parenthesis. -/
def Unparenthesized (text : Text) : Prop :=
  CodePoint.char '(' ∉ text

instance : DecidablePred Unparenthesized := fun text =>
  inferInstanceAs (Decidable (CodePoint.char '(' ∉ text))

theorem AllStrings.record {holds : Text → Prop} {fields : List (String × Json)}
    (hkeys : ∀ field ∈ fields, holds (Text.ofString field.1))
    (hvalues : ∀ field ∈ fields, AllStrings holds field.2) :
    AllStrings holds (Json.record fields) :=
  .obj (List.forall_mem_map.mpr hkeys) (List.forall_mem_map.mpr hvalues)

/-- No escape shows a parenthesis. -/
theorem Unparenthesized.lacks {text : Text} (htext : Unparenthesized text) : Lacks ['('] text := by
  apply lacks_of_notMem List.mem_cons_self
  intro hinside
  obtain ⟨point, hpoint, hwritten⟩ := List.mem_flatMap.mp hinside
  cases point with
  | half offset =>
      have hhalf : writePoint .compact (.half offset) = [.half offset] := rfl
      rw [hhalf, List.mem_singleton] at hwritten
      contradiction
  | char c =>
      rw [writePoint_compact, mem_ofChars] at hwritten
      rcases eq_or_mem_escapeChars hwritten with rfl | hescape
      · exact htext hpoint
      · revert hescape
        decide

/-- Outside strings compact text has no parenthesis. -/
theorem notMem_compact_of_unparenthesized {value : Json}
    (hvalue : AllStrings Unparenthesized value) : CodePoint.char '(' ∉ value.compact := by
  have hloud : IsLoud ['('] := by decide
  have hlacks : AllStrings (Lacks ['(']) value := hvalue.mono fun _ => Unparenthesized.lacks
  rw [← List.singleton_infix_iff]
  exact hlacks.not_infix_compact hloud

end Json

open Json Interface

namespace Extraction

variable {extraction : Extraction} {function : FunctionDeclaration} {entry : Json}

theorem scopeOf_eq_compact (hentry : function.entry = some entry.compact) :
    extraction.scopeOf function = entry.compact := by
  rw [scopeOf, scope, hentry, Option.getD_some]

/-- Which functions a function of an interface list calls, of those whose names hold no
quotation mark. -/
theorem mem_callsOf_iff (hentry : function.entry = some entry.compact) {name : String}
    (hname : isUnquoted name = true) :
    name ∈ extraction.callsOf function ↔
      name ∈ extraction.knownNames ∧ name ≠ function.name ∧
        ¬ AllStrings (Lacks (name ++ "(").toList) entry := by
  have hquote : '"' ∉ (name ++ "(").toList := by simpa [isUnquoted] using hname
  have hloud : IsLoud (name ++ "(").toList := ⟨hquote, '(', by simp, by decide, by decide⟩
  rw [callsOf, List.mem_filter, Bool.and_eq_true, decide_eq_true_eq, Text.mentions_iff,
    scopeOf_eq_compact hentry]
  exact and_congr_right fun _ => and_congr_right fun _ => infix_compact_iff hloud

/-- Whatever the names are, a call needs a parenthesis in a string or a key. -/
theorem callsOf_eq_nil (hentry : function.entry = some entry.compact)
    (hplain : AllStrings Unparenthesized entry) : extraction.callsOf function = [] := by
  rw [callsOf, List.filter_eq_nil_iff]
  intro name _ hcall
  rw [Bool.and_eq_true, Text.mentions_iff, scopeOf_eq_compact hentry] at hcall
  have hparenthesis : CodePoint.char '(' ∈ Text.ofString (name ++ "(") :=
    mem_ofChars.mpr (by simp)
  exact notMem_compact_of_unparenthesized hplain (hcall.2.subset hparenthesis)

end Extraction

/-- The entries of an interface list, and nothing otherwise. -/
def Probe.entries : Probe → List Json
  | .interface entries _ => entries
  | .source | .refused _ => []

namespace Extraction

variable {text : String} {extraction : Extraction}

theorem exists_eq_ofEntries (hextract : ofText text = .ok extraction)
    (hmode : extraction.mode = .interface) :
    ∃ name, extraction = ofEntries (Text.ofString text) (Probe.ofText text).entries name := by
  rcases exists_probe_of_ofText hextract with ⟨entries, name, hprobe, rfl⟩ | hextract
  · rw [hprobe]
    exact ⟨name, rfl⟩
  · rw [ofDeclarations_eq_ok hextract] at hmode
    contradiction

/-- A function of an interface list comes from an accepted entry, and keeps its compact text. -/
theorem exists_isFunction_of_mem (hextract : ofText text = .ok extraction)
    (hmode : extraction.mode = .interface) {function : FunctionDeclaration}
    (hfunction : function ∈ extraction.functions) :
    ∃ entry ∈ (Probe.ofText text).entries, IsFunction entry ∧
      function.entry = some entry.compact := by
  obtain ⟨name, rfl⟩ := exists_eq_ofEntries hextract hmode
  obtain ⟨_, entry, hentry, haccepted, hscope⟩ := exists_entry_of_mem_functions hfunction
  exact ⟨entry, hentry, isSome_function?_iff.mp (Option.isSome_of_eq_some haccepted), hscope⟩

/-- Between functions only calls are drawn. -/
theorem notMem_ends_flow (hreturned : extraction.Returned)
    (hcalls : ∀ function ∈ extraction.functions, extraction.callsOf function = [])
    (source target : Nat) :
    (.function source, .function target) ∉ (Diagram.flow extraction.contract).ends := by
  intro hends
  cases (Diagram.Flow.mem_ends_flow_iff hreturned.referencesResolve).mp hends with
  | call hrecord hname htarget =>
      obtain ⟨function, hfunction, rfl⟩ := List.mem_map.mp (List.mem_of_getElem? hrecord)
      change _ ∈ extraction.callsOf function at hname
      rw [hcalls function hfunction] at hname
      contradiction

/-- The functions of an interface list do not call each other, if no parenthesis stands in the
strings and keys of their entries. -/
theorem calls_eq_replicate_nil (hextract : ofText text = .ok extraction)
    (hmode : extraction.mode = .interface)
    (hplain : ∀ entry ∈ (Probe.ofText text).entries, IsFunction entry →
      AllStrings Unparenthesized entry) :
    extraction.references.calls = List.replicate extraction.functions.length [] ∧
      ∀ source target,
        (.function source, .function target) ∉ (Diagram.flow extraction.contract).ends := by
  have hcalls : ∀ function ∈ extraction.functions, extraction.callsOf function = [] := by
    intro function hfunction
    obtain ⟨entry, hentry, haccepted, hscope⟩ := exists_isFunction_of_mem hextract hmode hfunction
    exact callsOf_eq_nil hscope (hplain entry hentry haccepted)
  constructor
  · calc
      extraction.functions.map extraction.callsOf
        = extraction.functions.map fun _ => [] := List.map_congr_left hcalls
      _ = List.replicate extraction.functions.length [] := List.map_const' ..
  · exact notMem_ends_flow (.ofText hextract) hcalls

end Extraction

/-- Two functions, the first with a note, and an event with a parenthesis in its name. -/
def notedEntries (note : String) : List Json := [
  .record [
    ("type", .ofString "function"),
    ("name", .ofString "transfer"),
    ("notes", .arr [.ofString note, .int (-10), .record [("approve", .bool true)]])],
  .record [
    ("type", .ofString "function"),
    ("name", .ofString "approve"),
    ("gas", .null)],
  .record [
    ("type", .ofString "event"),
    ("name", .ofString "transfer(")]]

theorem portable_notedEntries (note : String) : ∀ entry ∈ notedEntries note, entry.Portable := by
  have hint : (Nat.toDigits 10 (Int.natAbs (-10))).length ≤ Numeral.digitLimit := by
    decide +kernel
  have hnested : (Json.record [("approve", .bool true)]).Portable :=
    .record (by decide) (by simp [Json.Portable.bool])
  have hnotes : (Json.arr [.ofString note, .int (-10),
      .record [("approve", .bool true)]]).Portable := by
    refine .arr ?_
    simp [Json.Portable.ofString, Json.Portable.int hint, hnested]
  simp only [notedEntries, List.forall_mem_cons]
  refine ⟨.record (by simp) ?_, .record (by decide) ?_, .record (by decide) ?_, by simp⟩
  · simp [Json.Portable.ofString, hnotes]
  · simp [Json.Portable.ofString, Json.Portable.null]
  · simp [Json.Portable.ofString]

theorem unparenthesized_notedEntries {note : String}
    (hnote : Unparenthesized (Text.ofString note)) :
    ∀ entry ∈ notedEntries note, IsFunction entry → AllStrings Unparenthesized entry := by
  have hstring : ∀ string : String, Unparenthesized (Text.ofString string) →
      AllStrings Unparenthesized (.ofString string) := fun _ => .str
  have hnested : AllStrings Unparenthesized (.record [("approve", .bool true)]) :=
    .record (by decide) (by simp [AllStrings.bool])
  have hnotes : AllStrings Unparenthesized
      (.arr [.ofString note, .int (-10), .record [("approve", .bool true)]]) := by
    refine .arr ?_
    simp [hstring note hnote, AllStrings.int, hnested]
  have hevent : ¬ IsFunction
      (.record [("type", .ofString "event"), ("name", .ofString "transfer(")]) := by
    decide +kernel
  simp only [notedEntries, List.forall_mem_cons]
  refine ⟨fun _ => .record ?_ ?_, fun _ => .record ?_ ?_, fun hfunction => ?_, by simp⟩
  · simp only [List.forall_mem_cons]
    exact ⟨by decide, by decide, by decide, by simp⟩
  · simp only [List.forall_mem_cons]
    exact ⟨hstring _ (by decide), hstring _ (by decide), hnotes, by simp⟩
  · decide
  · simp only [List.forall_mem_cons]
    exact ⟨hstring _ (by decide), hstring _ (by decide), .null, by simp⟩
  · exact absurd hfunction hevent

theorem calls_notedEntries :
    ∃ text extraction, Extraction.ofText text = .ok extraction ∧
      extraction.mode = .interface ∧
      (∀ entry ∈ (Probe.ofText text).entries, IsFunction entry →
        AllStrings Unparenthesized entry) ∧
      extraction.functions.length = 2 ∧
      extraction.references.calls = List.replicate extraction.functions.length [] ∧
      ∀ source target,
        (.function source, .function target) ∉ (Diagram.flow extraction.contract).ends := by
  obtain ⟨text, -, hblank, hread⟩ := exists_read_compact_arr
    (portable_notedEntries "approve[1]") (by decide +kernel)
  have hextract := Extraction.ofText_of_read_arr hblank hread
  have hprobe : Probe.ofText text = .interface (notedEntries "approve[1]") none := by
    rw [Probe.ofText, hread]
  have hplain : ∀ entry ∈ (Probe.ofText text).entries, IsFunction entry →
      AllStrings Unparenthesized entry := by
    rw [hprobe]
    exact unparenthesized_notedEntries (by decide)
  have hlength : (functions (notedEntries "approve[1]")).length = 2 := by decide +kernel
  exact ⟨text, _, hextract, rfl, hplain, hlength,
    Extraction.calls_eq_replicate_nil hextract rfl hplain⟩

/-- The note in front makes a call of a name with a parenthesis. -/
example : (Extraction.ofInterface (notedEntries "approve(1)")).references.calls =
    [["approve"], []] := by decide +kernel

end ContractAtlas
