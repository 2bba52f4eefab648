import ContractAtlas.Proofs.Integrity
import ContractAtlas.Proofs.Json.Strings

/-!
# Rules of interface lists

A rule is held against the text as it was given, and only then against the scopes of the
functions.  The scope of an entry is not a part of that text but its value, written again.
A token that some scope shows is therefore missed when the text writes one of its
characters as a number, as in `\u0073elfdestruct`: then the text does not mention the token.
Nothing else hides it.  Spaces, the order of keys, keys that are repeated, the short
escapes and numbers for other characters all leave the token in the text.

One short escape ends like a word: the scope shows a tab as `\t`, so that a tab in front of
`x.origin` makes it mention `tx.origin`.  The text does the same unless it writes the tab
as a number.
-/

namespace ContractAtlas

open Json

section Catalog

variable {rule : Rule Severity} {token : String}

theorem Rule.mem_tokens_catalog (hrule : rule ∈ catalog) (htoken : token ∈ rule.tokens) :
    token ∈ catalog.flatMap (·.tokens) :=
  List.mem_flatMap.mpr ⟨rule, hrule, htoken⟩

/-- The tokens of the catalog occur in written values only inside strings. -/
theorem Rule.isNameLike_of_mem_catalog (hrule : rule ∈ catalog) (htoken : token ∈ rule.tokens) :
    IsNameLike token.toList := by
  have hbare : ∀ token ∈ catalog.flatMap (·.tokens), token.toList.all (fun c =>
      decide (c ≠ '"' ∧ c ≠ '\\' ∧ c ≠ '/' ∧ c.toNat < 0x10000)) = true := by decide
  have hunmarked : ∀ token ∈ catalog.flatMap (·.tokens),
      token.toList.all (fun c => decide (mark? c = none)) = true := by decide
  have hnotScalar : ∀ token ∈ catalog.flatMap (·.tokens),
      token.toList.any (fun c => decide (c ∉ scalarChars)) = true := by decide
  have hmem := mem_tokens_catalog hrule htoken
  obtain ⟨c, hc, hscalar⟩ := List.any_eq_true.mp (hnotScalar token hmem)
  exact ⟨Text.forall_mem_of_all (hbare token hmem), Text.forall_mem_of_all (hunmarked token hmem),
    c, hc, of_decide_eq_true hscalar⟩

theorem Rule.head?_of_mem_catalog (hrule : rule ∈ catalog) (htoken : token ∈ rule.tokens) :
    token.toList.head? = some 's' ∨ token.toList.head? = some 't' := by
  have hhead : ∀ token ∈ catalog.flatMap (·.tokens),
      token.toList.head? = some 's' ∨ token.toList.head? = some 't' := by decide
  exact hhead token (mem_tokens_catalog hrule htoken)

theorem Rule.severity_of_mem_catalog (hrule : rule ∈ catalog) : rule.severity = .high := by
  have hhigh : ∀ severity ∈ catalog.map (·.severity), severity = .high := by decide
  exact hhigh _ (List.mem_map_of_mem hrule)

/-- The description tells the rules of the catalog apart. -/
theorem Rule.eq_of_description_eq {other : Rule Severity} (hrule : rule ∈ catalog)
    (hother : other ∈ catalog) (hdescription : rule.description = other.description) :
    rule = other := by
  have hnodup : (catalog.map (·.description)).Nodup := by decide
  exact List.inj_on_of_nodup_map hnodup hrule hother hdescription

end Catalog

theorem Json.notMem_escapedUnit {c : Char} (hc : c = 's' ∨ c = 't') (unit : Nat) :
    c ∉ escapedUnit unit := by
  intro hmem
  have hunit : c ∈ unitChars := escapedUnit_subset unit hmem
  revert hunit
  rcases hc with rfl | rfl <;> decide

/-- The only escape that shows a letter `s` or `t` is that of the tab. -/
theorem Json.eq_of_mem_compactChar {c char : Char} (hc : c = 's' ∨ c = 't')
    (hmem : c ∈ compactChar char) : char = c ∨ c = 't' ∧ char = '\t' := by
  rw [compactChar] at hmem
  cases hshort : shortEscapeOf? char with
  | none =>
      rw [hshort] at hmem
      simp only at hmem
      split at hmem
      · exact absurd hmem (notMem_escapedUnit hc _)
      · exact .inl (List.mem_singleton.mp hmem).symm
  | some escape =>
      rw [hshort] at hmem
      rw [shortEscapeOf?.eq_def] at hshort
      split at hshort
      case h_5 =>
        obtain rfl := Option.some.inj hshort
        rcases hc with rfl | rfl
        · exact absurd hmem (by decide)
        · exact .inr ⟨rfl, rfl⟩
      case h_8 => contradiction
      all_goals
        obtain rfl := Option.some.inj hshort
        rcases hc with rfl | rfl <;> exact absurd hmem (by decide)

namespace Extraction

variable {text : String} {extraction : Extraction}

/-- The entries that an interface list is extracted from were read from the text. -/
theorem exists_entries_of_ofText (hextract : ofText text = .ok extraction)
    (hmode : extraction.mode = .interface) :
    ∃ entries name, extraction = ofEntries (Text.ofString text) entries name ∧
      ∀ entry ∈ entries, AllStrings (WrittenIn text.toList) entry := by
  rcases exists_probe_of_ofText hextract with ⟨entries, name, hprobe, rfl⟩ | hextract
  · refine ⟨entries, name, rfl, fun entry hentry => ?_⟩
    obtain ⟨value, hread, hlist⟩ := Probe.exists_read_of_ofText hprobe
    have hvalue := allStrings_of_read hread
    rcases hlist with rfl | hfield
    · exact hvalue.of_mem hentry
    · exact (hvalue.field? hfield).of_mem hentry
  · rw [ofDeclarations_eq_ok hextract] at hmode
    contradiction

/-- The scope of a function in an interface list is the compact text of its entry. -/
theorem exists_scopeOf_eq_compact {entries : List Json} {given : Text} {name : Option Text}
    {function : FunctionDeclaration}
    (hfunction : function ∈ (ofEntries given entries name).functions) :
    ∃ entry ∈ entries, (ofEntries given entries name).scopeOf function = entry.compact := by
  obtain ⟨_, entry, hentry, -, hscope⟩ := Interface.exists_entry_of_mem_functions hfunction
  refine ⟨entry, hentry, ?_⟩
  rw [scopeOf, scope, hscope, Option.getD_some]

/-- A rule is reported, and the report names a function. -/
def Reports (extraction : Extraction) (rule : Rule Severity) (function : FunctionDeclaration) :
    Prop :=
  rule.finding extraction ∈ extraction.scan Rule.catalog ∧
    function.name ∈ (rule.finding extraction).affectedFunctions

/-- A rule of the catalog is reported if and only if it applies to the text. -/
theorem finding_mem_scan_iff {rule : Rule Severity} (hrule : rule ∈ Rule.catalog) :
    rule.finding extraction ∈ extraction.scan Rule.catalog ↔
      rule.appliesTo extraction.text = true := by
  constructor
  · intro hreported
    rcases mem_findings_iff.mp hreported with ⟨function, -, -, heq⟩ | ⟨other, hother, happlies, heq⟩
    · have hhigh : rule.severity = .medium := congrArg Finding.severity heq
      rw [Rule.severity_of_mem_catalog hrule] at hhigh
      contradiction
    · have hdescription : rule.description = other.description :=
        congrArg Finding.description heq
      rwa [Rule.eq_of_description_eq hrule hother hdescription]
  · exact fun happlies => mem_findings_iff.mpr (.inr ⟨rule, hrule, happlies, rfl⟩)

/-- In an interface list, a token of a scope is mentioned by the text, unless the text writes
one of its characters, or a tab that shows as its first letter, as a number. -/
theorem mentions_text_of_mentions_scopeOf (hextract : ofText text = .ok extraction)
    (hmode : extraction.mode = .interface) {rule : Rule Severity} (hrule : rule ∈ Rule.catalog)
    {function : FunctionDeclaration} (hfunction : function ∈ extraction.functions)
    {token : String} (htoken : token ∈ rule.tokens)
    (hmentions : (extraction.scopeOf function).mentions token = true)
    (hnumbered : ∀ c ∈ token.toList, ¬ Numbers text.toList c)
    (htab : token.toList.head? = some 't' → ¬ Numbers text.toList '\t') :
    extraction.text.mentions token = true := by
  obtain ⟨entries, name, rfl, hentries⟩ := exists_entries_of_ofText hextract hmode
  obtain ⟨entry, hentry, hscope⟩ := exists_scopeOf_eq_compact hfunction
  rw [hscope, Text.mentions_iff] at hmentions
  have hfirst : ∀ c ∈ token.toList.head?, ∀ char, Numbers text.toList char →
      c ∉ compactChar char := by
    intro c hc char hchar hmem
    have hletter : c = 's' ∨ c = 't' := by
      rcases Rule.head?_of_mem_catalog hrule htoken with hhead | hhead
      · exact .inl (Option.some.inj (hc.symm.trans hhead))
      · exact .inr (Option.some.inj (hc.symm.trans hhead))
    rcases eq_of_mem_compactChar hletter hmem with rfl | ⟨rfl, rfl⟩
    · exact hnumbered char (List.mem_of_mem_head? hc) hchar
    · exact htab hc hchar
  have hinside := (hentries entry hentry).infix_of_infix_compact
    (Rule.isNameLike_of_mem_catalog hrule htoken) hnumbered hfirst hmentions
  obtain ⟨before, after, heq⟩ := hinside
  rw [Text.mentions_iff]
  refine ⟨Text.ofChars before, Text.ofChars after, ?_⟩
  change _ = Text.ofChars text.toList
  rw [← heq, Text.ofChars_append, Text.ofChars_append]
  rfl

/-- In an interface list, a rule that applies to the scope of a function is reported for the
function exactly if it applies to the text too, and it does if some token of the scope is
not written with numbers. -/
theorem reports_interface (hextract : ofText text = .ok extraction)
    (hmode : extraction.mode = .interface) {rule : Rule Severity} (hrule : rule ∈ Rule.catalog)
    {function : FunctionDeclaration} (hfunction : function ∈ extraction.functions)
    (happlies : rule.appliesTo (extraction.scopeOf function) = true) :
    (extraction.Reports rule function ↔ rule.appliesTo extraction.text = true) ∧
      ∀ token ∈ rule.tokens, (extraction.scopeOf function).mentions token = true →
        (∀ c ∈ token.toList, ¬ Numbers text.toList c) →
        (token.toList.head? = some 't' → ¬ Numbers text.toList '\t') →
          extraction.Reports rule function := by
  have haffected : function.name ∈ (rule.finding extraction).affectedFunctions :=
    List.mem_eraseDups.mpr (List.mem_map_of_mem (List.mem_filter.mpr ⟨hfunction, happlies⟩))
  have hiff : extraction.Reports rule function ↔ rule.appliesTo extraction.text = true := by
    rw [← finding_mem_scan_iff hrule]
    exact and_iff_left haffected
  refine ⟨hiff, fun token htoken hmentions hnumbered htab => hiff.mpr ?_⟩
  exact List.any_eq_true.mpr ⟨token, htoken, mentions_text_of_mentions_scopeOf hextract hmode hrule
    hfunction htoken hmentions hnumbered htab⟩

/-- An artifact with spaces, repeated keys, a solidus behind a backslash, and numbers for
characters that are in no token. -/
def spacedArtifact : String :=
  "\x7b \"abi\" : 1 ,\n \"abi\" : [ \x7b \"name\" : \"old\" , \"type\" : \"function\" , " ++
    "\"name\":\"a\\/selfdestruct\\u00fc\" , \"notes\" : \"\\tx.origin\\\\u0073\" \x7d ] \x7d"

theorem reports_spacedArtifact :
    ∃ extraction function, ofText spacedArtifact = .ok extraction ∧
      function ∈ extraction.functions ∧ function.name = "a/selfdestructü" ∧
      ∀ rule ∈ Rule.catalog, extraction.Reports rule function := by
  have hshown : (ofText spacedArtifact).map (fun extraction =>
      (extraction.mode, extraction.functions.map fun function =>
        (function.name, (extraction.scopeOf function).mentions "selfdestruct",
          (extraction.scopeOf function).mentions "tx.origin"))) =
      .ok (.interface, [("a/selfdestructü", true, true)]) := by
    decide +kernel
  obtain ⟨extraction, hextract, hshown⟩ := exists_of_map_eq_ok hshown
  obtain ⟨hmode, hfunctions⟩ := Prod.mk.inj hshown
  obtain ⟨function, hfunction, hshown⟩ := List.map_eq_singleton_iff.mp hfunctions
  obtain ⟨hname, hshown⟩ := Prod.mk.inj hshown
  obtain ⟨hfirst, hsecond⟩ := Prod.mk.inj hshown
  have hmem : function ∈ extraction.functions := hfunction ▸ List.mem_cons_self
  refine ⟨extraction, function, hextract, hmem, hname, fun rule hrule => ?_⟩
  have hfound : ∃ token ∈ rule.tokens, (extraction.scopeOf function).mentions token = true ∧
      (∀ c ∈ token.toList, ¬ Numbers spacedArtifact.toList c) ∧
      ¬ Numbers spacedArtifact.toList '\t' := by
    have hnumbers : numberedChars false spacedArtifact.toList = ['ü'] := by decide +kernel
    have hplain : ∀ token ∈ ["selfdestruct", "tx.origin", "\t"], ∀ c ∈ token.toList,
        ¬ Numbers spacedArtifact.toList c := by
      have hfree : ∀ token ∈ ["selfdestruct", "tx.origin", "\t"], 'ü' ∉ token.toList := by decide
      intro token htoken c hc hnumbered
      rw [Numbers, hnumbers, List.mem_singleton] at hnumbered
      exact hfree token htoken (hnumbered ▸ hc)
    have htab : ¬ Numbers spacedArtifact.toList '\t' := hplain "\t" (by simp) '\t' (by simp)
    simp only [Rule.catalog, List.mem_cons, List.not_mem_nil, or_false] at hrule
    rcases hrule with rfl | rfl
    · exact ⟨"selfdestruct", by simp, hfirst, hplain _ (by simp), htab⟩
    · exact ⟨"tx.origin", by simp, hsecond, hplain _ (by simp), htab⟩
  obtain ⟨token, htoken, hmentions, hnumbered, htab⟩ := hfound
  have happlies : rule.appliesTo (extraction.scopeOf function) = true :=
    List.any_eq_true.mpr ⟨token, htoken, hmentions⟩
  exact (reports_interface hextract hmode hrule hmem happlies).2 token htoken hmentions hnumbered
    fun _ => htab

/-- A function whose name starts with a letter that is written as a number. -/
def numberedName : String :=
  "[\x7b\"type\":\"function\",\"name\":\"\\u0073elfdestruct\"\x7d]"

/-- The scope of this function mentions a token that the text does not mention. -/
theorem not_reports_numberedName :
    ∃ extraction function rule, ofText numberedName = .ok extraction ∧
      extraction.mode = .interface ∧ rule ∈ Rule.catalog ∧ function ∈ extraction.functions ∧
      rule.appliesTo (extraction.scopeOf function) = true ∧
      ¬ extraction.Reports rule function := by
  have hshown : (ofText numberedName).map (fun extraction =>
      (extraction.mode, extraction.functions.map fun function =>
        Rule.catalog.map (·.appliesTo (extraction.scopeOf function)),
        extraction.scan Rule.catalog)) =
      .ok (.interface, [[true, false]], []) := by decide +kernel
  obtain ⟨extraction, hextract, hshown⟩ := exists_of_map_eq_ok hshown
  obtain ⟨hmode, hshown⟩ := Prod.mk.inj hshown
  obtain ⟨hfunctions, hscan⟩ := Prod.mk.inj hshown
  obtain ⟨function, hfunction, happlies⟩ := List.map_eq_singleton_iff.mp hfunctions
  have hsome : true ∈ Rule.catalog.map (·.appliesTo (extraction.scopeOf function)) := by
    rw [happlies]
    exact List.mem_cons_self
  obtain ⟨rule, hrule, happlies⟩ := List.mem_map.mp hsome
  refine ⟨extraction, function, rule, hextract, hmode, hrule, hfunction ▸ List.mem_cons_self,
    happlies, ?_⟩
  rintro ⟨hreported, -⟩
  exact List.not_mem_nil (hscan ▸ hreported)

end Extraction

end ContractAtlas
