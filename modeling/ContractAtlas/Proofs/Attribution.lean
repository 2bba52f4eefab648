import ContractAtlas.Proofs.Extraction
import ContractAtlas.Proofs.RoleTable
import ContractAtlas.Proofs.Text.Start

/-!
# Attribution in sources

In a source the scope of a function is the rest of the text behind its offset, and the
functions come in the order of their offsets.  A function's scope therefore holds a
string exactly if the function is declared at or before the last place where the
string starts.  Everything that is derived from scopes (readers, writers, calls,
findings, roles) reduces to this comparison, so that the functions that write a
variable are the first of those that read it.
-/

namespace ContractAtlas

/-- Whether a function is declared at or before a position; before no position nothing
is declared. -/
def FunctionDeclaration.isUpTo (function : FunctionDeclaration) (position? : Option Nat) :
    Bool :=
  position?.any (function.offset ≤ ·)

/-- A rule with the name of its severity. -/
def Rule.named (rule : Rule Severity) : Rule String :=
  { rule with severity := rule.severity.name }

namespace Extraction

variable {extraction : Extraction} {source : Text}

/-- The names of the functions that are declared at or before a position, each once. -/
def declaredUpTo (extraction : Extraction) (position? : Option Nat) : List String :=
  unique ((extraction.functions.filter (·.isUpTo position?)).map (·.name))

/-- Scopes are tails of one text, cut off at increasing offsets. -/
structure ScopesAreTails (extraction : Extraction) (source : Text) : Prop where
  text_eq : extraction.text = source
  increasing : extraction.functions.Pairwise fun left right => left.offset < right.offset
  offset_lt : ∀ function ∈ extraction.functions, function.offset < source.length
  entry_eq_none : ∀ function ∈ extraction.functions, function.entry = none

theorem scopesAreTails_of_ofSource {text : String} (hextract : ofSource text = .ok extraction) :
    extraction.ScopesAreTails (Text.ofString text) := by
  obtain rfl := ofDeclarations_eq_ok (ofDeclarations_of_ofSource hextract)
  exact {
    text_eq := rfl
    increasing := Source.pairwise_offset_functions text.toList
    offset_lt := by
      intro function hfunction
      rw [Text.ofString, Text.ofChars, List.length_map]
      exact Source.offset_lt_length_of_mem_functions hfunction
    entry_eq_none := by
      intro function hfunction
      exact Source.entry_of_mem_functions hfunction }

namespace ScopesAreTails

variable (htails : extraction.ScopesAreTails source)
include htails

theorem scopeOf_eq {function : FunctionDeclaration} (hfunction : function ∈ extraction.functions) :
    extraction.scopeOf function = source.drop function.offset := by
  rw [scopeOf, scope, htails.entry_eq_none function hfunction, Option.getD_none, htails.text_eq]

theorem any_mentions_scopeOf {function : FunctionDeclaration}
    (hfunction : function ∈ extraction.functions) (parts : List String) :
    parts.any (extraction.scopeOf function).mentions =
      function.isUpTo (source.lastStart? parts) := by
  rw [htails.scopeOf_eq hfunction]
  exact Text.any_mentions_drop (htails.offset_lt function hfunction).le

theorem mentions_scopeOf {function : FunctionDeclaration}
    (hfunction : function ∈ extraction.functions) (part : String) :
    (extraction.scopeOf function).mentions part =
      function.isUpTo (source.lastStart? [part]) := by
  rw [← htails.any_mentions_scopeOf hfunction]
  simp

/-- The functions in whose scope one of several strings occurs. -/
theorem names_of_mentioning (parts : List String) :
    unique ((extraction.functions.filter fun function =>
        parts.any (extraction.scopeOf function).mentions).map (·.name)) =
      extraction.declaredUpTo (source.lastStart? parts) := by
  have hfilter : (extraction.functions.filter fun function =>
        parts.any (extraction.scopeOf function).mentions) =
      extraction.functions.filter (·.isUpTo (source.lastStart? parts)) := by
    apply List.filter_congr
    intro function hfunction
    exact htails.any_mentions_scopeOf hfunction parts
  rw [hfilter, declaredUpTo]

theorem mentioningFunctions_eq (string : String) :
    extraction.mentioningFunctions string =
      extraction.declaredUpTo (source.lastStart? [string]) := by
  rw [← htails.names_of_mentioning, mentioningFunctions]
  simp

/-- What is declared up to a position is declared before everything else. -/
theorem pairwise_isUpTo (position? : Option Nat) :
    extraction.functions.Pairwise fun left right =>
      right.isUpTo position? → left.isUpTo position? := by
  apply htails.increasing.imp
  intro left right hlt hright
  rw [FunctionDeclaration.isUpTo, Option.any_eq_true] at hright ⊢
  obtain ⟨position, hposition, hle⟩ := hright
  refine ⟨position, hposition, ?_⟩
  rw [decide_eq_true_iff] at hle ⊢
  omega

theorem declaredUpTo_prefix_declaredUpTo {early? late? : Option Nat}
    (hlater : ∀ function ∈ extraction.functions,
      function.isUpTo early? → function.isUpTo late?) :
    extraction.declaredUpTo early? <+: extraction.declaredUpTo late? := by
  apply FirstSeen.prefix_eraseDups
  apply List.IsPrefix.map
  exact FirstSeen.filter_prefix_filter (htails.pairwise_isUpTo early?) hlater

theorem declaredUpTo_prefix_knownNames (position? : Option Nat) :
    extraction.declaredUpTo position? <+: extraction.knownNames := by
  apply FirstSeen.prefix_eraseDups
  apply List.IsPrefix.map
  exact FirstSeen.filter_prefix_self (htails.pairwise_isUpTo position?)

/-- The writers of a variable are the first of its readers: where an assignment to the
variable starts, its name starts as well. -/
theorem writersOf_prefix_readersOf (declaration : VariableDeclaration) :
    extraction.writersOf declaration <+: extraction.readersOf declaration := by
  rw [writersOf, readersOf, htails.mentioningFunctions_eq, htails.mentioningFunctions_eq]
  apply htails.declaredUpTo_prefix_declaredUpTo
  intro function _ hassigned
  simp only [FunctionDeclaration.isUpTo, Text.exists_le_lastStart?_iff, List.mem_singleton,
    exists_eq_left] at hassigned ⊢
  obtain ⟨start, hstart, hle⟩ := hassigned
  exact ⟨start, Text.starts_append_subset " =" hstart, hle⟩

theorem readersOf_prefix_knownNames (declaration : VariableDeclaration) :
    extraction.readersOf declaration <+: extraction.knownNames := by
  rw [readersOf, htails.mentioningFunctions_eq]
  exact htails.declaredUpTo_prefix_knownNames _

theorem callsOf_eq {function : FunctionDeclaration} (hfunction : function ∈ extraction.functions) :
    extraction.callsOf function = extraction.knownNames.filter fun name =>
      name ≠ function.name ∧ ∃ start ∈ source.starts (name ++ "("), function.offset ≤ start := by
  rw [callsOf]
  apply List.filter_congr
  intro name _
  rw [htails.mentions_scopeOf hfunction, Bool.eq_iff_iff]
  simp [FunctionDeclaration.isUpTo, Text.exists_le_lastStart?_iff]

/-- A rule applies to a text if and only if one of its tokens starts somewhere in it. -/
theorem appliesTo_text_iff {σ : Type} (rule : Rule σ) :
    rule.appliesTo extraction.text = true ↔ ∃ token ∈ rule.tokens, source.starts token ≠ [] := by
  rw [Rule.appliesTo, List.any_eq_true, htails.text_eq]
  simp only [Text.mentions_iff_starts_ne_nil]

theorem finding_eq (rule : Rule Severity) :
    rule.finding extraction =
      { severity := rule.severity
        description := rule.description
        location := rule.location
        recommendation := rule.recommendation
        affectedFunctions := extraction.declaredUpTo (source.lastStart? rule.tokens) } := by
  rw [← htails.names_of_mentioning]
  rfl

theorem scan_eq (rules : List (Rule Severity)) :
    extraction.scan rules =
      (extraction.functions.filter (·.mutability = .payable)).map (payableFinding ·.name) ++
        (rules.filter fun rule => ∃ token ∈ rule.tokens, source.starts token ≠ []).map
          fun rule =>
            { severity := rule.severity
              description := rule.description
              location := rule.location
              recommendation := rule.recommendation
              affectedFunctions :=
                extraction.declaredUpTo (source.lastStart? rule.tokens) } := by
  have hfilter : rules.filter (·.appliesTo extraction.text) =
      rules.filter fun rule => ∃ token ∈ rule.tokens, source.starts token ≠ [] := by
    apply List.filter_congr
    intro rule _
    rw [Bool.eq_iff_iff, htails.appliesTo_text_iff rule, decide_eq_true_iff]
  rw [scan, hfilter]
  congr 1
  apply List.map_congr_left
  intro rule _
  exact htails.finding_eq rule

theorem rolesOf_eq {function : FunctionDeclaration} (hfunction : function ∈ extraction.functions) :
    extraction.rolesOf function =
      Role.chosen
        (Role.nameSuggests function.name "owner" ||
          function.isUpTo (source.lastStart? ["onlyOwner"]))
        (Role.nameSuggests function.name "admin" ||
          function.isUpTo (source.lastStart? ["onlyAdmin"]))
        (Role.nameSuggests function.name "user" ||
          function.isUpTo (source.lastStart? ["view", "pure"])) := by
  rw [rolesOf, Role.classify_eq_chosen, ← htails.any_mentions_scopeOf hfunction,
    ← htails.any_mentions_scopeOf hfunction, ← htails.any_mentions_scopeOf hfunction]
  simp only [List.any_cons, List.any_nil, Bool.or_false]

end ScopesAreTails

/-- Rules with recognised severities are scanned for as they are. -/
theorem scanNamed_named (extraction : Extraction) (rules : List (Rule Severity)) :
    extraction.scanNamed (rules.map Rule.named) = .ok (extraction.scan rules) := by
  have hrecognise : ∀ applicable : List (Rule Severity),
      (applicable.map Rule.named).mapM Rule.recognise = .ok applicable := by
    intro applicable
    induction applicable with
    | nil => rfl
    | cons rule rest ih =>
        have hrule : Rule.recognise rule.named = .ok rule := by
          simp [Rule.recognise, Rule.named]
        rw [List.map_cons, List.mapM_cons, hrule, ih]
        rfl
  have hfilter : (rules.map Rule.named).filter (·.appliesTo extraction.text) =
      (rules.filter (·.appliesTo extraction.text)).map Rule.named := by
    rw [List.filter_map]
    rfl
  have hscan : extraction.scan (rules.filter (·.appliesTo extraction.text)) =
      extraction.scan rules := by
    rw [scan, scan, List.filter_filter]
    simp
  rw [scanNamed, hfilter, hrecognise, ← hscan]
  rfl

/-! ## The law of attribution -/

/-- What references, findings and roles say, in terms of positions in a text. -/
structure AttributesByPosition (extraction : Extraction) (source : Text) : Prop where
  increasing : (extraction.functions.map (·.offset)).Pairwise (· < ·)
  writtenBy : extraction.references.writtenBy = extraction.stateVariables.map fun declaration =>
    extraction.declaredUpTo (source.lastStart? [declaration.name ++ " ="])
  readBy : extraction.references.readBy = extraction.stateVariables.map fun declaration =>
    extraction.declaredUpTo (source.lastStart? [declaration.name])
  writers_prefix : List.Forall₂ (· <+: ·) extraction.references.writtenBy
    extraction.references.readBy
  readers_prefix : ∀ readers ∈ extraction.references.readBy,
    readers <+: unique (extraction.functions.map (·.name))
  calls : extraction.references.calls = extraction.functions.map fun function =>
    (unique (extraction.functions.map (·.name))).filter fun name =>
      name ≠ function.name ∧ ∃ start ∈ source.starts (name ++ "("), function.offset ≤ start
  findings : ∀ rules : List (Rule Severity),
    extraction.scanNamed (rules.map Rule.named) = .ok
      ((extraction.functions.filter (·.mutability = .payable)).map (payableFinding ·.name) ++
        (rules.filter fun rule => ∃ token ∈ rule.tokens, source.starts token ≠ []).map
          fun rule =>
            { severity := rule.severity
              description := rule.description
              location := rule.location
              recommendation := rule.recommendation
              affectedFunctions :=
                extraction.declaredUpTo (source.lastStart? rule.tokens) })
  owner : ∀ function ∈ extraction.functions, Role.owner ∈ extraction.rolesOf function ↔
    Role.nameSuggests function.name "owner" ∨
      function.isUpTo (source.lastStart? ["onlyOwner"])
  admin : ∀ function ∈ extraction.functions, Role.admin ∈ extraction.rolesOf function ↔
    Role.nameSuggests function.name "admin" ∨
      function.isUpTo (source.lastStart? ["onlyAdmin"])
  user : ∀ function ∈ extraction.functions, Role.user ∈ extraction.rolesOf function ↔
    Role.nameSuggests function.name "user" ∨
      function.isUpTo (source.lastStart? ["view", "pure"]) ∨
        Role.owner ∉ extraction.rolesOf function ∧ Role.admin ∉ extraction.rolesOf function

/-- In a source, being declared at or before the last place where a string starts is all
that attribution depends on. -/
theorem attributesByPosition_of_ofSource {text : String} {extraction : Extraction}
    (hextract : ofSource text = .ok extraction) :
    extraction.AttributesByPosition (Text.ofString text) := by
  have htails := scopesAreTails_of_ofSource hextract
  exact {
    increasing := List.pairwise_map.mpr htails.increasing
    writtenBy := by
      apply List.map_congr_left
      intro declaration _
      exact htails.mentioningFunctions_eq _
    readBy := by
      apply List.map_congr_left
      intro declaration _
      exact htails.mentioningFunctions_eq _
    writers_prefix := by
      rw [references, List.forall₂_map_left_iff, List.forall₂_map_right_iff,
        List.forall₂_same]
      intro declaration _
      exact htails.writersOf_prefix_readersOf declaration
    readers_prefix := by
      intro readers hreaders
      obtain ⟨declaration, -, rfl⟩ := List.mem_map.mp hreaders
      exact htails.readersOf_prefix_knownNames declaration
    calls := by
      apply List.map_congr_left
      intro function hfunction
      exact htails.callsOf_eq hfunction
    findings := by
      intro rules
      rw [scanNamed_named, htails.scan_eq]
    owner := by
      intro function hfunction
      rw [htails.rolesOf_eq hfunction, Role.owner_mem_chosen_iff, Bool.or_eq_true]
    admin := by
      intro function hfunction
      rw [htails.rolesOf_eq hfunction, Role.admin_mem_chosen_iff, Bool.or_eq_true]
    user := by
      intro function hfunction
      rw [htails.rolesOf_eq hfunction, Role.user_mem_chosen_iff, Role.owner_mem_chosen_iff,
        Role.admin_mem_chosen_iff, Bool.or_eq_true, or_assoc, Bool.not_eq_true,
        Bool.not_eq_true] }

/-- A function between two others of one name: it calls the second of them, and the first
one calls it. -/
def overloadedSource : String :=
  "uint public x; function f(uint a) public { g(); } function g() public { x = 1; } " ++
    "function f() public { selfdestruct; }"

theorem attributesByPosition_overloadedSource :
    ∃ extraction, ofSource overloadedSource = .ok extraction ∧
      extraction.references.calls = [["g"], ["f"], []] ∧
      extraction.AttributesByPosition (Text.ofString overloadedSource) := by
  have hcalls : (ofSource overloadedSource).map (·.references.calls) =
      .ok [["g"], ["f"], []] := by decide +kernel
  obtain ⟨extraction, hextract, hnames⟩ := exists_of_map_eq_ok hcalls
  exact ⟨extraction, hextract, hnames, attributesByPosition_of_ofSource hextract⟩

end Extraction

end ContractAtlas
