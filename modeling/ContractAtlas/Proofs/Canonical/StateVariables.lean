import ContractAtlas.Proofs.Canonical.Variables

/-!
# State variables of canonical sources

The second form, with the visibility in front of the type, finds nothing outside the
statements of variables.  Inside a statement it finds something only if the variable is
constant, as it takes the word `constant` for a type; that lies inside what the first form
has covered, so it is not counted again.
-/

namespace ContractAtlas.Canonical

open ContractAtlas.Source ContractAtlas.Text

/-! ## The second form in statements -/

theorem name?_mark {c : Char} (hc : c ∈ marks) (rest : List Char) : name? (c :: rest) = none := by
  simp [name?, isWord_of_mem_marks hc]

/-- A name that no second name follows. -/
theorem typedValue?_named (declaration : Variable) (rest : List Char) :
    typedValue? (declaration.named ++ rest) = none := by
  rw [named_append, typedValue?, declaration.name.isRun.name?_append (markNext_valueClause _ rest),
    Option.bind_eq_bind, Option.bind_some]
  cases declaration.value with
  | none => rfl
  | some value =>
      have hblanks : blanks? (valueClause (some value) ++ ';' :: rest) =
          some ('=' :: ' ' :: (value.chars ++ ';' :: rest)) := by
        unfold valueClause
        rw [List.cons_append, List.cons_append, List.cons_append]
        exact blanks?_space (stopsAt_isBlank_cons (by decide) _)
      have hname : ∀ rest, name? ('=' :: rest) = none := name?_mark (by decide)
      simp only [hblanks, Option.bind_eq_bind, Option.bind_some, hname]
      rfl

theorem typedValue?_word_named {word : List Char} (hword : IsRun word) (declaration : Variable)
    (rest : List Char) : typedValue? (word ++ ' ' :: (declaration.named ++ rest)) =
      some ((word, declaration.name.chars, declaration.value.map (·.chars)), rest) := by
  have hblanks : blanks? (' ' :: (declaration.named ++ rest)) =
      some (declaration.named ++ rest) := by
    rw [named_append]
    exact blanks?_space (declaration.name.isRun.stopsAt_isBlank _)
  have hname : name? (declaration.named ++ rest) =
      some (declaration.name.chars, valueClause declaration.value ++ ';' :: rest) := by
    rw [named_append, declaration.name.isRun.name?_append (markNext_valueClause _ rest)]
  have hvalue := initialValue?_valueClause declaration.value rest
  have htrim : ¬(trimStart (valueClause declaration.value ++ ';' :: rest)).head? = some '=' →
      trimStart (valueClause declaration.value ++ ';' :: rest) =
        valueClause declaration.value ++ ';' :: rest := by
    intro hne
    cases hcase : declaration.value with
    | none => exact trimStart_of_stopsAt (stopsAt_isBlank_cons (by decide) rest)
    | some value =>
        refine absurd ?_ hne
        rw [hcase]
        unfold valueClause
        rw [List.cons_append, List.cons_append, trimStart_space,
          trimStart_of_stopsAt (stopsAt_isBlank_cons (by decide) _), List.head?_cons]
  rw [typedValue?, hword.name?_append (markNext_cons (by decide) _)]
  simp only [Option.bind_eq_bind, Option.bind_some, hblanks, hname]
  split
  · rw [hvalue]
    rfl
  next hne =>
    rw [← htrim hne, hvalue]
    rfl

theorem visibilityFirstShape_of_not_isConstant {declaration : Variable}
    (hconstant : declaration.isConstant = false) (rest : List Char) (before : Option Char) :
    visibilityFirstShape before
      (declaration.visibility.keyword.toList ++ ' ' :: (declaration.qualified ++ rest)) = none := by
  have hblanks := blanks?_qualified declaration rest
  rw [qualified_of_not_isConstant hconstant] at hblanks ⊢
  have hnoConstant := qualifier?_named (by decide : "constant" ∈ reservedWords) declaration rest
  rw [visibilityFirstShape]
  split
  · rfl
  · simp only [storageVisibility?_keyword declaration.stored, Option.bind_eq_bind, Option.bind_some,
      hblanks, hnoConstant, typedValue?_named]
    rfl

/-- In the statement of a constant, the second form takes the word `constant` for the type. -/
def Variable.misread (declaration : Variable) : VariableParts :=
  { declaration.parts with type := "constant".toList, isConstant := false }

theorem visibilityFirstShape_of_isConstant {declaration : Variable}
    (hconstant : declaration.isConstant = true) (rest : List Char) {before : Option Char}
    (hbefore : before.any isQualified = false) :
    visibilityFirstShape before
      (declaration.visibility.keyword.toList ++ ' ' :: (declaration.qualified ++ rest)) =
        some (declaration.misread, rest) := by
  have hword : typedValue? (declaration.qualified ++ rest) = some
      (("constant".toList, declaration.name.chars, declaration.value.map (·.chars)), rest) := by
    rw [qualified_of_isConstant hconstant]
    exact typedValue?_word_named (isRun_of_mem_reservedWords (by decide)) declaration rest
  have hblanks := blanks?_qualified declaration rest
  have hqualifier := qualifier?_qualified hconstant rest
  rw [visibilityFirstShape, any_isWord_eq_false hbefore, if_neg Bool.false_ne_true,
    storageVisibility?_keyword declaration.stored]
  unfold Variable.misread
  generalize "constant".toList = word at hword ⊢
  simp only [Option.bind_eq_bind, Option.bind_some, hblanks, hqualifier, hword, typedValue?_named]
  rfl

/-- A statement up to its visibility. -/
def Variable.typed (declaration : Variable) : List Char :=
  declaration.type.chars ++ [' ']

/-- A statement from its visibility on. -/
def Variable.visible (declaration : Variable) : List Char :=
  declaration.visibility.keyword.toList ++ ' ' :: declaration.qualified

theorem statement_eq_append (declaration : Variable) :
    declaration.statement = declaration.typed ++ declaration.visible := by
  unfold Variable.statement Variable.typed Variable.visible
  rw [List.append_assoc, List.singleton_append]

theorem length_visible_pos (declaration : Variable) : 0 < declaration.visible.length := by
  unfold Variable.visible
  rw [List.length_append, List.length_cons]
  omega

theorem foundOnce_visible {declaration : Variable} (hconstant : declaration.isConstant = true) :
    FoundOnce visibilityFirstShape (declaration.visible ++ ['\n']) declaration.visible.length
      declaration.misread := by
  refine foundOnce_of_read (List.ne_nil_of_length_pos (length_visible_pos declaration))
    (fun before rest hbefore => ?_) (passes_visibilityFirstShape.quiet_mark (by decide))
  unfold Variable.visible
  rw [List.append_assoc, List.cons_append]
  exact visibilityFirstShape_of_isConstant hconstant rest hbefore

/-- In the line of a constant, the second form finds the statement from its visibility on. -/
theorem occurrencesFrom_line_of_isConstant {declaration : Variable}
    (hconstant : declaration.isConstant = true) (before : Option Char) (position : Nat)
    (rest : List Char) :
    occurrencesFrom visibilityFirstShape before 0 position (declaration.line ++ rest) =
      ⟨position + declaration.typed.length, position + declaration.statement.length,
        declaration.misread⟩ ::
      occurrencesFrom visibilityFirstShape (declaration.line.getLast?.or before) 0
        (position + declaration.line.length) rest := by
  have hline : declaration.line = declaration.typed ++ (declaration.visible ++ ['\n']) := by
    rw [Variable.line, statement_eq_append, List.append_assoc]
  have htyped : Quiet visibilityFirstShape declaration.typed
      (declaration.visible ++ ['\n'] ++ rest) :=
    Quiet.append (passes_visibilityFirstShape.passable_type _ (markNext_cons (by decide) _) trivial)
      (passes_visibilityFirstShape.quiet_mark (by decide) _)
  have hbefore : (declaration.typed.getLast?.or before).any isQualified = false := by
    rw [Variable.typed, List.getLast?_concat]
    exact isQualified_of_mem_marks (by decide)
  have hfound := foundOnce_visible hconstant _ (position + declaration.typed.length) rest hbefore
  have hlast : declaration.line.getLast?.or before =
      (declaration.visible ++ ['\n']).getLast?.or (declaration.typed.getLast?.or before) := by
    rw [hline, List.getLast?_append, Option.or_assoc]
  rw [hlast, hline, List.append_assoc, htyped, hfound, statement_eq_append]
  simp only [List.length_append, Nat.add_assoc]

/-- Whatever the second form finds in a line overlaps the statement. -/
theorem exists_occurrencesFrom_line (declaration : Variable) (before : Option Char) (position : Nat)
    (rest : List Char) :
    ∃ found, occurrencesFrom visibilityFirstShape before 0 position (declaration.line ++ rest) =
        found ++ occurrencesFrom visibilityFirstShape (declaration.line.getLast?.or before) 0
          (position + declaration.line.length) rest ∧
      ∀ occurrence ∈ found, occurrence.overlaps (declaration.occurrence position) = true := by
  cases hconstant : declaration.isConstant with
  | false =>
      have hquiet : Quiet visibilityFirstShape declaration.line rest :=
        passes_visibilityFirstShape.quiet_variableLine (fun _ => trivial) (by decide) declaration
          (visibilityFirstShape_of_not_isConstant hconstant) rest
      exact ⟨[], hquiet before position, fun occurrence hmem => absurd hmem List.not_mem_nil⟩
  | true =>
      have hlength : declaration.statement.length =
          declaration.typed.length + declaration.visible.length := by
        rw [statement_eq_append, List.length_append]
      have hpos := length_visible_pos declaration
      refine ⟨[⟨position + declaration.typed.length, position + declaration.statement.length,
          declaration.misread⟩], occurrencesFrom_line_of_isConstant hconstant before position rest,
        List.forall_mem_singleton.mpr ?_⟩
      have hstart : position + declaration.typed.length <
          position + declaration.statement.length := by omega
      have hstop : position < position + declaration.statement.length := by omega
      exact Bool.and_eq_true_iff.mpr ⟨decide_eq_true hstart, decide_eq_true hstop⟩

/-! ## The second form in headers -/

section

variable {c : Char} (hc : c ∈ ['(', '{'])

include hc

theorem stopsAt_isBlank_spacedWords {words : List (List Char)} (hwords : ∀ word ∈ words, IsRun word)
    (rest : List Char) : StopsAt isBlank (spacedWords words ++ c :: rest) := by
  have hall : ['(', '{'] ⊆ ['(', ')', ',', ';', '[', ']', '{', '}', '='] := by decide
  cases words with
  | nil => exact stopsAt_isBlank_cons (hall hc) rest
  | cons word words =>
      rw [spacedWords_cons_append]
      exact (hwords word List.mem_cons_self).stopsAt_isBlank _

theorem head?_spacedWords_ne_equals {words : List (List Char)}
    (hwords : ∀ word ∈ words, IsRun word) (rest : List Char) :
    (spacedWords words ++ c :: rest).head? ≠ some '=' := by
  cases words with
  | nil =>
      have hall : ∀ c ∈ ['(', '{'], c ≠ '=' := forall_mem_of_all (by decide)
      simpa [spacedWords] using hall c hc
  | cons word words =>
      obtain ⟨d, tail, hcons, hd⟩ := (hwords word List.mem_cons_self).exists_cons
      rw [spacedWords_cons_append, hcons]
      simpa using ne_of_isPlain hd (by decide)

/-- The words of a header are no type and name, as no equals sign or semicolon follows. -/
theorem typedValue?_spacedWords {words : List (List Char)} (hwords : ∀ word ∈ words, IsRun word)
    (rest : List Char) : typedValue? (spacedWords words ++ c :: rest) = none := by
  have hmark : c ∈ marks := by
    have hall : ['(', '{'] ⊆ marks := by decide
    exact hall hc
  cases words with
  | nil =>
      rw [spacedWords, List.flatMap_nil, List.nil_append, typedValue?, name?_mark hmark]
      rfl
  | cons word words =>
      obtain ⟨hword, hwords⟩ := List.forall_mem_cons.mp hwords
      have hblanks := blanks?_space (stopsAt_isBlank_spacedWords hc hwords rest)
      rw [spacedWords_cons_append, typedValue?, hword.name?_append (markNext_cons (by decide) _)]
      simp only [Option.bind_eq_bind, Option.bind_some, hblanks]
      cases words with
      | nil =>
          rw [spacedWords, List.flatMap_nil, List.nil_append, name?_mark hmark]
          rfl
      | cons next others =>
          obtain ⟨hnext, hothers⟩ := List.forall_mem_cons.mp hwords
          have hequals :
              ¬(trimStart (' ' :: (spacedWords others ++ c :: rest))).head? = some '=' := by
            rw [trimStart_space, trimStart_of_stopsAt (stopsAt_isBlank_spacedWords hc hothers rest)]
            exact head?_spacedWords_ne_equals hc hothers rest
          rw [spacedWords_cons_append, hnext.name?_append (markNext_cons (by decide) _)]
          simp only [Option.bind_some, if_neg hequals]
          rfl

theorem qualifier?_spacedWords {words : List (List Char)}
    (hwords : ∀ word ∈ words, IsOption ["constant"] word) (rest : List Char) :
    qualifier? "constant" (spacedWords words ++ c :: rest) = none := by
  have hconstant : IsRun "constant".toList := isRun_of_mem_reservedWords (by decide)
  cases words with
  | nil =>
      have hne : 'c' ≠ c := by
        rintro rfl
        revert hc
        decide
      have hafter : after? "constant" (c :: rest) = none := by simp [after?, hne]
      rw [spacedWords, List.flatMap_nil, List.nil_append, qualifier?, hafter]
      rfl
  | cons word words =>
      have hword := hwords word List.mem_cons_self
      rw [spacedWords_cons_append]
      exact qualifier?_eq_none hconstant hword.toIsRun (by simpa using hword.notKey)
        (markNext_cons (by decide) _)

end

/-- Behind its visibility, a header goes on with words up to a parenthesis or brace. -/
theorem exists_qualified_append (function : Function) (body : List Char) :
    ∃ words c rest, (∀ word ∈ words, IsOption ["constant"] word) ∧ c ∈ ['(', '{'] ∧
      function.qualified ++ '{' :: body = spacedWords words ++ c :: rest := by
  have hoptions : ∀ word ∈ function.options, IsOption ["constant"] word :=
    function.isOption_of_mem_options (by decide) (by decide)
  unfold Function.qualified
  cases function.results with
  | none =>
      refine ⟨function.options, '{', body, hoptions, by decide, ?_⟩
      rw [resultsClause_none, List.append_nil]
  | some results =>
      have hreturns : IsOption ["constant"] "returns".toList :=
        ⟨isName_of_mem_reservedWords (by decide), by decide, by decide⟩
      have hwords : ∀ word ∈ function.options ++ ["returns".toList], IsOption ["constant"] word :=
        List.forall_mem_append.mpr ⟨hoptions, List.forall_mem_singleton.mpr hreturns⟩
      refine ⟨_, '(', commaSeparated (results.map (·.chars)) ++ ([')', ' '] ++ '{' :: body),
        hwords, by decide, ?_⟩
      unfold resultsClause spacedWords
      rw [List.flatMap_append, List.flatMap_singleton]
      simp only [List.append_assoc, List.cons_append, List.nil_append]

theorem visibilityFirstShape_function (function : Function) (body : List Char)
    (before : Option Char) :
    visibilityFirstShape before (function.visibility.keyword.toList ++
      ' ' :: (function.qualified ++ '{' :: body)) = none := by
  by_cases hstored : function.visibility = .externally
  · have hkeyword : function.visibility.keyword ∉ storageKeywords := by
      rw [hstored]
      decide
    exact passes_visibilityFirstShape.visibility_eq_none (fun _ => trivial) hkeyword _ before
  · obtain ⟨words, c, rest, hwords, hc, heq⟩ := exists_qualified_append function body
    have hruns : ∀ word ∈ words, IsRun word := fun word hword => (hwords word hword).toIsRun
    have hblanks := blanks?_space (stopsAt_isBlank_spacedWords hc hruns rest)
    rw [heq, visibilityFirstShape]
    split
    · rfl
    · simp only [storageVisibility?_keyword hstored, Option.bind_eq_bind, Option.bind_some, hblanks,
        qualifier?_spacedWords hc hwords, typedValue?_spacedWords hc hruns]
      rfl

/-! ## The second form in the whole text -/

theorem exists_occurrencesFrom_flatMap (declarations : List Variable) (before : Option Char)
    (position : Nat) (rest : List Char) :
    ∃ found, occurrencesFrom visibilityFirstShape before 0 position
          (declarations.flatMap (·.line) ++ rest) =
        found ++ occurrencesFrom visibilityFirstShape
          ((declarations.flatMap (·.line)).getLast?.or before) 0
          (position + (declarations.flatMap (·.line)).length) rest ∧
      ∀ occurrence ∈ found,
        ∃ other ∈ placed Variable.line Variable.occurrence position declarations,
          occurrence.overlaps other = true := by
  induction declarations generalizing before position with
  | nil => exact ⟨[], rfl, fun occurrence hmem => absurd hmem List.not_mem_nil⟩
  | cons declaration others ih =>
      obtain ⟨first, hfirst, hoverlaps⟩ := exists_occurrencesFrom_line declaration before position
        (others.flatMap (·.line) ++ rest)
      obtain ⟨found, hfound, hothers⟩ := ih (declaration.line.getLast?.or before)
        (position + declaration.line.length)
      refine ⟨first ++ found, ?_, List.forall_mem_append.mpr ⟨fun occurrence hmem =>
        ⟨_, List.mem_cons_self, hoverlaps occurrence hmem⟩, fun occurrence hmem => ?_⟩⟩
      · rw [List.flatMap_cons, List.append_assoc, hfirst, hfound, List.append_assoc,
          List.getLast?_append, Option.or_assoc, List.length_append, Nat.add_assoc]
      · obtain ⟨other, hother, hoverlap⟩ := hothers occurrence hmem
        exact ⟨other, List.mem_cons_of_mem _ hother, hoverlap⟩

/-- Whatever the second form finds in a source overlaps the statement of a variable. -/
theorem overlaps_of_mem_visibilityFirst (source : Source) (layout : Layout)
    {occurrence : Occurrence VariableParts}
    (hmem : occurrence ∈ occurrences visibilityFirstShape (source.text layout)) :
    ∃ other ∈ placed Variable.line Variable.occurrence source.heading.length source.stateVariables,
      occurrence.overlaps other = true := by
  have hmembers : Quiet visibilityFirstShape (source.members layout) [] :=
    passes_visibilityFirstShape.quiet_members visibilityFirstShape_function (by decide) source
      layout
  have hheading : Quiet visibilityFirstShape source.heading
      (source.stateVariables.flatMap (·.line) ++ source.members layout) :=
    passes_visibilityFirstShape.quiet_heading (by decide) source _
  obtain ⟨found, hfound, hoverlaps⟩ := exists_occurrencesFrom_flatMap source.stateVariables
    (source.heading.getLast?.or none) (0 + source.heading.length) (source.members layout)
  rw [occurrences, Source.text, Source.variableLines, hheading, hfound,
    hmembers.occurrencesFrom_eq_nil, List.append_nil] at hmem
  rw [Nat.zero_add] at hoverlaps
  exact hoverlaps occurrence hmem

/-! ## All variables -/

/-- A text behind which a new statement starts on a line of its own. -/
def StartsStatement (front : List Char) : Prop :=
  ∃ body c, front = body ++ [c, '\n'] ∧ endsStatement c = true

theorem startsStatement_append (body : List Char) {front : List Char}
    (hfront : StartsStatement front) : StartsStatement (body ++ front) := by
  obtain ⟨more, c, rfl, hc⟩ := hfront
  exact ⟨body ++ more, c, by rw [List.append_assoc], hc⟩

theorem startsStatement_heading (source : Source) : StartsStatement source.heading := by
  refine ⟨"contract".toList ++ ' ' :: (source.name.chars ++
    (inheritanceClause source.parents ++ [' '])), '{', ?_, by decide⟩
  unfold Source.heading
  simp only [List.append_assoc, List.cons_append, List.nil_append]

theorem startsStatement_line (declaration : Variable) : StartsStatement declaration.line := by
  refine ⟨declaration.type.chars ++ ' ' :: (declaration.visibility.keyword.toList ++
    ' ' :: ((if declaration.isConstant then "constant".toList ++ [' '] else []) ++
      (declaration.name.chars ++ valueClause declaration.value))), ';', ?_, by decide⟩
  unfold Variable.line Variable.statement Variable.qualified Variable.named
  simp only [List.append_assoc, List.cons_append, List.nil_append]

theorem startsStatement_flatMap {front : List Char} (hfront : StartsStatement front)
    (declarations : List Variable) :
    StartsStatement (front ++ declarations.flatMap (·.line)) := by
  induction declarations generalizing front with
  | nil => rwa [List.flatMap_nil, List.append_nil]
  | cons declaration others ih =>
      rw [List.flatMap_cons, ← List.append_assoc]
      exact ih (startsStatement_append front (startsStatement_line declaration))

/-- The word `function` is not part of the statement that starts. -/
theorem inFunctionHeader_append {front : List Char} (hfront : StartsStatement front)
    (rest : List Char) : inFunctionHeader (front ++ rest) front.length = false := by
  obtain ⟨body, c, rfl, hc⟩ := hfront
  have hfeed : endsStatement '\n' = false := by decide
  have hnone : occurrences functionWordShape ['\n'] = [] := by decide
  have hstatement : ((body ++ [c, '\n']).reverse.takeWhile fun c => !endsStatement c) = ['\n'] := by
    simp [hc, hfeed]
  rw [inFunctionHeader, List.take_left, hstatement, List.reverse_singleton, hnone]
  rfl

theorem declaredVariable_occurrence (declaration : Variable) (position : Nat) :
    declaredVariable (declaration.occurrence position) = declaration.declared position := by
  have hname : String.ofList declaration.name.chars = declaration.name.name := by
    rw [Identifier.chars, String.ofList_toList]
  simp only [declaredVariable, Variable.occurrence, Variable.parts, Variable.declared, hname,
    Option.map_map]
  rfl

theorem stateVariables_text (source : Source) (layout : Layout) :
    stateVariables (source.text layout) =
      placed Variable.line Variable.declared source.heading.length source.stateVariables := by
  have hfirst : ∀ found ∈ placed Variable.line Variable.occurrence source.heading.length
      source.stateVariables, (!inFunctionHeader (source.text layout) found.start) = true := by
    intro found hfound
    obtain ⟨front, declaration, back, hvariables, rfl⟩ := exists_of_mem_placed hfound
    have hstart := startsStatement_flatMap (startsStatement_heading source) front
    have hheader := inFunctionHeader_append hstart
      ((declaration :: back).flatMap (·.line) ++ source.members layout)
    rw [List.length_append, List.append_assoc, ← List.append_assoc (front.flatMap _),
      ← List.flatMap_append, ← hvariables, ← Source.variableLines, ← Source.text] at hheader
    rw [Variable.occurrence, hheader]
    rfl
  have hsecond : ∀ found ∈ occurrences visibilityFirstShape (source.text layout),
      ¬(!(placed Variable.line Variable.occurrence source.heading.length source.stateVariables).any
        (found.overlaps ·) && !inFunctionHeader (source.text layout) found.start) = true := by
    intro found hfound
    obtain ⟨other, hother, hoverlaps⟩ := overlaps_of_mem_visibilityFirst source layout hfound
    have hany := List.any_eq_true.mpr ⟨other, hother, hoverlaps⟩
    rw [hany]
    simp
  rw [stateVariables, variableOccurrences]
  simp only [occurrences_typeFirstShape, List.filter_eq_self.mpr hfirst,
    List.filter_eq_nil_iff.mpr hsecond, List.merge_right]
  rw [placed_map]
  simp only [declaredVariable_occurrence]

end ContractAtlas.Canonical
