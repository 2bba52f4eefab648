import ContractAtlas.Proofs.Canonical.Header
import ContractAtlas.Proofs.Canonical.Placed
import ContractAtlas.Source.Member

/-!
# Members of canonical sources

Events, modifiers and functions start with a keyword of their own.  What is read at the
start of such a line is what was written there, and the scan for one kind passes over all
other lines.
-/

namespace ContractAtlas.Canonical

open ContractAtlas.Source ContractAtlas.Text

/-! ## Reading one member -/

/-- The keyword, the blank and the name with which a member starts. -/
theorem bind_keyword_name {β : Type} {word : String} {before : Option Char}
    (hbefore : before.any isQualified = false) (identifier : Identifier) {rest : List Char}
    (hrest : MarkNext rest) (read : List Char × List Char → Option β) :
    ((keyword? word before (word.toList ++ ' ' :: (identifier.chars ++ rest))).bind fun behind =>
      (blanks? behind).bind fun text => (name? text).bind read) =
        read (identifier.chars, rest) := by
  rw [keyword?_append_left (any_isWord_eq_false hbefore), Option.bind_some,
    blanks?_space (identifier.isRun.stopsAt_isBlank rest), Option.bind_some,
    identifier.isRun.name?_append hrest, Option.bind_some]

def Event.parts (event : Event) : EventParts :=
  ⟨event.name.chars, commaSeparated (event.inputs.map (·.chars)), event.isAnonymous⟩

theorem eventShape_statement {before : Option Char} (hbefore : before.any isQualified = false)
    (event : Event) (rest : List Char) :
    eventShape before (event.statement ++ rest) = some (event.parts, rest) := by
  have hend : trimStart (';' :: rest) = ';' :: rest :=
    trimStart_of_stopsAt (stopsAt_isBlank_cons (by decide) rest)
  unfold eventShape Event.statement
  simp only [Option.bind_eq_bind, List.append_assoc, List.cons_append]
  rw [bind_keyword_name hbefore event.name (markNext_cons (by decide) _)]
  simp only [enclosed?_commaSeparated (isItem_of_mem_map EventInput.isItem event.inputs),
    Option.bind_some]
  cases hcase : event.isAnonymous with
  | false =>
      have hafter : after? "anonymous" (';' :: rest) = none := by simp [after?]
      simp only [Bool.false_eq_true, if_false, List.nil_append, hend, hafter]
      simp [mark?, Event.parts, hcase]
  | true =>
      have hanonymous : trimStart ("anonymous".toList ++ ';' :: rest) =
          "anonymous".toList ++ ';' :: rest :=
        trimStart_of_stopsAt ((isRun_of_mem_reservedWords (by decide)).stopsAt_isBlank _)
      simp only [if_true, List.cons_append, List.nil_append]
      rw [trimStart_space, hanonymous, after?_append_left]
      simp only [hend]
      simp [mark?, Event.parts, hcase]

def Modifier.parts (modifier : Modifier) : ModifierParts :=
  ⟨modifier.name.chars, commaSeparated ((modifier.inputs.getD []).map (·.chars))⟩

theorem modifierShape_opening {before : Option Char} (hbefore : before.any isQualified = false)
    (modifier : Modifier) (rest : List Char) :
    modifierShape before (modifier.opening ++ rest) = some (modifier.parts, rest) := by
  have hbody : upToBody? ([' '] ++ '{' :: rest) = some ([' '], rest) :=
    upToBody?_append_of_notMem (List.forall_mem_singleton.mpr (by decide)) rest
  rw [List.singleton_append] at hbody
  unfold modifierShape Modifier.opening
  simp only [Option.bind_eq_bind, List.append_assoc, List.cons_append]
  cases hinputs : modifier.inputs with
  | none =>
      have henclosed : enclosed? (trimStart (' ' :: '{' :: rest)) = none := by
        rw [trimStart_space, trimStart_of_stopsAt (stopsAt_isBlank_cons (by decide) rest),
          enclosed?_eq_none (by decide)]
      unfold inputsClause
      rw [List.nil_append, bind_keyword_name hbefore modifier.name (markNext_cons (by decide) _)]
      simp only [List.nil_append, henclosed, hbody]
      simp [Modifier.parts, hinputs, commaSeparated]
  | some inputs =>
      rw [inputsClause_append,
        bind_keyword_name hbefore modifier.name (markNext_cons (by decide) _)]
      simp only [List.nil_append, Option.bind_some, hbody,
        enclosed?_commaSeparated (isItem_of_mem_map Input.isItem inputs)]
      simp [Modifier.parts, hinputs]

theorem endsStatement_of_isPlain {c : Char} (hc : isPlain c = true) : endsStatement c = false :=
  forall_isPlain (fun c => endsStatement c = false) (by decide) hc

theorem endsStatement_of_mem_spacedWords {words : List (List Char)}
    (hwords : ∀ word ∈ words, IsRun word) : ∀ c ∈ spacedWords words, endsStatement c = false := by
  intro c hc
  obtain ⟨word, hword, hc⟩ := List.mem_flatMap.mp hc
  rcases List.mem_append.mp hc with hc | hc
  · exact endsStatement_of_isPlain ((hwords word hword).plain c hc)
  · rw [List.mem_singleton.mp hc]
    decide

theorem endsStatement_of_mem_commaSeparated {items : List (List Char)}
    (hitems : ∀ item ∈ items, IsItem item) :
    ∀ c ∈ commaSeparated items, endsStatement c = false := by
  intro c hc
  have hall : ∀ mark ∈ [';', '{', '}'], c ≠ mark := by
    have hends : [';', '{', '}'] ⊆ ['(', ')', ';', '{', '}'] := by decide
    rintro mark hmark rfl
    exact notMem_commaSeparated hitems (hends hmark) hc
  simpa [endsStatement, and_assoc] using hall

theorem endsStatement_of_mem_resultsClause (results : Option (List Result)) :
    ∀ c ∈ resultsClause results, endsStatement c = false := by
  cases results with
  | none => exact fun c hc => absurd hc List.not_mem_nil
  | some results =>
      have hreturns : ∀ c ∈ "returns".toList, endsStatement c = false :=
        forall_mem_of_all (by decide)
      have hlist := endsStatement_of_mem_commaSeparated (isItem_of_mem_map Result.isItem results)
      have hend : ∀ c ∈ [')', ' '], endsStatement c = false := forall_mem_of_all (by decide)
      exact List.forall_mem_append.mpr ⟨hreturns, List.forall_mem_cons.mpr ⟨by decide,
        List.forall_mem_cons.mpr ⟨by decide, List.forall_mem_append.mpr ⟨hlist, hend⟩⟩⟩⟩

/-- No statement ends inside a header. -/
theorem Function.endsStatement_of_mem_header (function : Function) :
    ∀ c ∈ function.header, endsStatement c = false :=
  List.forall_mem_cons.mpr ⟨by decide, List.forall_mem_append.mpr
    ⟨endsStatement_of_mem_spacedWords fun word hword =>
        (function.isName_of_mem_words word hword).toIsRun,
      endsStatement_of_mem_resultsClause function.results⟩⟩

def Function.parts (function : Function) : FunctionParts :=
  ⟨function.name.chars, commaSeparated (function.inputs.map (·.chars)), function.header⟩

theorem functionShape_opening {before : Option Char} (hbefore : before.any isQualified = false)
    (function : Function) (rest : List Char) :
    functionShape before (function.opening ++ rest) = some (function.parts, rest) := by
  unfold functionShape Function.opening
  simp only [Option.bind_eq_bind, List.append_assoc, List.cons_append]
  rw [bind_keyword_name hbefore function.name (markNext_cons (by decide) _)]
  simp only [enclosed?_commaSeparated (isItem_of_mem_map Input.isItem function.inputs),
    Option.bind_some, List.nil_append,
    upToBody?_append_of_notMem function.endsStatement_of_mem_header]
  rfl

/-! ## Lines with one member -/

theorem foundOnce_event (event : Event) :
    FoundOnce eventShape event.line event.statement.length event.parts := by
  have hne : event.statement ≠ [] := by
    unfold Event.statement
    exact List.append_ne_nil_of_right_ne_nil _ (List.cons_ne_nil _ _)
  exact foundOnce_of_read hne (fun _ rest hbefore => eventShape_statement hbefore event rest)
    (passes_eventShape.quiet_mark (by decide))

theorem foundOnce_modifier (modifier : Modifier) :
    FoundOnce modifierShape modifier.line modifier.opening.length modifier.parts := by
  have hne : modifier.opening ≠ [] := by
    unfold Modifier.opening
    exact List.append_ne_nil_of_right_ne_nil _ (List.cons_ne_nil _ _)
  exact foundOnce_of_read hne (fun _ rest hbefore => modifierShape_opening hbefore modifier rest)
    passes_modifierShape.quiet_modifierBody

theorem foundOnce_function (layout : Layout) (function : Function) :
    FoundOnce functionShape (function.line layout) function.opening.length function.parts := by
  have hne : function.opening ≠ [] := by
    unfold Function.opening
    exact List.append_ne_nil_of_right_ne_nil _ (List.cons_ne_nil _ _)
  exact foundOnce_of_read hne (fun _ rest hbefore => functionShape_opening hbefore function rest)
    (passes_functionShape.quiet_body layout)

/-! ## What a line declares -/

theorem declaredEvent_parts (event : Event) (position stop : Nat) :
    declaredEvent ⟨position, stop, event.parts⟩ = event.declared position := by
  simp only [declaredEvent, Event.parts, Event.declared, eventParameters_inputs]
  rw [Identifier.chars, String.ofList_toList]

theorem declaredModifier_parts (modifier : Modifier) (position stop : Nat) :
    declaredModifier ⟨position, stop, modifier.parts⟩ = modifier.declared position := by
  simp only [declaredModifier, Modifier.parts, Modifier.declared, parameters_inputs]
  rw [Identifier.chars, String.ofList_toList]

theorem declaredFunction_parts (function : Function) (position stop : Nat) :
    declaredFunction ⟨position, stop, function.parts⟩ = function.declared position := by
  simp only [declaredFunction, Function.parts, Function.declared, parameters_inputs,
    Function.functionHeader_header]
  rw [Identifier.chars, String.ofList_toList]

/-! ## All members of one kind -/

section

variable (source : Source) (layout : Layout)

theorem events_text : events (source.text layout) = placed Event.line Event.declared
    (source.heading.length + source.variableLines.length) source.events := by
  have hkeyword : ∀ visibility : Visibility, visibility.keyword ∉ ["event"] := by
    rintro ⟨⟩ <;> decide
  have hfront : Quiet eventShape (source.heading ++ source.variableLines)
      (source.events.flatMap (·.line) ++
        (source.modifierLines ++ (source.functionLines layout ++ Source.closing layout))) :=
    Quiet.append (passes_eventShape.quiet_heading (by decide) source _)
      (passes_eventShape.quiet_variableLines (fun _ => trivial) (by decide) hkeyword source _)
  have hfunctions : ∀ rest, Quiet eventShape (source.functionLines layout) rest :=
    passes_eventShape.quiet_functionLines
      (fun _ _ => passes_eventShape.visibility_eq_none (fun _ => trivial) (hkeyword _) _)
      (by decide) source layout
  have hback : Quiet eventShape
      (source.modifierLines ++ (source.functionLines layout ++ Source.closing layout)) [] :=
    Quiet.append (passes_eventShape.quiet_modifierLines (by decide) source _)
      (Quiet.append (hfunctions _) (passes_eventShape.quiet_closing layout _))
  have hbound : Bounded (source.heading ++ source.variableLines) :=
    (bounded_heading source).append (bounded_variableLines source)
  have hfound := occurrences_placed source.events hfront hbound foundOnce_event bounded_event hback
  have htext : source.text layout = source.heading ++ source.variableLines ++
      (source.events.flatMap (·.line) ++
        (source.modifierLines ++ (source.functionLines layout ++ Source.closing layout))) := by
    unfold Source.text Source.members Source.eventLines
    rw [List.append_assoc]
  rw [events, htext, hfound, placed_map, List.length_append]
  simp only [declaredEvent_parts]

theorem modifiers_text : modifiers (source.text layout) = placed Modifier.line Modifier.declared
    (source.heading.length + source.variableLines.length + source.eventLines.length)
    source.modifiers := by
  have hkeyword : ∀ visibility : Visibility, visibility.keyword ∉ ["modifier"] := by
    rintro ⟨⟩ <;> decide
  have hfront : Quiet modifierShape (source.heading ++ source.variableLines ++ source.eventLines)
      (source.modifiers.flatMap (·.line) ++
        (source.functionLines layout ++ Source.closing layout)) :=
    Quiet.append
      (Quiet.append (passes_modifierShape.quiet_heading (by decide) source _)
        (passes_modifierShape.quiet_variableLines (fun _ => trivial) (by decide) hkeyword source _))
      (passes_modifierShape.quiet_eventLines (by decide) source _)
  have hfunctions : ∀ rest, Quiet modifierShape (source.functionLines layout) rest :=
    passes_modifierShape.quiet_functionLines
      (fun _ _ => passes_modifierShape.visibility_eq_none (fun _ => trivial) (hkeyword _) _)
      (by decide) source layout
  have hback : Quiet modifierShape (source.functionLines layout ++ Source.closing layout) [] :=
    Quiet.append (hfunctions _) (passes_modifierShape.quiet_closing layout _)
  have hbound : Bounded (source.heading ++ source.variableLines ++ source.eventLines) :=
    ((bounded_heading source).append (bounded_variableLines source)).append
      (bounded_eventLines source)
  have hfound := occurrences_placed source.modifiers hfront hbound foundOnce_modifier
    bounded_modifier hback
  have htext : source.text layout = source.heading ++ source.variableLines ++ source.eventLines ++
      (source.modifiers.flatMap (·.line) ++
        (source.functionLines layout ++ Source.closing layout)) := by
    unfold Source.text Source.members Source.modifierLines
    rw [List.append_assoc, List.append_assoc]
  rw [modifiers, htext, hfound, placed_map, List.length_append, List.length_append]
  simp only [declaredModifier_parts]

theorem functions_text : functions (source.text layout) =
    placed (Function.line layout) Function.declared (source.heading.length +
      source.variableLines.length + source.eventLines.length + source.modifierLines.length)
      source.functions := by
  have hkeyword : ∀ visibility : Visibility, visibility.keyword ∉ ["function"] := by
    rintro ⟨⟩ <;> decide
  have hvariables : ∀ rest, Quiet functionShape source.variableLines rest :=
    passes_functionShape.quiet_variableLines (fun _ => trivial) (by decide) hkeyword source
  have hfront : Quiet functionShape
      (source.heading ++ source.variableLines ++ source.eventLines ++ source.modifierLines)
      (source.functions.flatMap (·.line layout) ++ Source.closing layout) :=
    Quiet.append
      (Quiet.append
        (Quiet.append (passes_functionShape.quiet_heading (by decide) source _) (hvariables _))
        (passes_functionShape.quiet_eventLines (by decide) source _))
      (passes_functionShape.quiet_modifierLines (by decide) source _)
  have hbound : Bounded
      (source.heading ++ source.variableLines ++ source.eventLines ++ source.modifierLines) :=
    (((bounded_heading source).append (bounded_variableLines source)).append
      (bounded_eventLines source)).append (bounded_modifierLines source)
  have hfound := occurrences_placed source.functions hfront hbound (foundOnce_function layout)
    (bounded_function layout) (passes_functionShape.quiet_closing layout [])
  have htext : source.text layout =
      source.heading ++ source.variableLines ++ source.eventLines ++ source.modifierLines ++
        (source.functions.flatMap (·.line layout) ++ Source.closing layout) := by
    unfold Source.text Source.members Source.functionLines
    rw [List.append_assoc, List.append_assoc, List.append_assoc]
  rw [functions, htext, hfound, placed_map, List.length_append, List.length_append,
    List.length_append]
  simp only [declaredFunction_parts]

end

end ContractAtlas.Canonical
