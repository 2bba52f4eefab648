import ContractAtlas.Proofs.Canonical.Lines
import ContractAtlas.Proofs.Canonical.Lists
import ContractAtlas.Proofs.Canonical.Placed
import ContractAtlas.Proofs.Canonical.Shapes

/-!
# Statements of canonical variables

The visibility of a canonical variable stands behind its type.  So a statement is read in
the first form, from its type to its semicolon, and nothing else is read in that form: behind
every other name stands a mark or a word that is no visibility of a variable.
-/

namespace ContractAtlas.Canonical

open ContractAtlas.Source ContractAtlas.Text

/-! ## Parts of a statement -/

/-- No keyword of a visibility starts with another one. -/
theorem after?_keyword_eq_none {visibility other : Visibility} (hne : other ≠ visibility)
    (rest : List Char) : after? other.keyword (visibility.keyword.toList ++ rest) = none := by
  have hfree : ∀ left right : Visibility, left ≠ right →
      ¬left.keyword.toList <+: right.keyword.toList := by
    rintro ⟨⟩ ⟨⟩ <;> decide
  cases hread : after? other.keyword (visibility.keyword.toList ++ rest) with
  | none => rfl
  | some left =>
      have hother : other.keyword.toList <+: visibility.keyword.toList ++ rest :=
        ⟨left, (eq_append_of_after? hread).symm⟩
      rcases List.prefix_or_prefix_of_prefix hother (List.prefix_append _ rest) with hless | hless
      · exact absurd hless (hfree other visibility hne)
      · exact absurd hless (hfree visibility other hne.symm)

theorem storageVisibility?_keyword {visibility : Visibility} (hstored : visibility ≠ .externally)
    (rest : List Char) :
    storageVisibility? (visibility.keyword.toList ++ rest) = some (visibility, rest) := by
  have hfound : (after? visibility.keyword (visibility.keyword.toList ++ rest)).map
      (visibility, ·) = some (visibility, rest) := by rw [after?_append_left, Option.map_some]
  have hnone : ∀ other : Visibility, other ≠ visibility →
      (after? other.keyword (visibility.keyword.toList ++ rest)).map (other, ·) = none := by
    intro other hne
    rw [after?_keyword_eq_none hne, Option.map_none]
  unfold storageVisibility?
  cases visibility with
  | publicly => rw [List.findSome?_cons, hfound]
  | privately =>
      rw [List.findSome?_cons, hnone .publicly (by decide), List.findSome?_cons, hfound]
  | internally =>
      rw [List.findSome?_cons, hnone .publicly (by decide), List.findSome?_cons,
        hnone .privately (by decide), List.findSome?_cons, hfound]
  | externally => contradiction

/-- A word is no qualifier unless it is this qualifier. -/
theorem qualifier?_eq_none {word : String} (hword : IsRun word.toList) {run rest : List Char}
    (hrun : IsRun run) (hne : String.ofList run ≠ word) (hrest : MarkNext rest) :
    qualifier? word (run ++ rest) = none := by
  cases hread : qualifier? word (run ++ rest) with
  | none => rfl
  | some left =>
      simp only [qualifier?, Option.bind_eq_bind, Option.bind_eq_some_iff] at hread
      obtain ⟨behind, hafter, hblanks⟩ := hread
      obtain ⟨c, tail, rfl, hc⟩ := exists_cons_of_blanks? hblanks
      have hsame := hrun.eq_of_append_eq hword hrest.stopsAt_isPlain (stopsAt_isPlain_cons hc tail)
        (eq_append_of_after? hafter)
      rw [hsame.1, String.ofList_toList] at hne
      contradiction

theorem initialValue?_valueClause (value : Option Digits) (rest : List Char) :
    initialValue? (trimStart (valueClause value ++ ';' :: rest)) =
      some (value.map (·.chars), rest) := by
  cases value with
  | none =>
      unfold valueClause
      rw [List.nil_append, trimStart_of_stopsAt (stopsAt_isBlank_cons (by decide) rest)]
      rfl
  | some value =>
      unfold valueClause
      rw [List.cons_append, trimStart_space, List.cons_append,
        trimStart_of_stopsAt (stopsAt_isBlank_cons (by decide) _)]
      have hrun : ∀ c ∈ ' ' :: value.chars, decide (c ≠ ';') = true :=
        List.forall_mem_cons.mpr ⟨by decide, fun c hc =>
          decide_eq_true (ne_of_isPlain (value.isRun.plain c hc) (by decide))⟩
      have hstop : StopsAt (fun c => decide (c ≠ ';')) (';' :: rest) := by simp [StopsAt]
      have htake := takeWhile_append_of_stopsAt hrun hstop
      have hdrop := dropWhile_append_of_stopsAt hrun hstop
      have htrim : trim (' ' :: value.chars) = value.chars := by
        rw [trim_space, value.isRun.trim_eq]
      rw [List.cons_append] at htake hdrop
      simp only [initialValue?, List.cons_append, htake, hdrop, htrim]
      simp [mark?]

theorem namedValue?_named (declaration : Variable) (rest : List Char) :
    namedValue? (declaration.named ++ rest) =
      some ((declaration.name.chars, declaration.value.map (·.chars)), rest) := by
  have hmark : MarkNext (valueClause declaration.value ++ ';' :: rest) := by
    cases declaration.value <;> exact markNext_cons (by decide) _
  unfold namedValue? Variable.named
  rw [List.append_assoc, List.append_assoc, List.singleton_append,
    declaration.name.isRun.name?_append hmark, Option.bind_eq_bind, Option.bind_some]
  simp only [initialValue?_valueClause]
  rfl

def Variable.tail (declaration : Variable) : VariableTail :=
  { visibility := declaration.visibility
    isConstant := declaration.isConstant
    name := declaration.name.chars
    initialValue := declaration.value.map (·.chars) }

theorem markNext_valueClause (value : Option Digits) (rest : List Char) :
    MarkNext (valueClause value ++ ';' :: rest) := by
  cases value <;> exact markNext_cons (by decide) _

theorem named_append (declaration : Variable) (rest : List Char) : declaration.named ++ rest =
    declaration.name.chars ++ (valueClause declaration.value ++ ';' :: rest) := by
  unfold Variable.named
  rw [List.append_assoc, List.append_assoc, List.singleton_append]

/-- The name of a variable is no qualifier. -/
theorem qualifier?_named {word : String} (hword : word ∈ reservedWords) (declaration : Variable)
    (rest : List Char) : qualifier? word (declaration.named ++ rest) = none := by
  rw [named_append]
  refine qualifier?_eq_none (isRun_of_mem_reservedWords hword) declaration.name.isRun ?_
    (markNext_valueClause declaration.value rest)
  rintro rfl
  exact declaration.name.notMem_reservedWords hword

theorem qualified_of_isConstant {declaration : Variable} (hconstant : declaration.isConstant = true)
    (rest : List Char) : declaration.qualified ++ rest =
      "constant".toList ++ ' ' :: (declaration.named ++ rest) := by
  unfold Variable.qualified
  rw [hconstant, if_pos rfl, List.append_assoc, List.append_assoc, List.singleton_append]

theorem qualified_of_not_isConstant {declaration : Variable}
    (hconstant : declaration.isConstant = false) : declaration.qualified = declaration.named := by
  unfold Variable.qualified
  rw [hconstant, if_neg Bool.false_ne_true, List.nil_append]

theorem qualifier?_qualified {declaration : Variable} (hconstant : declaration.isConstant = true)
    (rest : List Char) :
    qualifier? "constant" (declaration.qualified ++ rest) = some (declaration.named ++ rest) := by
  rw [qualified_of_isConstant hconstant, qualifier?, after?_append_left, Option.bind_eq_bind,
    Option.bind_some, named_append, blanks?_space (declaration.name.isRun.stopsAt_isBlank _)]

theorem blanks?_qualified (declaration : Variable) (rest : List Char) :
    blanks? (' ' :: (declaration.qualified ++ rest)) = some (declaration.qualified ++ rest) := by
  refine blanks?_space ?_
  cases hconstant : declaration.isConstant with
  | false =>
      rw [qualified_of_not_isConstant hconstant, named_append]
      exact declaration.name.isRun.stopsAt_isBlank _
  | true =>
      rw [qualified_of_isConstant hconstant]
      exact (isRun_of_mem_reservedWords (by decide)).stopsAt_isBlank _

/-- A statement is read from the blank behind its type. -/
theorem variableTail?_statement (declaration : Variable) (rest : List Char) :
    variableTail? (' ' :: (declaration.visibility.keyword.toList ++
      ' ' :: (declaration.qualified ++ rest))) = some (declaration.tail, rest) := by
  have hvisibility : blanks? (' ' :: (declaration.visibility.keyword.toList ++
      ' ' :: (declaration.qualified ++ rest))) =
        some (declaration.visibility.keyword.toList ++ ' ' :: (declaration.qualified ++ rest)) :=
    blanks?_space ((isName_keyword _).stopsAt_isBlank _)
  simp only [variableTail?, Option.bind_eq_bind, hvisibility, Option.bind_some,
    storageVisibility?_keyword declaration.stored, blanks?_qualified]
  cases hconstant : declaration.isConstant with
  | false =>
      have hnone : ∀ word ∈ ["constant", "immutable"],
          qualifier? word (declaration.named ++ rest) = none := fun word hword =>
        qualifier?_named (by revert word; decide) declaration rest
      rw [qualified_of_not_isConstant hconstant, hnone _ (by decide), hnone _ (by decide)]
      simp [namedValue?_named, Variable.tail, hconstant]
  | true =>
      simp [qualifier?_qualified hconstant, namedValue?_named, Variable.tail, hconstant]

/-! ## The first form -/

theorem IsDense.collapse_eq {word : List Char} (hword : IsDense word) : collapse word = word := by
  rw [collapse, hword.words_eq, List.intercalate_singleton]

theorem readPart_append (piece rest : List Char) : readPart (piece ++ rest) rest = piece := by
  rw [readPart, List.length_append, Nat.add_sub_cancel, List.take_left]

def Variable.parts (declaration : Variable) : VariableParts :=
  { type := declaration.type.chars
    visibility := declaration.visibility
    isConstant := declaration.isConstant
    name := declaration.name.chars
    initialValue := declaration.value.map (·.chars) }

theorem afterAllBrackets_dropWhile (type : TypeName) {word : List Char} (hword : IsRun word)
    (rest : List Char) :
    afterAllBrackets ((type.chars ++ ' ' :: (word ++ rest)).dropWhile isQualified) =
      ' ' :: (word ++ rest) := by
  have hqualified : ∀ c ∈ type.base.chars, isQualified c = true :=
    fun _ => type.base.isRun.isQualified
  have hspace := afterAllBrackets_of_none (afterBrackets?_space_word hword rest)
  unfold TypeName.chars
  rw [List.append_assoc]
  cases type.isArray with
  | false =>
      have hstop : StopsAt isQualified (' ' :: (word ++ rest)) :=
        (markNext_cons (by decide) _).stopsAt_isQualified
      rw [if_neg Bool.false_ne_true, List.nil_append,
        dropWhile_append_of_stopsAt hqualified hstop, hspace]
  | true =>
      have hstop : StopsAt isQualified ('[' :: ']' :: ' ' :: (word ++ rest)) :=
        (markNext_cons (by decide) _).stopsAt_isQualified
      rw [if_pos rfl, List.cons_append, List.singleton_append,
        dropWhile_append_of_stopsAt hqualified hstop, afterAllBrackets_brackets, hspace]

theorem statement_append (declaration : Variable) (rest : List Char) :
    declaration.statement ++ rest = declaration.type.chars ++
      ' ' :: (declaration.visibility.keyword.toList ++ ' ' :: (declaration.qualified ++ rest)) := by
  unfold Variable.statement
  simp only [List.append_assoc, List.cons_append]

/-- A statement starts with the name of its type. -/
theorem exists_statement_append (declaration : Variable) (rest : List Char) :
    ∃ more, MarkNext more ∧
      declaration.statement ++ rest = declaration.type.base.chars ++ more := by
  rw [statement_append]
  unfold TypeName.chars
  rw [List.append_assoc]
  refine ⟨_, ?_, rfl⟩
  cases declaration.type.isArray with
  | false => exact markNext_cons (by decide) _
  | true => exact markNext_cons (by decide) _

theorem plainVariable?_statement (declaration : Variable) (rest : List Char) :
    plainVariable? (declaration.statement ++ rest) =
      some (declaration.tail, declaration.type.chars, rest) := by
  have hstarts := declaration.type.base.isName.starts
  have hbehind := afterAllBrackets_dropWhile declaration.type
    (isName_keyword declaration.visibility).toIsRun (' ' :: (declaration.qualified ++ rest))
  rw [← statement_append] at hbehind
  have hread : readPart (declaration.statement ++ rest) (' ' ::
      (declaration.visibility.keyword.toList ++ ' ' :: (declaration.qualified ++ rest))) =
        declaration.type.chars := by
    rw [statement_append, readPart_append]
  obtain ⟨more, -, hmore⟩ := exists_statement_append declaration rest
  obtain ⟨c, tail, hcons, -⟩ := declaration.type.base.isRun.exists_cons
  have hhead : (declaration.statement ++ rest).head? = some c := by
    rw [hmore, hcons, List.cons_append, List.head?_cons]
  have hc : startsIdentifier c = true := hstarts c (by rw [hcons, List.head?_cons]; rfl)
  simp only [plainVariable?, hhead, Option.bind_eq_bind, Option.bind_some, hc, if_true, hbehind,
    variableTail?_statement, hread]
  rfl

theorem typeFirstShape_statement {before : Option Char} (hbefore : before.any isQualified = false)
    (declaration : Variable) (rest : List Char) :
    typeFirstShape before (declaration.statement ++ rest) = some (declaration.parts, rest) := by
  have hmapping : mappingVariable? (declaration.statement ++ rest) = none := by
    obtain ⟨more, hmark, hmore⟩ := exists_statement_append declaration rest
    rw [hmore]
    refine mappingVariable?_eq_none declaration.type.base.isRun (fun heq => ?_) hmark
    exact declaration.type.base.notMem_reservedWords (heq ▸ by decide)
  rw [typeFirstShape, hbefore, if_neg Bool.false_ne_true, hmapping, plainVariable?_statement]
  simp [declaration.type.isDense.collapse_eq, Variable.tail, Variable.parts]

theorem foundOnce_variable (declaration : Variable) :
    FoundOnce typeFirstShape declaration.line declaration.statement.length declaration.parts := by
  have hne : declaration.statement ≠ [] := by
    unfold Variable.statement
    exact List.append_ne_nil_of_right_ne_nil _ (List.cons_ne_nil _ _)
  exact foundOnce_of_read hne
    (fun _ rest hbefore => typeFirstShape_statement hbefore declaration rest)
    (passes_typeFirstShape.quiet_mark (by decide))

/-- The visibility of a function is no type, as no other visibility follows. -/
theorem typeFirstShape_function (function : Function) (body : List Char) (before : Option Char) :
    typeFirstShape before (function.visibility.keyword.toList ++
      ' ' :: (function.qualified ++ '{' :: body)) = none := by
  have hmapping : function.visibility.keyword ∉ ["mapping"] := by
    cases function.visibility <;> decide
  exact passes_typeFirstShape.word (isName_keyword _).toIsRun (by rwa [String.ofList_toList])
    (markNext_cons (by decide) _)
    (passes_typeFirstShape.calm_space_qualified (by decide) function body) before

def Variable.occurrence (position : Nat) (declaration : Variable) : Occurrence VariableParts :=
  ⟨position, position + declaration.statement.length, declaration.parts⟩

theorem occurrences_typeFirstShape (source : Source) (layout : Layout) :
    occurrences typeFirstShape (source.text layout) =
      placed Variable.line Variable.occurrence source.heading.length source.stateVariables :=
  occurrences_placed source.stateVariables
    (passes_typeFirstShape.quiet_heading (by decide) source _) (bounded_heading source)
    foundOnce_variable bounded_variable
    (passes_typeFirstShape.quiet_members typeFirstShape_function (by decide) source layout)

end ContractAtlas.Canonical
