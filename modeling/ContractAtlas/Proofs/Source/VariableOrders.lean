import ContractAtlas.Proofs.Source.VariablePhrase

/-!
# The two orders of a variable's statement

The statement of a state variable has its visibility behind the type or in front of it.  Each
order is a grammar, and its shape reads exactly what the grammar allows
(`typeFirstShape_eq_some_iff`, `visibilityFirstShape_eq_some_iff`).  So within either order a
statement is read in one way: even a mapping, which ends at the first parenthesis behind which
the statement goes on, since whether it does shows before the semicolon.  Between the orders
that is not so, but a piece of text that is a statement in both has a visibility for its type in
both (`type_of_both_orders`).
-/

namespace ContractAtlas.Source

open ContractAtlas.Canonical ContractAtlas.Text

variable {text rest left piece : List Char}

/-! ## The grammars -/

/-- Pairs of brackets, with blanks in front of each. -/
inductive Brackets : List Char → Prop
  | nil : Brackets []
  | cons {space inside more : List Char} (hspace : ∀ c ∈ space, isBlank c = true)
      (hinside : ']' ∉ inside) (hmore : Brackets more) :
      Brackets (space ++ '[' :: (inside ++ ']' :: more))

/-- A qualified name, perhaps of an array. -/
inductive PlainType : List Char → Prop
  | intro {word brackets : List Char} (hne : word ≠ [])
      (hstarts : ∀ c ∈ word.head?, startsIdentifier c = true)
      (hword : ∀ c ∈ word, isQualified c = true) (hbrackets : Brackets brackets) :
      PlainType (word ++ brackets)

/-- A mapping up to the first closing parenthesis behind which the statement goes on. -/
inductive MappingType (behind : List Char) : List Char → Prop
  | intro {space inside : List Char} (hspace : ∀ c ∈ space, isBlank c = true)
      (hinside : ∀ c ∈ inside, endsStatement c = false)
      (hfirst : ∀ front more, inside = front ++ ')' :: more →
        ∀ tail, ¬ TailPhrase (more ++ ')' :: behind) tail) :
      MappingType behind ("mapping".toList ++ (space ++ '(' :: (inside ++ [')'])))

/-- A statement with the visibility behind the type. -/
inductive TypeFirst : List Char → VariableParts → Prop
  | intro {type behind : List Char} {tail : VariableTail}
      (htype : MappingType behind type ∨ PlainType type) (htail : TailPhrase behind tail) :
      TypeFirst (type ++ behind)
        ⟨collapse type, tail.visibility, tail.isConstant, tail.name, tail.initialValue⟩

/-- A type, a name, and the end of the statement, with no blank in front of a semicolon. -/
inductive TypedPhrase : List Char → List Char → List Char → Option (List Char) → Prop
  | intro {type gap name space ending : List Char} {value : Option (List Char)}
      (htype : IsWordRun type) (hgap : IsGap gap) (hname : IsWordRun name)
      (hspace : ∀ c ∈ space, isBlank c = true) (hending : Ending ending value)
      (hclose : value = none → space = []) :
      TypedPhrase (type ++ (gap ++ (name ++ (space ++ ending)))) type name value

/-- A statement with the visibility in front of the type, perhaps with the word `constant`
between them. -/
inductive VisibilityFirst : List Char → VariableParts → Prop
  | intro {gap qualifier typed : List Char} {parts : VariableParts}
      (hstored : parts.visibility ≠ .externally) (hgap : IsGap gap)
      (hqualifier : Qualifier qualifier parts.isConstant)
      (hconstant : parts.isConstant = false → qualifier = [])
      (htyped : TypedPhrase typed parts.type parts.name parts.initialValue) :
      VisibilityFirst (parts.visibility.keyword.toList ++ (gap ++ (qualifier ++ typed))) parts

/-! ## Types -/

theorem afterBrackets?_eq_some_iff :
    afterBrackets? text = some rest ↔ ∃ space inside, (∀ c ∈ space, isBlank c = true) ∧
      ']' ∉ inside ∧ text = space ++ '[' :: (inside ++ ']' :: rest) := by
  simp only [afterBrackets?, Option.bind_eq_bind, Option.bind_eq_some_iff, mark?_eq_some_iff]
  constructor
  · rintro ⟨more, hopen, hclose⟩
    obtain ⟨-, space, hspace, rfl⟩ := trimStart_eq_iff.mp hopen
    obtain ⟨hinside, -, hmore⟩ := takeWhile_dropWhile_eq_iff.mp ⟨rfl, hclose⟩
    refine ⟨space, _, hspace, fun hmem => by simpa using hinside _ hmem, ?_⟩
    rw [← hmore]
  · rintro ⟨space, inside, hspace, hinside, rfl⟩
    have hrun : ∀ c ∈ inside, decide (c ≠ ']') = true := fun c hc =>
      decide_eq_true fun heq => hinside (heq ▸ hc)
    exact ⟨_, trimStart_eq_iff.mpr ⟨stopsAt_isBlank_cons (by decide) _, space, hspace, rfl⟩,
      dropWhile_append_of_stopsAt hrun (by simp [StopsAt])⟩

theorem exists_brackets_append (text : List Char) :
    ∃ brackets, Brackets brackets ∧ text = brackets ++ afterAllBrackets text := by
  fun_induction afterAllBrackets text with
  | case1 text rest hrest _ ih =>
      obtain ⟨brackets, hbrackets, hmore⟩ := ih
      obtain ⟨space, inside, hspace, hinside, htext⟩ := afterBrackets?_eq_some_iff.mp hrest
      refine ⟨_, .cons hspace hinside hbrackets, ?_⟩
      rw [htext, List.append_assoc, List.cons_append, List.append_assoc, List.cons_append, ← hmore]
  | case2 text hnone => exact ⟨[], .nil, rfl⟩

theorem afterAllBrackets_append {brackets : List Char} (hbrackets : Brackets brackets)
    (hnone : afterBrackets? rest = none) : afterAllBrackets (brackets ++ rest) = rest := by
  induction hbrackets with
  | nil => exact afterAllBrackets_of_none hnone
  | cons hspace hinside hmore ih =>
      rw [List.append_assoc, List.cons_append, List.append_assoc, List.cons_append,
        afterAllBrackets_of_some (afterBrackets?_eq_some_iff.mpr ⟨_, _, hspace, hinside, rfl⟩), ih]

theorem TailPhrase.stopsAt {behind : List Char} {tail : VariableTail} {test : Char → Bool}
    (hblank : ∀ {c}, isBlank c = true → test c = false) (htail : TailPhrase behind tail)
    (rest : List Char) : StopsAt test (behind ++ rest) := by
  obtain ⟨hgap, -, -, -, -⟩ := htail
  rw [List.append_assoc]
  exact hgap.stopsAt hblank _

/-- What follows a type goes on with a letter behind the blanks. -/
theorem TailPhrase.exists_trimStart {behind : List Char} {tail : VariableTail}
    (htail : TailPhrase behind tail) (rest : List Char) :
    ∃ c more, trimStart (behind ++ rest) = c :: more ∧ isPlain c = true := by
  obtain ⟨hgap, -, -, -, -⟩ := htail
  obtain ⟨c, more, hkeyword, hc⟩ := (isName_keyword tail.visibility).exists_cons
  rename_i gap next qualifier named
  refine ⟨c, more ++ (next ++ (qualifier ++ named)) ++ rest, ?_, hc⟩
  have hstop := (isWordRun_keyword tail.visibility).stopsAt_isBlank
    (next ++ (qualifier ++ named) ++ rest)
  rw [trimStart_eq_iff.mpr ⟨hstop, gap, hgap.blank, by simp only [List.append_assoc]⟩, hkeyword]
  simp only [List.cons_append, List.append_assoc]

theorem TailPhrase.afterBrackets?_eq_none {behind : List Char} {tail : VariableTail}
    (htail : TailPhrase behind tail) (rest : List Char) :
    afterBrackets? (behind ++ rest) = none := by
  obtain ⟨c, more, htrim, hc⟩ := htail.exists_trimStart rest
  refine Canonical.afterBrackets?_eq_none ?_
  rw [htrim]
  simpa using ne_of_isPlain hc (by decide)

theorem isQualified_of_startsIdentifier {c : Char} (hc : startsIdentifier c = true) :
    isQualified c = true := by
  simp only [startsIdentifier, Bool.or_eq_true, beq_iff_eq] at hc
  rcases hc with (halpha | rfl) | rfl
  · have hplain : isPlain c = true := by simp [isPlain, Char.isAlphanum, halpha]
    exact isQualified_of_isPlain hplain
  · decide
  · decide

theorem Brackets.stopsAt_isQualified {brackets : List Char} (hbrackets : Brackets brackets)
    (hrest : StopsAt isQualified rest) : StopsAt isQualified (brackets ++ rest) := by
  cases hbrackets with
  | nil => exact hrest
  | cons hspace hinside hmore =>
      rw [List.append_assoc]
      exact StopsAt.append_of_isBlank isQualified_of_isBlank hspace (by
        rintro _ ⟨⟩
        decide)

theorem plainVariable?_eq_some_iff {tail : VariableTail} {type : List Char} :
    plainVariable? text = some (tail, type, rest) ↔
      ∃ behind, PlainType type ∧ TailPhrase behind tail ∧ text = type ++ (behind ++ rest) := by
  constructor
  · intro hread
    simp only [plainVariable?, Option.bind_eq_bind, Option.bind_eq_some_iff] at hread
    obtain ⟨c, hhead, hread⟩ := hread
    split at hread
    next hstarts =>
      simp only [Option.bind_eq_some_iff, Option.pure_def, Option.some.injEq,
        Prod.mk.injEq] at hread
      obtain ⟨⟨_, rest⟩, htail, rfl, rfl, rfl⟩ := hread
      obtain ⟨behind, hbehind, hafter⟩ := variableTail?_eq_some_iff.mp htail
      obtain ⟨brackets, hbrackets, hdrop⟩ := exists_brackets_append (text.dropWhile isQualified)
      have hword : (text.takeWhile isQualified).head? = some c := by
        rw [List.head?_takeWhile, hhead, Option.filter_some,
          isQualified_of_startsIdentifier hstarts]
        rfl
      have htext : text = (text.takeWhile isQualified ++ brackets) ++ (behind ++ rest) := by
        rw [List.append_assoc, ← hafter, ← hdrop, List.takeWhile_append_dropWhile]
      have hpart : readPart text (afterAllBrackets (text.dropWhile isQualified)) =
          text.takeWhile isQualified ++ brackets := by
        rw [hafter]
        exact (congrArg (readPart · (behind ++ rest)) htext).trans (readPart_append _ _)
      rw [hpart]
      refine ⟨behind, .intro ?_ ?_ (fun _ hc => List.mem_takeWhile_imp hc) hbrackets, hbehind,
        htext⟩
      · intro hnil
        rw [hnil] at hword
        contradiction
      · intro d hd
        rw [hword] at hd
        exact Option.some.inj hd ▸ hstarts
    · contradiction
  · rintro ⟨behind, ⟨hne, hstarts, hword, hbrackets⟩, htail, rfl⟩
    rename_i word brackets
    have hstop := hbrackets.stopsAt_isQualified (htail.stopsAt isQualified_of_isBlank rest)
    have hdrop := dropWhile_append_of_stopsAt hword hstop
    have hafter := afterAllBrackets_append hbrackets (htail.afterBrackets?_eq_none rest)
    have hread := htail.variableTail?_append rest
    have hpart := readPart_append (word ++ brackets) (behind ++ rest)
    obtain ⟨c, more, rfl⟩ := List.exists_cons_of_ne_nil hne
    simp only [List.append_assoc, List.cons_append] at hdrop hpart ⊢
    simp only [plainVariable?, List.head?_cons, Option.bind_eq_bind, Option.bind_some,
      if_pos (hstarts c rfl), hdrop, hafter, hread, hpart]
    rfl

/-! ## Mappings -/

/-- A piece that reaches up to its only semicolon. -/
def UpToSemicolon (piece : List Char) : Prop :=
  ∃ front, ';' ∉ front ∧ piece = front ++ [';']

namespace UpToSemicolon

variable {other : List Char}

theorem append {front : List Char} (hfront : ';' ∉ front) (hpiece : UpToSemicolon piece) :
    UpToSemicolon (front ++ piece) := by
  obtain ⟨more, hmore, rfl⟩ := hpiece
  refine ⟨front ++ more, fun hmem => ?_, (List.append_assoc _ _ _).symm⟩
  exact (List.mem_append.mp hmem).elim hfront hmore

theorem eq_of_append_eq (hpiece : UpToSemicolon piece) (hother : UpToSemicolon other)
    (heq : piece ++ rest = other ++ left) : piece = other := by
  obtain ⟨front, hfront, rfl⟩ := hpiece
  obtain ⟨first, hfirst, rfl⟩ := hother
  have hrun : ∀ run : List Char, ';' ∉ run → ∀ c ∈ run, decide (c ≠ ';') = true :=
    fun run hrun c hc => decide_eq_true fun hsame => hrun (hsame ▸ hc)
  have hstop : ∀ more : List Char, StopsAt (fun c => decide (c ≠ ';')) (';' :: more) := by
    simp [StopsAt]
  rw [List.append_assoc, List.append_assoc] at heq
  rw [(eq_of_runs_eq (hrun front hfront) (hstop rest) (hrun first hfirst) (hstop left) heq).1]

end UpToSemicolon

theorem IsWordRun.notMem {name : List Char} (hname : IsWordRun name) : ';' ∉ name :=
  fun hmem => absurd (hname.word _ hmem) (by decide)

theorem Ending.upToSemicolon {ending : List Char} {value : Option (List Char)}
    (hending : Ending ending value) : UpToSemicolon ending := by
  cases hending with
  | bare => exact ⟨[], List.not_mem_nil, rfl⟩
  | value hne hvalue => exact ⟨_, List.not_mem_cons_of_ne_of_not_mem (by decide) hvalue, rfl⟩

theorem Qualifier.notMem {qualifier : List Char} {isConstant : Bool}
    (hqualifier : Qualifier qualifier isConstant) : ';' ∉ qualifier := by
  cases hqualifier with
  | none => exact List.not_mem_nil
  | constant hgap =>
      exact fun hmem => (List.mem_append.mp hmem).elim isWordRun_constant.notMem
        (notMem_of_isBlank (by decide) hgap.blank)
  | immutable hgap =>
      exact fun hmem => (List.mem_append.mp hmem).elim isWordRun_immutable.notMem
        (notMem_of_isBlank (by decide) hgap.blank)

theorem TailPhrase.upToSemicolon {behind : List Char} {tail : VariableTail}
    (htail : TailPhrase behind tail) : UpToSemicolon behind := by
  obtain ⟨hgap, -, hnext, hqualifier, hname, hspace, hending⟩ := htail
  have hblank : ∀ {space : List Char}, (∀ c ∈ space, isBlank c = true) → ';' ∉ space :=
    notMem_of_isBlank (by decide)
  exact .append (hblank hgap.blank) <| .append (isWordRun_keyword _).notMem <|
    .append (hblank hnext.blank) <| .append hqualifier.notMem <|
      .append hname.notMem <| .append (hblank hspace) hending.upToSemicolon

theorem mappingTail?_eq_some_iff {tail : VariableTail} {behind : List Char} :
    mappingTail? text = some (tail, behind, rest) ↔ ∃ inside,
      (∀ c ∈ inside, endsStatement c = false) ∧ text = inside ++ ')' :: behind ∧
        variableTail? behind = some (tail, rest) ∧
        ∀ front more, inside = front ++ ')' :: more →
          variableTail? (more ++ ')' :: behind) = none := by
  constructor
  · intro hread
    induction text with
    | nil => contradiction
    | cons c text ih =>
        rw [mappingTail?] at hread
        split at hread
        · contradiction
        next hc =>
        have hlater : mappingTail? text = some (tail, behind, rest) →
            (c = ')' → variableTail? text = none) → ∃ inside,
              (∀ c ∈ inside, endsStatement c = false) ∧ c :: text = inside ++ ')' :: behind ∧
                variableTail? behind = some (tail, rest) ∧ ∀ front more,
                  inside = front ++ ')' :: more → variableTail? (more ++ ')' :: behind) = none := by
          intro hmore hnone
          obtain ⟨inside, hinside, rfl, htail, hfirst⟩ := ih hmore
          refine ⟨c :: inside, List.forall_mem_cons.mpr ⟨by simpa using hc, hinside⟩, rfl, htail,
            ?_⟩
          intro front more heq
          cases front with
          | nil =>
              obtain ⟨hclose, rfl⟩ := List.cons.inj heq
              exact hnone hclose
          | cons d front => exact hfirst front more (List.cons.inj heq).2
        split at hread
        next hclose =>
          split at hread
          next htail =>
            obtain ⟨rfl, hpair⟩ := Prod.mk.inj (Option.some.inj hread)
            obtain ⟨rfl, rfl⟩ := Prod.mk.inj hpair
            refine ⟨[], by simp, by rw [hclose, List.nil_append], htail, ?_⟩
            intro front more heq
            exact absurd heq.symm (by simp)
          next hnone => exact hlater hread fun _ => hnone
        next hother => exact hlater hread fun hclose => absurd hclose hother
  · rintro ⟨inside, hinside, rfl, htail, hfirst⟩
    have hclosing : endsStatement ')' = false := by decide
    induction inside with
    | nil => simp only [List.nil_append, mappingTail?, hclosing, htail, if_true, Bool.false_eq_true,
        if_false]
    | cons c inside ih =>
        obtain ⟨hc, hothers⟩ := List.forall_mem_cons.mp hinside
        have hrest := ih hothers fun front more heq =>
          hfirst (c :: front) more (by rw [heq, List.cons_append])
        rw [List.cons_append, mappingTail?, hc, if_neg Bool.false_ne_true]
        split
        next hclose =>
          subst hclose
          rw [hfirst [] inside rfl]
          exact hrest
        · exact hrest

/-- Whether a statement goes on behind an earlier parenthesis shows in the statement itself. -/
theorem variableTail?_eq_none_iff {behind more : List Char} {tail : VariableTail}
    (htail : TailPhrase behind tail) (hmore : ∀ c ∈ more, endsStatement c = false)
    (rest : List Char) :
    variableTail? (more ++ ')' :: (behind ++ rest)) = none ↔
      ∀ tail, ¬ TailPhrase (more ++ ')' :: behind) tail := by
  have hwhole : more ++ ')' :: (behind ++ rest) = more ++ ')' :: behind ++ rest := by
    rw [List.append_assoc, List.cons_append]
  have hsemicolon : UpToSemicolon (more ++ ')' :: behind) := by
    have hclosing : UpToSemicolon ([')'] ++ behind) := .append (by decide) htail.upToSemicolon
    exact .append (fun hmem => absurd (hmore _ hmem) (by decide)) hclosing
  rw [hwhole]
  constructor
  · intro hnone other hother
    rw [hother.variableTail?_append rest] at hnone
    contradiction
  · intro hnone
    cases hread : variableTail? (more ++ ')' :: behind ++ rest) with
    | none => rfl
    | some read =>
        obtain ⟨piece, hpiece, heq⟩ := variableTail?_eq_some_iff.mp hread
        rw [← hsemicolon.eq_of_append_eq hpiece.upToSemicolon heq] at hpiece
        exact absurd hpiece (hnone _)

theorem mappingVariable?_eq_some_iff {tail : VariableTail} {type : List Char} :
    mappingVariable? text = some (tail, type, rest) ↔
      ∃ behind, MappingType behind type ∧ TailPhrase behind tail ∧
        text = type ++ (behind ++ rest) := by
  simp only [mappingVariable?, Option.bind_eq_bind, Option.bind_eq_some_iff, Option.pure_def,
    Option.some.injEq, Prod.mk.injEq, mark?_eq_some_iff, after?_eq_some_iff]
  constructor
  · rintro ⟨_, rfl, inside, hopen, ⟨_, left, _⟩, hread, rfl, rfl, rfl⟩
    obtain ⟨-, space, hspace, rfl⟩ := trimStart_eq_iff.mp hopen
    obtain ⟨inside, hinside, rfl, htail, hfirst⟩ := mappingTail?_eq_some_iff.mp hread
    obtain ⟨behind, hbehind, rfl⟩ := variableTail?_eq_some_iff.mp htail
    rename_i rest
    have htext : "mapping".toList ++ (space ++ '(' :: (inside ++ ')' :: (behind ++ rest))) =
        ("mapping".toList ++ (space ++ '(' :: (inside ++ [')']))) ++ (behind ++ rest) := by simp
    refine ⟨behind, ?_, hbehind, ?_⟩
    · rw [htext, readPart_append]
      refine .intro hspace hinside fun front more heq => ?_
      have hmore : ∀ c ∈ more, endsStatement c = false := fun c hc =>
        hinside c (heq ▸ List.mem_append_right _ (List.mem_cons_of_mem _ hc))
      exact (variableTail?_eq_none_iff hbehind hmore rest).mp (hfirst front more heq)
    · rw [htext, readPart_append]
  · rintro ⟨behind, ⟨hspace, hinside, hfirst⟩, htail, rfl⟩
    rename_i space inside
    have htext : ("mapping".toList ++ (space ++ '(' :: (inside ++ [')']))) ++ (behind ++ rest) =
        "mapping".toList ++ (space ++ '(' :: (inside ++ ')' :: (behind ++ rest))) := by simp
    have hread : mappingTail? (inside ++ ')' :: (behind ++ rest)) =
        some (tail, behind ++ rest, rest) := by
      refine mappingTail?_eq_some_iff.mpr
        ⟨inside, hinside, rfl, htail.variableTail?_append rest, fun front more heq => ?_⟩
      have hmore : ∀ c ∈ more, endsStatement c = false := fun c hc =>
        hinside c (heq ▸ List.mem_append_right _ (List.mem_cons_of_mem _ hc))
      exact (variableTail?_eq_none_iff htail hmore rest).mpr (hfirst front more heq)
    have hopen : trimStart (space ++ '(' :: (inside ++ ')' :: (behind ++ rest))) =
        '(' :: (inside ++ ')' :: (behind ++ rest)) :=
      trimStart_eq_iff.mpr ⟨stopsAt_isBlank_cons (by decide) _, space, hspace, rfl⟩
    exact ⟨_, htext, _, hopen, _, hread, rfl, readPart_append _ _, rfl⟩

/-! ## The two orders -/

variable {before : Option Char} {parts : VariableParts}

theorem any_eq_false_iff {test : Char → Bool} :
    before.any test = false ↔ ∀ c ∈ before, test c = false := by
  cases before <;> simp

/-- A type that starts with the word `mapping` is a mapping or a plain type, never both. -/
theorem mappingVariable?_eq_none_of_plainType {type behind : List Char} {tail : VariableTail}
    (htype : PlainType type) (htail : TailPhrase behind tail) (rest : List Char) :
    mappingVariable? (type ++ (behind ++ rest)) = none := by
  cases hread : mappingVariable? (type ++ (behind ++ rest)) with
  | none => rfl
  | some read =>
      obtain ⟨_, mapping, left⟩ := read
      obtain ⟨other, ⟨hspace, -, -⟩, -, htext⟩ := mappingVariable?_eq_some_iff.mp hread
      obtain ⟨-, -, hword, hbrackets⟩ := htype
      rename_i space inside word brackets
      rw [List.append_assoc, List.append_assoc, List.append_assoc] at htext
      have hmapping : IsRun "mapping".toList := isRun_of_mem_reservedWords (by decide)
      have hopen : StopsAt isBlank ('(' :: (inside ++ [')']) ++ (other ++ left)) :=
        stopsAt_isBlank_cons (by decide) _
      obtain ⟨-, hbehind⟩ := eq_of_runs_eq hword
        (hbrackets.stopsAt_isQualified (htail.stopsAt isQualified_of_isBlank rest))
        (fun _ hc => hmapping.isQualified hc)
        (StopsAt.append_of_isBlank isQualified_of_isBlank hspace (by
          rintro _ ⟨⟩
          decide)) htext
      -- Behind the word comes a parenthesis on the one side only.
      have hparen : trimStart (brackets ++ (behind ++ rest)) =
          '(' :: (inside ++ [')']) ++ (other ++ left) :=
        trimStart_eq_iff.mpr ⟨hopen, space, hspace, hbehind⟩
      cases hbrackets with
      | nil =>
          obtain ⟨c, more, htrim, hc⟩ := htail.exists_trimStart rest
          rw [List.nil_append, htrim] at hparen
          exact absurd (List.cons.inj hparen).1 (ne_of_isPlain hc (by decide))
      | cons hblank hinside hmore =>
          rename_i gap content more
          have hbracket : trimStart (gap ++ '[' :: (content ++ ']' :: more) ++ (behind ++ rest)) =
              '[' :: (content ++ ']' :: more) ++ (behind ++ rest) :=
            trimStart_eq_iff.mpr
              ⟨stopsAt_isBlank_cons (by decide) _, gap, hblank, List.append_assoc _ _ _⟩
          rw [hbracket] at hparen
          exact absurd (List.cons.inj hparen).1 (by decide)

theorem typeFirstShape_eq_some_iff :
    typeFirstShape before text = some (parts, rest) ↔
      (∀ c ∈ before, isQualified c = false) ∧
        ∃ piece, TypeFirst piece parts ∧ text = piece ++ rest := by
  rw [← any_eq_false_iff, typeFirstShape]
  cases before.any isQualified with
  | true => simp
  | false =>
      simp only [Bool.false_eq_true, if_false, Option.bind_eq_bind, Option.bind_eq_some_iff,
        Option.orElse_eq_some, Option.pure_def, Option.some.injEq, Prod.mk.injEq, true_and]
      constructor
      · rintro ⟨⟨tail, type, rest⟩, hread, rfl, rfl⟩
        rcases hread with hmapping | ⟨-, hplain⟩
        · obtain ⟨behind, htype, htail, rfl⟩ := mappingVariable?_eq_some_iff.mp hmapping
          exact ⟨_, .intro (.inl htype) htail, (List.append_assoc _ _ _).symm⟩
        · obtain ⟨behind, htype, htail, rfl⟩ := plainVariable?_eq_some_iff.mp hplain
          exact ⟨_, .intro (.inr htype) htail, (List.append_assoc _ _ _).symm⟩
      · rintro ⟨_, ⟨htype, htail⟩, rfl⟩
        rename_i type behind tail
        rw [List.append_assoc]
        refine ⟨(tail, type, rest), ?_, rfl, rfl⟩
        rcases htype with hmapping | hplain
        · exact .inl (mappingVariable?_eq_some_iff.mpr ⟨behind, hmapping, htail, rfl⟩)
        · exact .inr ⟨mappingVariable?_eq_none_of_plainType hplain htail rest,
            plainVariable?_eq_some_iff.mpr ⟨behind, hplain, htail, rfl⟩⟩

theorem typedValue?_eq_some_iff {type name : List Char} {value : Option (List Char)} :
    typedValue? text = some ((type, name, value), rest) ↔
      ∃ typed, TypedPhrase typed type name value ∧ text = typed ++ rest := by
  constructor
  · intro hread
    simp only [typedValue?, Option.bind_eq_bind, Option.bind_eq_some_iff, Option.pure_def,
      Option.some.injEq, Prod.mk.injEq] at hread
    obtain ⟨⟨_, afterType⟩, htype, unspaced, hblanks, ⟨_, afterName⟩, hname, ⟨_, left⟩,
      hvalue, ⟨rfl, rfl, rfl⟩, rfl⟩ := hread
    obtain ⟨htypeNe, htypeWord, -, rfl⟩ := name?_eq_some_iff.mp htype
    obtain ⟨gap, hgap, -, rfl⟩ := exists_gap_of_blanks? hblanks
    obtain ⟨hnameNe, hnameWord, -, rfl⟩ := name?_eq_some_iff.mp hname
    obtain ⟨ending, hending, hbehind⟩ := initialValue?_eq_some_iff.mp hvalue
    split at hbehind
    next hequals =>
      obtain ⟨-, space, hspace, rfl⟩ := trimStart_eq_iff.mp hbehind
      refine ⟨_, .intro ⟨htypeNe, htypeWord⟩ hgap ⟨hnameNe, hnameWord⟩ hspace hending ?_,
        by simp only [List.append_assoc]⟩
      rintro rfl
      rw [hbehind] at hequals
      cases hending
      exact absurd (Option.some.inj hequals) (by decide)
    next =>
      simp only at hbehind
      have hnil : ∀ c ∈ ([] : List Char), isBlank c = true := by simp
      exact ⟨_, .intro ⟨htypeNe, htypeWord⟩ hgap ⟨hnameNe, hnameWord⟩ hnil hending fun _ => rfl,
        by simp only [List.append_assoc, List.nil_append, hbehind]⟩
  · rintro ⟨_, ⟨htype, hgap, hname, hspace, hending, hclose⟩, rfl⟩
    rename_i gap space ending
    have hnamed := hname.stopsAt_isBlank (space ++ (ending ++ rest))
    have hvalue : initialValue? (ending ++ rest) = some (value, rest) :=
      initialValue?_eq_some_iff.mpr ⟨ending, hending, rfl⟩
    have hends : (if (trimStart (space ++ (ending ++ rest))).head? = some '=' then
        trimStart (space ++ (ending ++ rest)) else space ++ (ending ++ rest)) = ending ++ rest := by
      have htrim : trimStart (space ++ (ending ++ rest)) = ending ++ rest :=
        trimStart_eq_iff.mpr ⟨hending.stopsAt_isBlank rest, space, hspace, rfl⟩
      rw [htrim]
      split
      next => rfl
      next hequals =>
        cases hending with
        | bare => rw [hclose rfl, List.nil_append]
        | value => exact absurd rfl hequals
    simp only [List.append_assoc, typedValue?, Option.bind_eq_bind, Option.bind_some,
      name?_append_of_stopsAt htype.ne_nil htype.word (hgap.stopsAt isWord_of_isBlank _),
      hgap.blanks?_append hnamed, hends, hvalue,
      name?_append_of_stopsAt hname.ne_nil hname.word (hending.stopsAt_isWord hspace rest)]
    rfl

theorem stopsAt_isBlank_of_typedPhrase {type name : List Char} {value : Option (List Char)}
    (htyped : TypedPhrase piece type name value) (rest : List Char) :
    StopsAt isBlank (piece ++ rest) := by
  obtain ⟨htype, -, -, -, -, -⟩ := htyped
  rw [List.append_assoc]
  exact htype.stopsAt_isBlank _

/-- A type that could be a qualifier is none if the statement ends behind the name. -/
theorem bind_typedValue?_eq_none {β : Type} {word : String} {type name : List Char}
    {value : Option (List Char)} (hword : IsWordRun word.toList)
    (htyped : TypedPhrase piece type name value) (rest : List Char)
    (f : (List Char × List Char × Option (List Char)) × List Char → Option β) :
    ((qualifier? word (piece ++ rest)).bind fun behind => (typedValue? behind).bind f) = none := by
  cases hread : qualifier? word (piece ++ rest) with
  | none => rfl
  | some left =>
      obtain ⟨htype, hgap, hname, hspace, hending, -⟩ := htyped
      rename_i gap space ending
      obtain ⟨other, hother, hleft, htext⟩ := exists_of_qualifier? hread
      simp only [List.append_assoc] at htext
      obtain ⟨-, hbehind⟩ := eq_of_runs_eq htype.word (hgap.stopsAt isWord_of_isBlank _)
        hword.word (hother.stopsAt isWord_of_isBlank left) htext
      obtain ⟨-, rfl⟩ :=
        eq_of_runs_eq hgap.blank (hname.stopsAt_isBlank _) hother.blank hleft hbehind
      -- Behind the name come blanks and the end, and no second name.
      have hafter := name?_append_of_stopsAt hname.ne_nil hname.word
        (hending.stopsAt_isWord hspace rest)
      have hnone : (blanks? (space ++ (ending ++ rest))).bind name? = none := by
        cases hblanks : blanks? (space ++ (ending ++ rest)) with
        | none => rfl
        | some last =>
            obtain ⟨run, hrun, hlast, heq⟩ := exists_gap_of_blanks? hblanks
            obtain ⟨-, rfl⟩ :=
              eq_of_runs_eq hspace (hending.stopsAt_isBlank rest) hrun.blank hlast heq
            exact name?_eq_none (hending.stopsAt (by decide) rest)
      simp only [typedValue?, hafter, Option.bind_eq_bind, Option.bind_some]
      rw [← Option.bind_assoc (blanks? _) name?, hnone]
      rfl

theorem visibilityFirstShape_eq_some_iff :
    visibilityFirstShape before text = some (parts, rest) ↔
      (∀ c ∈ before, isWord c = false) ∧
        ∃ piece, VisibilityFirst piece parts ∧ text = piece ++ rest := by
  rw [← any_eq_false_iff, visibilityFirstShape]
  cases before.any isWord with
  | true => simp
  | false =>
      simp only [Bool.false_eq_true, if_false, true_and]
      constructor
      · intro hread
        simp only [Option.bind_eq_bind, Option.bind_eq_some_iff, Option.orElse_eq_some,
          Option.pure_def, Option.some.injEq, Prod.mk.injEq] at hread
        obtain ⟨⟨visibility, behind⟩, hvisibility, after, hafter, hfinish⟩ := hread
        obtain ⟨hstored, rfl⟩ := exists_of_storageVisibility?_eq hvisibility
        obtain ⟨gap, hgap, -, rfl⟩ := exists_gap_of_blanks? hafter
        rcases hfinish with ⟨more, hqualifier, ⟨⟨type, name, value⟩, _⟩, hread, rfl, rfl⟩ |
          ⟨-, ⟨⟨type, name, value⟩, _⟩, hread, rfl, rfl⟩
        · obtain ⟨last, hlast, -, rfl⟩ := exists_of_qualifier? hqualifier
          obtain ⟨typed, htyped, rfl⟩ := typedValue?_eq_some_iff.mp hread
          exact ⟨_, .intro hstored hgap (.constant hlast) (fun hfalse => Bool.noConfusion hfalse)
            htyped,
            by simp only [List.append_assoc]⟩
        · obtain ⟨typed, htyped, rfl⟩ := typedValue?_eq_some_iff.mp hread
          exact ⟨_, .intro hstored hgap .none (fun _ => rfl) htyped,
            by simp only [List.append_assoc, List.nil_append]⟩
      · rintro ⟨_, ⟨hstored, hgap, hqualifier, hconstant, htyped⟩, rfl⟩
        rename_i gap qualifier typed
        obtain ⟨type, visibility, isConstant, name, value⟩ := parts
        have hstop := stopsAt_isBlank_of_typedPhrase htyped rest
        have hread : typedValue? (typed ++ rest) = some ((type, name, value), rest) :=
          typedValue?_eq_some_iff.mpr ⟨typed, htyped, rfl⟩
        simp only [List.append_assoc, storageVisibility?_keyword hstored, Option.bind_eq_bind,
          Option.bind_some]
        cases hqualifier with
        | none =>
            simp only [List.nil_append, hgap.blanks?_append hstop, Option.bind_some,
              bind_typedValue?_eq_none isWordRun_constant htyped, hread]
            rfl
        | constant hlast =>
            have hfirst := isWordRun_constant.stopsAt_isBlank
            simp only [List.append_assoc, hgap.blanks?_append (hfirst _), Option.bind_some,
              qualifier?_append hlast hstop, hread]
            rfl
        | immutable hlast => exact absurd (hconstant rfl) (by simp)

/-! ## A statement in both orders -/

theorem TypeFirst.unique {other : VariableParts} (hparts : TypeFirst piece parts)
    (hother : TypeFirst piece other) : parts = other := by
  have hread : ∀ {parts}, TypeFirst piece parts → typeFirstShape none piece = some (parts, []) :=
    fun hparts => typeFirstShape_eq_some_iff.mpr
      ⟨by simp, piece, hparts, (List.append_nil piece).symm⟩
  exact (Prod.mk.inj (Option.some.inj ((hread hparts).symm.trans (hread hother)))).1

theorem VisibilityFirst.unique {other : VariableParts} (hparts : VisibilityFirst piece parts)
    (hother : VisibilityFirst piece other) : parts = other := by
  have hread : ∀ {parts}, VisibilityFirst piece parts →
      visibilityFirstShape none piece = some (parts, []) :=
    fun hparts => visibilityFirstShape_eq_some_iff.mpr
      ⟨by simp, piece, hparts, (List.append_nil piece).symm⟩
  exact (Prod.mk.inj (Option.some.inj ((hread hparts).symm.trans (hread hother)))).1

theorem Qualifier.eq_nil_of_append_eq {qualifier typed behind next : List Char} {isConstant : Bool}
    {visibility : Visibility} (hqualifier : Qualifier qualifier isConstant) (hnext : IsGap next)
    (heq : visibility.keyword.toList ++ (next ++ behind) = qualifier ++ typed) :
    qualifier = [] := by
  have hkeyword := (isWordRun_keyword visibility).word
  have hne : ∀ word : List Char, word = "constant".toList ∨ word = "immutable".toList →
      visibility.keyword.toList ≠ word := by
    rintro word (rfl | rfl) <;> cases visibility <;> decide
  cases hqualifier with
  | none => rfl
  | constant hgap =>
      rw [List.append_assoc] at heq
      have hsame := eq_of_runs_eq hkeyword (hnext.stopsAt isWord_of_isBlank _)
        isWordRun_constant.word (hgap.stopsAt isWord_of_isBlank _) heq
      exact absurd hsame.1 (hne _ (.inl rfl))
  | immutable hgap =>
      rw [List.append_assoc] at heq
      have hsame := eq_of_runs_eq hkeyword (hnext.stopsAt isWord_of_isBlank _)
        isWordRun_immutable.word (hgap.stopsAt isWord_of_isBlank _) heq
      exact absurd hsame.1 (hne _ (.inr rfl))

theorem Qualifier.exists_run_append {qualifier typed type name : List Char} {isConstant : Bool}
    {value : Option (List Char)} (hqualifier : Qualifier qualifier isConstant)
    (htyped : TypedPhrase typed type name value) :
    ∃ run more, IsWordRun run ∧ qualifier ++ typed = run ++ more := by
  cases hqualifier with
  | none =>
      obtain ⟨htype, -, -, -, -, -⟩ := htyped
      exact ⟨_, _, htype, List.nil_append _⟩
  | constant hgap => exact ⟨_, _, isWordRun_constant, List.append_assoc _ _ _⟩
  | immutable hgap => exact ⟨_, _, isWordRun_immutable, List.append_assoc _ _ _⟩

/-- A piece that is a statement in both orders has a visibility for its type in both. -/
theorem type_of_both_orders {other : VariableParts} (hparts : TypeFirst piece parts)
    (hother : VisibilityFirst piece other) :
    (∃ visibility : Visibility, visibility ≠ .externally ∧
        parts.type = visibility.keyword.toList) ∧
      ∃ visibility : Visibility, visibility ≠ .externally ∧
        other.type = visibility.keyword.toList := by
  generalize hpiece : piece = whole at hother
  obtain ⟨hstored, hgap, hqualifier, -, htyped⟩ := hother
  rename_i gap qualifier typed
  obtain ⟨htype, htail⟩ := hparts
  rename_i type behind tail
  have hkeyword := isWordRun_keyword other.visibility
  have hvisibility : ∀ c ∈ other.visibility.keyword.toList, isQualified c = true :=
    fun _ => (isName_keyword other.visibility).toIsRun.isQualified
  have hstop : StopsAt isQualified (gap ++ (qualifier ++ typed)) :=
    hgap.stopsAt isQualified_of_isBlank _
  rcases htype with hmapping | hplain
  · obtain ⟨hspace, -, -⟩ := hmapping
    have hrun : IsRun "mapping".toList := isRun_of_mem_reservedWords (by decide)
    rw [List.append_assoc, List.append_assoc] at hpiece
    obtain ⟨hsame, -⟩ := eq_of_runs_eq (fun _ hc => hrun.isQualified hc)
      (StopsAt.append_of_isBlank isQualified_of_isBlank hspace (by
        rintro _ ⟨⟩
        decide)) hvisibility hstop hpiece
    have hne : "mapping".toList ≠ other.visibility.keyword.toList := by
      cases other.visibility <;> decide
    exact absurd hsame hne
  · obtain ⟨-, -, hword, hbrackets⟩ := hplain
    rename_i word brackets
    rw [List.append_assoc, ← List.append_nil behind] at hpiece
    obtain ⟨rfl, hbehind⟩ := eq_of_runs_eq hword
      (hbrackets.stopsAt_isQualified (htail.stopsAt isQualified_of_isBlank [])) hvisibility hstop
      hpiece
    obtain ⟨run, more, hrun, hstart⟩ := hqualifier.exists_run_append htyped
    have hnotBlank : StopsAt isBlank (qualifier ++ typed) := hstart ▸ hrun.stopsAt_isBlank more
    cases hbrackets with
    | nil =>
        obtain ⟨hgap', hstored', hnext, -, -⟩ := htail
        rw [List.append_nil, List.nil_append] at hbehind
        obtain ⟨-, hafter⟩ := eq_of_runs_eq hgap'.blank
          ((isWordRun_keyword tail.visibility).stopsAt_isBlank _) hgap.blank hnotBlank hbehind
        rw [hqualifier.eq_nil_of_append_eq hnext hafter, List.nil_append] at hafter
        obtain ⟨htype, hlast, -, -, -, -⟩ := htyped
        obtain ⟨hsame, -⟩ := eq_of_runs_eq (isWordRun_keyword tail.visibility).word
          (hnext.stopsAt isWord_of_isBlank _) htype.word (hlast.stopsAt isWord_of_isBlank _) hafter
        have hdense : IsDense other.visibility.keyword.toList :=
          (isName_keyword other.visibility).toIsRun.isDense
        exact ⟨⟨_, hstored, by rw [List.append_nil]; exact hdense.collapse_eq⟩,
          tail.visibility, hstored', hsame.symm⟩
    | cons hspace hinside hmore =>
        rename_i space inside brackets
        rw [List.append_assoc] at hbehind
        obtain ⟨-, hafter⟩ := eq_of_runs_eq hspace (stopsAt_isBlank_cons (by decide) _) hgap.blank
          hnotBlank hbehind
        obtain ⟨c, left, rfl⟩ := List.exists_cons_of_ne_nil hrun.ne_nil
        have hc := hrun.word c List.mem_cons_self
        rw [hstart, List.cons_append] at hafter
        rw [← (List.cons.inj hafter).1] at hc
        exact absurd hc (by decide)

end ContractAtlas.Source
