import ContractAtlas.Proofs.Canonical.Words
import ContractAtlas.Proofs.Source.Parts
import ContractAtlas.Source.FunctionHeader
import ContractAtlas.Source.Heading

/-!
# Reading canonical lists

A list is split at its commas and an item at its blanks.  As no item holds a comma, and
the space behind a comma is not part of a word, the words of the items are what was
written.
-/

namespace ContractAtlas.Canonical

open ContractAtlas.Source ContractAtlas.Text

/-! ## Commas -/

theorem map_splitOn_space {β : Type} {f : List Char → β} (hspace : ∀ item, f (' ' :: item) = f item)
    (text : List Char) : ((' ' :: text).splitOn ',').map f = (text.splitOn ',').map f := by
  have hsplit : (' ' :: text).splitOn ',' = (text.splitOn ',').modifyHead (' ' :: ·) := by
    rw [List.splitOn_eq_splitOnP, List.splitOnP_cons_eq_if_modifyHead, if_neg (by decide),
      ← List.splitOn_eq_splitOnP]
  rw [hsplit]
  cases text.splitOn ',' with
  | nil => rfl
  | cons item rest => simp [hspace]

/-- A reading of items that is blind to spaces in front of them, and to some text behind
them, reads the items of a list. -/
theorem map_splitOn_commaSeparated {β : Type} (f : List Char → β) (tail : List Char)
    (hspace : ∀ item, f (' ' :: item) = f item) (htail : ∀ item, f (item ++ tail) = f item)
    (hcomma : ',' ∉ tail) : ∀ {items : List (List Char)}, items ≠ [] →
      (∀ item ∈ items, ',' ∉ item) →
        ((commaSeparated items ++ tail).splitOn ',').map f = items.map f
  | [], hne, _ => absurd rfl hne
  | [item], _, hitems => by
      have hwhole : ∀ c ∈ item ++ tail, (c == ',') = false := by
        intro c hc
        rcases List.mem_append.mp hc with hc | hc
        · exact beq_eq_false_iff_ne.mpr fun heq => hitems item List.mem_cons_self (heq ▸ hc)
        · exact beq_eq_false_iff_ne.mpr fun heq => hcomma (heq ▸ hc)
      rw [commaSeparated, List.splitOn_eq_splitOnP, List.splitOnP_eq_singleton hwhole,
        List.map_singleton, List.map_singleton, htail]
  | item :: next :: others, _, hitems => by
      obtain ⟨hitem, hothers⟩ := List.forall_mem_cons.mp hitems
      have hfree : ∀ c ∈ item, (c == ',') = false := fun c hc =>
        beq_eq_false_iff_ne.mpr fun heq => hitem (heq ▸ hc)
      rw [commaSeparated, List.append_assoc, List.cons_append, List.cons_append,
        List.splitOn_eq_splitOnP, List.splitOnP_append_cons_of_forall_mem hfree _ (by decide),
        ← List.splitOn_eq_splitOnP, List.map_cons, map_splitOn_space hspace,
        map_splitOn_commaSeparated f tail hspace htail hcomma (List.cons_ne_nil next others)
          hothers]
      rfl

theorem mem_commaSeparated {c : Char} : ∀ {items : List (List Char)}, c ∈ commaSeparated items →
    c = ',' ∨ c = ' ' ∨ ∃ item ∈ items, c ∈ item
  | [], hc => absurd hc List.not_mem_nil
  | [item], hc => .inr (.inr ⟨item, List.mem_cons_self, hc⟩)
  | item :: next :: others, hc => by
      rcases List.mem_append.mp hc with hc | hc
      · exact .inr (.inr ⟨item, List.mem_cons_self, hc⟩)
      rcases List.mem_cons.mp hc with rfl | hc
      · exact .inl rfl
      rcases List.mem_cons.mp hc with rfl | hc
      · exact .inr (.inl rfl)
      rcases mem_commaSeparated hc with hc | hc | ⟨other, hother, hc⟩
      · exact .inl hc
      · exact .inr (.inl hc)
      · exact .inr (.inr ⟨other, List.mem_cons_of_mem item hother, hc⟩)

/-! ## Words -/

/-- A non-empty run without blanks. -/
structure IsDense (word : List Char) : Prop where
  ne_nil : word ≠ []
  dense : ∀ c ∈ word, isBlank c = false

theorem IsRun.isDense {word : List Char} (hword : IsRun word) : IsDense word :=
  ⟨hword.ne_nil, fun c hc => isBlank_of_isPlain (hword.plain c hc)⟩

theorem TypeName.isDense (type : TypeName) : IsDense type.chars := by
  have hbase := type.base.isRun.isDense
  refine ⟨List.append_ne_nil_of_left_ne_nil hbase.ne_nil _, fun c hc => ?_⟩
  rcases List.mem_append.mp hc with hc | hc
  · exact hbase.dense c hc
  · split at hc
    · have hbrackets : ∀ c ∈ ['[', ']'], isBlank c = false := forall_mem_of_all (by decide)
      exact hbrackets c hc
    · contradiction

theorem words_space (text : List Char) : words (' ' :: text) = words text :=
  words_cons_of_isBlank (by decide) text

theorem IsDense.words_append_space {word : List Char} (hword : IsDense word) (rest : List Char) :
    words (word ++ ' ' :: rest) = word :: words rest := by
  rw [words, List.splitOnP_append_cons_of_forall_mem hword.dense _ (by decide),
    List.filter_cons_of_pos (by simpa using hword.ne_nil)]
  rfl

theorem IsDense.words_eq {word : List Char} (hword : IsDense word) : words word = [word] := by
  rw [words, List.splitOnP_eq_singleton hword.dense,
    List.filter_cons_of_pos (by simpa using hword.ne_nil), List.filter_nil]

theorem elements_commaSeparated {items : List (List Char)} (hcomma : ∀ item ∈ items, ',' ∉ item)
    (hwords : ∀ item ∈ items, words item ≠ []) :
    elements (commaSeparated items) = items.map fun item => (words item).map String.ofList := by
  by_cases hempty : items = []
  · subst hempty
    rfl
  · have hsplit := map_splitOn_commaSeparated (fun item => (words item).map String.ofList) []
      (fun item => by rw [words_space]) (fun item => by rw [List.append_nil]) List.not_mem_nil
      hempty hcomma
    rw [List.append_nil] at hsplit
    rw [elements, hsplit, List.filter_eq_self]
    intro element helement
    obtain ⟨item, hitem, rfl⟩ := List.mem_map.mp helement
    simpa using hwords item hitem

/-! ## Parameters -/

/-- The characters of the items of a list. -/
def IsItem (item : List Char) : Prop :=
  ∀ c ∈ item, isPlain c = true ∨ c ∈ [' ', '[', ']']

theorem IsRun.isItem {word : List Char} (hword : IsRun word) : IsItem word :=
  fun c hc => .inl (hword.plain c hc)

theorem IsItem.append {left right : List Char} (hleft : IsItem left) (hright : IsItem right) :
    IsItem (left ++ right) := fun c hc =>
  (List.mem_append.mp hc).elim (hleft c) (hright c)

theorem IsItem.space {item : List Char} (hitem : IsItem item) : IsItem (' ' :: item) :=
  List.forall_mem_cons.mpr ⟨.inr (by decide), hitem⟩

theorem IsItem.notMem {item : List Char} (hitem : IsItem item) {c : Char}
    (hc : c ∈ [',', '(', ')', ';', '{', '}']) : c ∉ item := by
  have hall : ∀ c ∈ [',', '(', ')', ';', '{', '}'], isPlain c = false ∧ c ∉ [' ', '[', ']'] :=
    forall_mem_of_all (by decide)
  intro hmem
  obtain ⟨hplain, hother⟩ := hall c hc
  rcases hitem c hmem with hchar | hchar
  · exact Bool.false_ne_true (hplain.symm.trans hchar)
  · exact hother hchar

theorem TypeName.isItem (type : TypeName) : IsItem type.chars := by
  refine type.base.isRun.isItem.append fun c hc => .inr ?_
  split at hc
  · exact List.mem_cons_of_mem _ hc
  · contradiction

theorem Input.isItem (input : Input) : IsItem input.chars :=
  input.type.isItem.append input.name.isRun.isItem.space

theorem EventInput.isItem (input : EventInput) : IsItem input.chars := by
  refine input.type.isItem.append (IsItem.space (IsItem.append ?_ input.name.isRun.isItem))
  split
  · exact (isRun_of_mem_reservedWords (by decide)).isItem.append (IsItem.space (by simp [IsItem]))
  · simp [IsItem]

theorem Result.isItem (result : Result) : IsItem result.chars := by
  refine result.type.isItem.append ?_
  split
  next name _ => exact name.isRun.isItem.space
  next => simp [IsItem]

/-- A list of items holds no parenthesis, and nothing that ends a statement. -/
theorem notMem_commaSeparated {items : List (List Char)} (hitems : ∀ item ∈ items, IsItem item)
    {c : Char} (hc : c ∈ ['(', ')', ';', '{', '}']) : c ∉ commaSeparated items := by
  have hall : ∀ c ∈ ['(', ')', ';', '{', '}'], c ≠ ',' ∧ c ≠ ' ' :=
    forall_mem_of_all (by decide)
  intro hmem
  rcases mem_commaSeparated hmem with heq | heq | ⟨item, hitem, hmem⟩
  · exact (hall c hc).1 heq
  · exact (hall c hc).2 heq
  · exact (hitems item hitem).notMem (List.mem_cons_of_mem _ hc) hmem

theorem isItem_of_mem_map {γ : Type} {chars : γ → List Char}
    (hchars : ∀ value, IsItem (chars value)) (values : List γ) :
    ∀ item ∈ values.map chars, IsItem item := by
  intro item hitem
  obtain ⟨value, -, rfl⟩ := List.mem_map.mp hitem
  exact hchars value

theorem Identifier.isItem (identifier : Identifier) : IsItem identifier.chars :=
  identifier.isRun.isItem

/-- A list in parentheses is read as a whole. -/
theorem enclosed?_commaSeparated {items : List (List Char)} (hitems : ∀ item ∈ items, IsItem item)
    (rest : List Char) :
    enclosed? (trimStart ('(' :: (commaSeparated items ++ ')' :: rest))) =
      some (commaSeparated items, rest) := by
  rw [trimStart_of_stopsAt (stopsAt_isBlank_cons (by decide) _),
    enclosed?_append_of_notMem (notMem_commaSeparated hitems (by decide))]

theorem elements_map {γ : Type} {chars : γ → List Char} (hitem : ∀ value, IsItem (chars value))
    (hwords : ∀ value, words (chars value) ≠ []) (values : List γ) :
    elements (commaSeparated (values.map chars)) =
      values.map fun value => (words (chars value)).map String.ofList := by
  rw [elements_commaSeparated, List.map_map]
  · rfl
  · intro item hmem
    obtain ⟨value, -, rfl⟩ := List.mem_map.mp hmem
    exact (hitem value).notMem (by decide)
  · intro item hmem
    obtain ⟨value, -, rfl⟩ := List.mem_map.mp hmem
    exact hwords value

theorem notMem_dataLocations (name : Identifier) : name.name ∉ dataLocations := by
  have hall : ∀ word ∈ dataLocations, word ∈ reservedWords := by decide
  exact fun hmem => name.free (hall _ hmem)

theorem Input.words_chars (input : Input) :
    words input.chars = [input.type.chars, input.name.chars] := by
  rw [chars, input.type.isDense.words_append_space, input.name.isRun.isDense.words_eq]

theorem parameters_inputs (inputs : List Input) :
    parameters (commaSeparated (inputs.map (·.chars))) = inputs.map (·.declared) := by
  have hwords : ∀ input : Input, words input.chars ≠ [] := by simp [Input.words_chars]
  rw [parameters, elements_map Input.isItem hwords, List.map_map]
  apply List.map_congr_left
  intro input _
  simp [input.words_chars, parameterOfWords, lastOfSeveral, Input.declared, Identifier.chars,
    notMem_dataLocations]

theorem Result.words_chars (result : Result) :
    words result.chars = result.type.chars :: (result.name.map (·.chars)).toList := by
  obtain ⟨type, name⟩ := result
  cases name with
  | none => rw [chars, List.append_nil, type.isDense.words_eq]; rfl
  | some name =>
      rw [chars, type.isDense.words_append_space, name.isRun.isDense.words_eq]
      rfl

theorem parameters_results (results : List Result) :
    parameters (commaSeparated (results.map (·.chars))) = results.map (·.declared) := by
  have hwords : ∀ result : Result, words result.chars ≠ [] := by simp [Result.words_chars]
  rw [parameters, elements_map Result.isItem hwords, List.map_map]
  apply List.map_congr_left
  intro result _
  cases hname : result.name with
  | none =>
      simp [result.words_chars, parameterOfWords, lastOfSeveral, Result.declared, hname,
        dataLocations]
  | some name =>
      simp [result.words_chars, parameterOfWords, lastOfSeveral, Result.declared, hname,
        Identifier.chars, notMem_dataLocations]

theorem EventInput.words_chars (input : EventInput) :
    words input.chars = input.type.chars ::
      ((if input.isIndexed then ["indexed".toList] else []) ++ [input.name.chars]) := by
  obtain ⟨type, isIndexed, name⟩ := input
  have hindexed : IsDense "indexed".toList := (isRun_of_mem_reservedWords (by decide)).isDense
  cases isIndexed with
  | false =>
      rw [chars, type.isDense.words_append_space]
      exact congrArg _ name.isRun.isDense.words_eq
  | true =>
      rw [chars, if_pos rfl, type.isDense.words_append_space, List.append_assoc,
        List.singleton_append, hindexed.words_append_space, name.isRun.isDense.words_eq]
      rfl

theorem TypeName.ne_indexed (type : TypeName) : String.ofList type.chars ≠ "indexed" := by
  intro heq
  have hchars : type.chars = "indexed".toList := by rw [← heq, String.toList_ofList]
  obtain ⟨base, isArray⟩ := type
  cases isArray with
  | false =>
      rw [chars, if_neg Bool.false_ne_true, List.append_nil, Identifier.chars,
        String.toList_inj] at hchars
      have hfree := base.free
      rw [hchars] at hfree
      exact hfree (by decide)
  | true =>
      have hbracket : '[' ∈ "indexed".toList := by
        rw [← hchars]
        exact List.mem_append_right _ List.mem_cons_self
      exact absurd hbracket (by decide)

theorem eventParameters_inputs (inputs : List EventInput) :
    eventParameters (commaSeparated (inputs.map (·.chars))) = inputs.map (·.declared) := by
  have hwords : ∀ input : EventInput, words input.chars ≠ [] := by
    intro input
    rw [input.words_chars]
    exact List.cons_ne_nil _ _
  have hread : ∀ input : EventInput,
      eventParameterOfWords? ((words input.chars).map String.ofList) = some input.declared := by
    intro input
    have htype := input.type.ne_indexed
    have hname : input.name.name ≠ "indexed" := fun heq =>
      absurd input.name.free (by rw [heq]; decide)
    have hnames : (words input.chars).map String.ofList = String.ofList input.type.chars ::
        ((if input.isIndexed then ["indexed"] else []) ++ [input.name.name]) := by
      have hword : String.ofList input.name.chars = input.name.name := String.ofList_toList
      rw [input.words_chars, List.map_cons, List.map_append, List.map_singleton, hword]
      split
      · rw [List.map_singleton, String.ofList_toList]
      · rfl
    rw [hnames, EventInput.declared]
    generalize String.ofList input.type.chars = type at htype
    generalize input.name.name = name at hname
    cases input.isIndexed with
    | false => simp [eventParameterOfWords?, lastOfSeveral, htype, hname, htype.symm, hname.symm]
    | true => simp [eventParameterOfWords?, lastOfSeveral, htype, hname]
  rw [eventParameters, elements_map EventInput.isItem hwords, List.filterMap_map]
  have hdeclared : eventParameterOfWords? ∘
      (fun input : EventInput => (words input.chars).map String.ofList) =
        some ∘ EventInput.declared := funext hread
  rw [hdeclared, List.filterMap_eq_map]

/-! ## Parents -/

theorem trim_space (text : List Char) : trim (' ' :: text) = trim text := by
  rw [trim, trimStart_space, ← trim]

theorem trim_append_space (text : List Char) : trim (text ++ [' ']) = trim text := by
  have hblank : [' '].dropWhile isBlank = [] := by decide
  rw [trim, trim, trimStart, trimStart, List.dropWhile_append, hblank]
  cases hstart : text.dropWhile isBlank with
  | nil => rfl
  | cons c rest => exact trimEnd_append_of_isBlank isBlank_of_mem_space (c :: rest)

theorem IsRun.trimStart_eq {word : List Char} (hword : IsRun word) : trimStart word = word := by
  have hstop := hword.stopsAt_isBlank []
  rw [List.append_nil] at hstop
  exact trimStart_of_stopsAt hstop

theorem IsRun.trimEnd_eq {word : List Char} (hword : IsRun word) : trimEnd word = word := by
  have hback : IsRun word.reverse :=
    ⟨by simpa using hword.ne_nil, fun c hc => hword.plain c (List.mem_reverse.mp hc)⟩
  have hend : word.reverse.dropWhile isBlank = word.reverse := hback.trimStart_eq
  rw [trimEnd, hend, List.reverse_reverse]

theorem IsRun.trim_eq {word : List Char} (hword : IsRun word) : trim word = word := by
  rw [trim, hword.trimStart_eq, hword.trimEnd_eq]

theorem withoutArguments_eq {text : List Char} (htext : '(' ∉ text) :
    withoutArguments 0 text = text := by
  induction text with
  | nil => rfl
  | cons c rest ih =>
      have hne : c ≠ '(' := fun heq => htext (heq ▸ List.mem_cons_self)
      have hrest : '(' ∉ rest := fun hmem => htext (List.mem_cons_of_mem c hmem)
      rw [withoutArguments, enclosed?_eq_none hne]
      simp only [ih hrest]

theorem parents_commaSeparated {identifiers : List Identifier} (hne : identifiers ≠ []) :
    parents (commaSeparated (identifiers.map (·.chars)) ++ [' ']) = identifiers.map (·.name) := by
  have hitems : ∀ item ∈ identifiers.map (·.chars), IsItem item :=
    isItem_of_mem_map Identifier.isItem _
  have hopen : '(' ∉ commaSeparated (identifiers.map (·.chars)) ++ [' '] := by
    intro hmem
    rcases List.mem_append.mp hmem with hmem | hmem
    · exact notMem_commaSeparated hitems (by decide) hmem
    · exact absurd hmem (by decide)
  have hsplit := map_splitOn_commaSeparated trim [' '] trim_space trim_append_space (by decide)
    (by simpa using hne) fun item hitem => (hitems item hitem).notMem (by decide)
  have htrimmed : (identifiers.map (·.chars)).map trim = identifiers.map (·.chars) := by
    rw [List.map_map]
    exact List.map_congr_left fun identifier _ => identifier.isRun.trim_eq
  have hkept : ∀ item ∈ identifiers.map (·.chars),
      (!item.isEmpty && item.all isQualified) = true := by
    intro item hitem
    obtain ⟨identifier, -, rfl⟩ := List.mem_map.mp hitem
    have hall : identifier.chars.all isQualified = true :=
      List.all_eq_true.mpr fun c hc => identifier.isRun.isQualified hc
    simpa [hall] using identifier.isRun.ne_nil
  rw [parents, withoutArguments_eq hopen, hsplit, htrimmed, List.filter_eq_self.mpr hkept,
    List.map_map]
  exact List.map_congr_left fun identifier _ => String.ofList_toList

/-- The clause behind a contract's name reaches up to its brace. -/
theorem inheritance_is {names : List Char} (hbrace : '{' ∉ names) (hend : ';' ∉ names)
    (rest : List Char) :
    inheritance (' ' :: ("is".toList ++ ' ' :: (names ++ ' ' :: '{' :: rest))) =
      parents (names ++ [' ']) := by
  have hrun : ∀ c ∈ names ++ [' '], (decide (c ≠ '{') && decide (c ≠ ';')) = true := by
    intro c hc
    rcases List.mem_append.mp hc with hc | hc
    · have hne : c ≠ '{' := fun heq => hbrace (heq ▸ hc)
      have hne' : c ≠ ';' := fun heq => hend (heq ▸ hc)
      simp [hne, hne']
    · rw [List.mem_singleton.mp hc]
      decide
  have hstop : StopsAt (fun c => decide (c ≠ '{') && decide (c ≠ ';')) ('{' :: rest) := by
    simp [StopsAt]
  have hclause : (names ++ ' ' :: '{' :: rest).takeWhile
      (fun c => decide (c ≠ '{') && decide (c ≠ ';')) = names ++ [' '] := by
    have htake := takeWhile_append_of_stopsAt hrun hstop
    rwa [List.append_assoc] at htake
  have his : blanks? (' ' :: ("is".toList ++ ' ' :: (names ++ ' ' :: '{' :: rest))) =
      some ("is".toList ++ ' ' :: (names ++ ' ' :: '{' :: rest)) :=
    blanks?_space ((isRun_of_mem_reservedWords (by decide)).stopsAt_isBlank _)
  rw [inheritance, his, Option.bind_eq_bind, Option.bind_some, after?_append_left]
  simp only
  rw [if_pos (by decide)]
  exact congrArg parents hclause

/-- The parents of a contract are read from its heading. -/
theorem inheritance_inheritanceClause (identifiers : List Identifier) (rest : List Char) :
    inheritance (inheritanceClause identifiers ++ ' ' :: '{' :: rest) =
      identifiers.map (·.name) := by
  cases identifiers with
  | nil =>
      have hblanks : blanks? (' ' :: '{' :: rest) = some ('{' :: rest) :=
        blanks?_space (by simp [StopsAt, isBlank])
      have hafter : after? "is" ('{' :: rest) = none := by simp [after?]
      rw [inheritanceClause, List.nil_append, inheritance, hblanks]
      simp [hafter]
  | cons parent others =>
      have hitems : ∀ item ∈ (parent :: others).map (·.chars), IsItem item :=
        isItem_of_mem_map Identifier.isItem _
      have hbrace := notMem_commaSeparated hitems (by decide : '{' ∈ _)
      have hend := notMem_commaSeparated hitems (by decide : ';' ∈ _)
      rw [inheritanceClause, List.cons_append, List.append_assoc, List.cons_append,
        inheritance_is hbrace hend, parents_commaSeparated (List.cons_ne_nil parent others)]

end ContractAtlas.Canonical
