import ContractAtlas.Proofs.Canonical.Walk

/-!
# What shapes pass over

Nearly every shape is led by a keyword with a blank behind it, so it passes over every
other word.  A statement that starts with a type has no keyword of its own; it passes over
a name as long as no visibility follows, apart from brackets and blanks.
-/

namespace ContractAtlas.Canonical

open ContractAtlas.Source ContractAtlas.Text

variable {α : Type} {shape : Shape α} {keys : List String}

/-! ## Shapes led by a keyword -/

/-- Whatever a shape reads starts with one of its keys, which is a word of its own. -/
def LedBy (shape : Shape α) (keys : List String) : Prop :=
  ∀ {before text read}, shape before text = some read →
    before.any isWord = false ∧
      ∃ key ∈ keys, ∃ c rest, text = key.toList ++ c :: rest ∧ isPlain c = false

theorem LedBy.passes (hled : LedBy shape keys) (hreserved : ∀ key ∈ keys, key ∈ reservedWords) :
    Passes shape keys fun _ => True where
  reserved := hreserved
  inner := by
    intro c d rest hc _
    cases hread : shape (some c) (d :: rest) with
    | none => rfl
    | some read =>
        have hbefore := (hled hread).1
        rw [Option.any_some, isWord_of_isPlain hc] at hbefore
        contradiction
  mark := by
    intro c hc before rest
    cases hread : shape before (c :: rest) with
    | none => rfl
    | some read =>
        obtain ⟨-, key, hkey, other, more, heq, -⟩ := hled hread
        obtain ⟨first, tail, hchars, hfirst⟩ :=
          (isRun_of_mem_reservedWords (hreserved key hkey)).exists_cons
        rw [hchars, List.cons_append] at heq
        rw [(List.cons.inj heq).1] at hc
        exact absurd hc (notMem_marks_of_isPlain hfirst)
  word := by
    intro word rest hword hfree hrest _ before
    cases hread : shape before (word ++ rest) with
    | none => rfl
    | some read =>
        obtain ⟨-, key, hkey, c, more, heq, hc⟩ := hled hread
        have hsame := hword.eq_of_append_eq (isRun_of_mem_reservedWords (hreserved key hkey))
          hrest.stopsAt_isPlain (stopsAt_isPlain_cons hc more) heq
        rw [hsame.1, String.ofList_toList] at hfree
        exact absurd hkey hfree
  calm_mark _ _ := trivial
  calm_space_mark _ _ := trivial
  calm_space_word _ _ _ := trivial
  calm_brackets _ := trivial

theorem exists_of_keyword? {word : String} {before : Option Char} {text rest : List Char}
    (hkeyword : keyword? word before text = some rest) :
    before.any isWord = false ∧ text = word.toList ++ rest := by
  rw [keyword?] at hkeyword
  split at hkeyword
  · contradiction
  next hbefore => exact ⟨by simpa using hbefore, eq_append_of_after? hkeyword⟩

theorem isPlain_of_isBlank {c : Char} (hc : isBlank c = true) : isPlain c = false := by
  cases hplain : isPlain c with
  | false => rfl
  | true =>
      rw [isBlank_of_isPlain hplain] at hc
      contradiction

theorem exists_cons_of_blanks? {text rest : List Char} (hblanks : blanks? text = some rest) :
    ∃ c tail, text = c :: tail ∧ isPlain c = false := by
  cases text with
  | nil => contradiction
  | cons c tail =>
      rw [blanks?] at hblanks
      split at hblanks
      next hc => exact ⟨c, tail, rfl, isPlain_of_isBlank hc⟩
      · contradiction

/-- A shape that starts with a keyword and blanks. -/
theorem ledBy_of_keyword {word : String}
    (hshape : ∀ {before text read}, shape before text = some read →
      ∃ behind rest, keyword? word before text = some behind ∧ blanks? behind = some rest) :
    LedBy shape [word] := by
  intro before text read hread
  obtain ⟨behind, rest, hkeyword, hblanks⟩ := hshape hread
  obtain ⟨hbefore, rfl⟩ := exists_of_keyword? hkeyword
  obtain ⟨c, tail, rfl, hc⟩ := exists_cons_of_blanks? hblanks
  exact ⟨hbefore, word, List.mem_singleton_self word, c, tail, rfl, hc⟩

theorem passes_functionShape : Passes functionShape ["function"] fun _ => True := by
  refine LedBy.passes (ledBy_of_keyword ?_) (by decide)
  intro before text read hread
  simp only [functionShape, Option.bind_eq_bind, Option.bind_eq_some_iff] at hread
  obtain ⟨behind, hkeyword, rest, hblanks, -⟩ := hread
  exact ⟨behind, rest, hkeyword, hblanks⟩

theorem passes_eventShape : Passes eventShape ["event"] fun _ => True := by
  refine LedBy.passes (ledBy_of_keyword ?_) (by decide)
  intro before text read hread
  simp only [eventShape, Option.bind_eq_bind, Option.bind_eq_some_iff] at hread
  obtain ⟨behind, hkeyword, rest, hblanks, -⟩ := hread
  exact ⟨behind, rest, hkeyword, hblanks⟩

theorem passes_modifierShape : Passes modifierShape ["modifier"] fun _ => True := by
  refine LedBy.passes (ledBy_of_keyword ?_) (by decide)
  intro before text read hread
  simp only [modifierShape, Option.bind_eq_bind, Option.bind_eq_some_iff] at hread
  obtain ⟨behind, hkeyword, rest, hblanks, -⟩ := hread
  exact ⟨behind, rest, hkeyword, hblanks⟩

theorem passes_versionShape : Passes versionShape ["pragma"] fun _ => True := by
  refine LedBy.passes (ledBy_of_keyword ?_) (by decide)
  intro before text read hread
  simp only [versionShape, Option.bind_eq_bind, Option.bind_eq_some_iff] at hread
  obtain ⟨behind, hkeyword, rest, hblanks, -⟩ := hread
  exact ⟨behind, rest, hkeyword, hblanks⟩

/-- A parenthesis that follows, perhaps behind blanks, ends a word. -/
theorem exists_cons_of_mark?_trimStart {text rest : List Char}
    (hopen : mark? '(' (trimStart text) = some rest) :
    ∃ c tail, text = c :: tail ∧ isPlain c = false := by
  have htrim := length_mark? hopen
  cases text with
  | nil => contradiction
  | cons c tail =>
      refine ⟨c, tail, rfl, ?_⟩
      cases hblank : isBlank c with
      | true => exact isPlain_of_isBlank hblank
      | false =>
          rw [trimStart, List.dropWhile_cons, hblank, if_neg Bool.false_ne_true] at htrim
          rw [(List.cons.inj htrim).1]
          decide

theorem ledBy_resultsShape : LedBy resultsShape ["returns"] := by
  intro before text read hread
  simp only [resultsShape, enclosed?, Option.bind_eq_bind, Option.bind_eq_some_iff] at hread
  obtain ⟨behind, hkeyword, inside, hopen, -⟩ := hread
  obtain ⟨hbefore, rfl⟩ := exists_of_keyword? hkeyword
  obtain ⟨c, rest, rfl, hc⟩ := exists_cons_of_mark?_trimStart hopen
  exact ⟨hbefore, "returns", List.mem_singleton_self _, c, rest, rfl, hc⟩

theorem passes_resultsShape : Passes resultsShape ["returns"] fun _ => True :=
  ledBy_resultsShape.passes (by decide)

/-- A visibility of a state variable is read from its keyword. -/
theorem exists_of_storageVisibility? {text rest : List Char} {visibility : Visibility}
    (hread : storageVisibility? text = some (visibility, rest)) :
    visibility.keyword ∈ storageKeywords ∧ text = visibility.keyword.toList ++ rest := by
  obtain ⟨other, hother, hafter⟩ := List.exists_of_findSome?_eq_some hread
  obtain ⟨tail, htail, heq⟩ := Option.map_eq_some_iff.mp hafter
  obtain ⟨rfl, rfl⟩ := Prod.mk.inj heq
  have hstorage : ∀ visibility ∈ [Visibility.publicly, .privately, .internally],
      visibility.keyword ∈ storageKeywords := by decide
  exact ⟨hstorage other hother, eq_append_of_after? htail⟩

theorem passes_visibilityFirstShape :
    Passes visibilityFirstShape storageKeywords fun _ => True := by
  refine LedBy.passes ?_ (by decide)
  intro before text read hread
  rw [visibilityFirstShape] at hread
  split at hread
  · contradiction
  next hbefore =>
    simp only [Option.bind_eq_bind, Option.bind_eq_some_iff] at hread
    obtain ⟨⟨visibility, behind⟩, hvisibility, rest, hblanks, -⟩ := hread
    obtain ⟨hstorage, rfl⟩ := exists_of_storageVisibility? hvisibility
    obtain ⟨c, tail, rfl, hc⟩ := exists_cons_of_blanks? hblanks
    exact ⟨by simpa using hbefore, visibility.keyword, hstorage, c, tail, rfl, hc⟩

/-! ## Licenses -/

theorem licenseShape_eq_none {c : Char} (hc : c ≠ '/') (before : Option Char) (rest : List Char) :
    licenseShape before (c :: rest) = none := by
  have hafter : after? "//" (c :: rest) = none := by
    simp [after?, hc.symm]
  simp [licenseShape, hafter]

theorem passes_licenseShape : Passes licenseShape [] fun _ => True where
  reserved := by simp
  inner := fun _ hd => licenseShape_eq_none (ne_of_isPlain hd (by decide)) _ _
  mark := fun hc before rest => licenseShape_eq_none (by rintro rfl; revert hc; decide) before rest
  word := by
    intro word rest hword _ _ _ before
    obtain ⟨c, tail, rfl, hc⟩ := hword.exists_cons
    exact licenseShape_eq_none (ne_of_isPlain hc (by decide)) before _
  calm_mark _ _ := trivial
  calm_space_mark _ _ := trivial
  calm_space_word _ _ _ := trivial
  calm_brackets _ := trivial

/-! ## Statements that start with a type -/

/-- No visibility of a state variable follows, apart from blanks and brackets. -/
def Unqualified (rest : List Char) : Prop :=
  variableTail? (afterAllBrackets rest) = none

theorem afterAllBrackets_of_none {text : List Char} (hnone : afterBrackets? text = none) :
    afterAllBrackets text = text := by
  rw [afterAllBrackets]
  split
  next hsome => rw [hnone] at hsome; contradiction
  next => rfl

theorem afterAllBrackets_of_some {text rest : List Char} (hsome : afterBrackets? text = some rest) :
    afterAllBrackets text = afterAllBrackets rest := by
  rw [afterAllBrackets]
  split
  next found hfound =>
    rw [hsome] at hfound
    cases hfound
    rfl
  next hnone => rw [hsome] at hnone; contradiction

theorem afterAllBrackets_brackets (rest : List Char) :
    afterAllBrackets ('[' :: ']' :: rest) = afterAllBrackets rest :=
  afterAllBrackets_of_some (by simp [afterBrackets?, trimStart, mark?, isBlank])

theorem afterBrackets?_eq_none {text : List Char} (htext : (trimStart text).head? ≠ some '[') :
    afterBrackets? text = none := by
  rw [afterBrackets?]
  cases htrim : trimStart text with
  | nil => rfl
  | cons c rest =>
      have hne : c ≠ '[' := by
        rintro rfl
        rw [htrim] at htext
        exact htext rfl
      simp [mark?, hne]

/-- A statement that goes on behind its type goes on with a visibility, a word of its own. -/
theorem exists_of_variableTail? {text left : List Char} {tail : VariableTail}
    (hread : variableTail? text = some (tail, left)) :
    ∃ behind, blanks? text = some behind ∧ ∃ key ∈ storageKeywords, ∃ c rest,
      behind = key.toList ++ c :: rest ∧ isPlain c = false := by
  simp only [variableTail?, Option.bind_eq_bind, Option.bind_eq_some_iff] at hread
  obtain ⟨behind, hblanks, ⟨visibility, rest⟩, hvisibility, more, hmore, -⟩ := hread
  obtain ⟨hstorage, rfl⟩ := exists_of_storageVisibility? hvisibility
  obtain ⟨c, tail, rfl, hc⟩ := exists_cons_of_blanks? hmore
  exact ⟨_, hblanks, visibility.keyword, hstorage, c, tail, rfl, hc⟩

theorem unqualified_of_forall {text : List Char} (hbrackets : afterBrackets? text = none)
    (hnone : ∀ behind, blanks? text = some behind → ∀ key ∈ storageKeywords, ∀ c rest,
      behind = key.toList ++ c :: rest → isPlain c = true) : Unqualified text := by
  rw [Unqualified, afterAllBrackets_of_none hbrackets]
  cases hread : variableTail? text with
  | none => rfl
  | some read =>
      obtain ⟨behind, hblanks, key, hkey, c, rest, heq, hc⟩ := exists_of_variableTail? hread
      rw [hnone behind hblanks key hkey c rest heq] at hc
      contradiction

theorem isRun_of_mem_storageKeywords {word : String} (hword : word ∈ storageKeywords) :
    IsRun word.toList := by
  have hreserved : ∀ word ∈ storageKeywords, word ∈ reservedWords := by decide
  exact isRun_of_mem_reservedWords (hreserved word hword)

theorem unqualified_mark {c : Char} (hc : c ∈ ['(', ')', ',', ';', '{']) (rest : List Char) :
    Unqualified (c :: rest) := by
  have hall : ∀ c ∈ ['(', ')', ',', ';', '{'], isBlank c = false ∧ c ≠ '[' :=
    forall_mem_of_all (by decide)
  obtain ⟨hblank, hne⟩ := hall c hc
  apply unqualified_of_forall
  · refine afterBrackets?_eq_none ?_
    rw [trimStart, List.dropWhile_cons, hblank, if_neg Bool.false_ne_true]
    simpa using hne
  · intro behind hblanks
    rw [blanks?, hblank, if_neg Bool.false_ne_true] at hblanks
    cases hblanks

theorem unqualified_space_mark {c : Char} (hc : c ∈ ['(', '{', '=']) (rest : List Char) :
    Unqualified (' ' :: c :: rest) := by
  have hall : ∀ c ∈ ['(', '{', '='], isBlank c = false ∧ c ≠ '[' ∧ isPlain c = false :=
    forall_mem_of_all (by decide)
  obtain ⟨hblank, hne, hplain⟩ := hall c hc
  have hstop : StopsAt isBlank (c :: rest) := by
    intro other hother
    obtain rfl : c = other := by simpa using hother
    exact hblank
  apply unqualified_of_forall
  · refine afterBrackets?_eq_none ?_
    rw [trimStart_space, trimStart_of_stopsAt hstop]
    simpa using hne
  · intro behind hblanks key hkey d more heq
    rw [blanks?_space hstop] at hblanks
    obtain rfl := Option.some.inj hblanks
    obtain ⟨first, tail, hchars, hfirst⟩ := (isRun_of_mem_storageKeywords hkey).exists_cons
    rw [hchars, List.cons_append] at heq
    rw [(List.cons.inj heq).1, hfirst] at hplain
    exact Bool.noConfusion hplain

theorem afterBrackets?_space_word {word : List Char} (hword : IsRun word) (rest : List Char) :
    afterBrackets? (' ' :: (word ++ rest)) = none := by
  refine afterBrackets?_eq_none ?_
  rw [trimStart_space, trimStart_of_stopsAt (hword.stopsAt_isBlank rest)]
  obtain ⟨c, tail, rfl, hc⟩ := hword.exists_cons
  simpa using ne_of_isPlain hc (by decide)

theorem unqualified_space_word {word rest : List Char} (hword : IsRun word)
    (hfree : String.ofList word ∉ storageKeywords) (hrest : MarkNext rest) :
    Unqualified (' ' :: (word ++ rest)) := by
  have hstop := hword.stopsAt_isBlank rest
  refine unqualified_of_forall (afterBrackets?_space_word hword rest) ?_
  intro behind hblanks key hkey d more heq
  rw [blanks?_space hstop] at hblanks
  obtain rfl := Option.some.inj hblanks
  cases hd : isPlain d with
  | true => rfl
  | false =>
      have hsame := hword.eq_of_append_eq (isRun_of_mem_storageKeywords hkey)
        hrest.stopsAt_isPlain (stopsAt_isPlain_cons hd more) heq
      rw [hsame.1, String.ofList_toList] at hfree
      exact absurd hkey hfree

theorem mappingVariable?_eq_none {word rest : List Char} (hword : IsRun word)
    (hfree : String.ofList word ≠ "mapping") (hrest : MarkNext rest) :
    mappingVariable? (word ++ rest) = none := by
  cases hread : mappingVariable? (word ++ rest) with
  | none => rfl
  | some read =>
      simp only [mappingVariable?, Option.bind_eq_bind, Option.bind_eq_some_iff] at hread
      obtain ⟨behind, hafter, inside, hopen, -⟩ := hread
      obtain ⟨c, tail, rfl, hc⟩ := exists_cons_of_mark?_trimStart hopen
      have hsame := hword.eq_of_append_eq (isRun_of_mem_reservedWords (by decide))
        hrest.stopsAt_isPlain (stopsAt_isPlain_cons hc tail) (eq_append_of_after? hafter)
      rw [hsame.1, String.ofList_toList] at hfree
      contradiction

theorem plainVariable?_eq_none {word rest : List Char} (hword : IsRun word) (hrest : MarkNext rest)
    (hcalm : Unqualified rest) : plainVariable? (word ++ rest) = none := by
  have hdrop : (word ++ rest).dropWhile isQualified = rest :=
    dropWhile_append_of_stopsAt (fun _ => hword.isQualified) hrest.stopsAt_isQualified
  rw [Unqualified] at hcalm
  obtain ⟨c, tail, rfl, hc⟩ := hword.exists_cons
  rw [List.cons_append] at hdrop ⊢
  simp only [plainVariable?, hdrop, hcalm]
  simp

theorem passes_typeFirstShape : Passes typeFirstShape ["mapping"] Unqualified where
  reserved := by decide
  inner := by
    intro c d rest hc _
    rw [typeFirstShape, Option.any_some, isQualified_of_isPlain hc, if_pos rfl]
  mark := by
    intro c hc before rest
    have hall : ∀ c ∈ marks, c ≠ 'm' ∧ startsIdentifier c = false := forall_mem_of_all (by decide)
    obtain ⟨hne, hstart⟩ := hall c hc
    have hmapping : after? "mapping" (c :: rest) = none := by
      simp [after?, hne.symm]
    simp [typeFirstShape, mappingVariable?, plainVariable?, hmapping, hstart]
  word := by
    intro word rest hword hfree hrest hcalm before
    have hmapping := mappingVariable?_eq_none hword (by simpa using hfree) hrest
    have hplain := plainVariable?_eq_none hword hrest hcalm
    simp [typeFirstShape, hmapping, hplain]
  calm_mark := unqualified_mark
  calm_space_mark := unqualified_space_mark
  calm_space_word := unqualified_space_word
  calm_brackets := by
    intro rest hcalm
    rwa [Unqualified, afterAllBrackets_brackets]

end ContractAtlas.Canonical
