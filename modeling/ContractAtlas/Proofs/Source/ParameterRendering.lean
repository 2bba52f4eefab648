import ContractAtlas.Diagram.Basic
import ContractAtlas.Proofs.Text.Words

/-!
# Parameters written and read back

A diagram shows parameters as they are declared, and a declaration is read as parameters.
Both go through words: a row of words with blanks between them has one reading, however the
blanks look (`SpelledAs.words_eq`), and the elements of a list are read as if each stood alone
(`elements_intercalate`).  What lies between the type and the name is lost when a list is read.
So a list can be written in many ways that all read alike (`Renders`), and parameters that were
read before are read again from the diagram's own way of writing them.
-/

namespace ContractAtlas.Source

open ContractAtlas.Text

/-! ## Tokens -/

/-- A word as it stands in an element of a list. -/
structure IsToken (word : String) : Prop where
  ne_nil : word.toList ≠ []
  plain : ∀ c ∈ word.toList, isBlank c = false ∧ c ≠ ','

theorem IsToken.isDense {word : String} (hword : IsToken word) : Canonical.IsDense word.toList :=
  ⟨hword.ne_nil, fun c hc => (hword.plain c hc).1⟩

theorem forall_of_mem_splitOnP {α : Type} {p : α → Bool} {text part : List α}
    (hpart : part ∈ text.splitOnP p) : ∀ a ∈ part, p a = false ∧ a ∈ text := by
  induction text generalizing part with
  | nil =>
      obtain rfl : part = [] := List.mem_singleton.mp hpart
      simp
  | cons b text ih =>
      rw [List.splitOnP_cons_eq_if_modifyHead] at hpart
      split at hpart
      next =>
        rcases List.mem_cons.mp hpart with rfl | hpart
        · simp
        · exact fun a ha => (ih hpart a ha).imp_right (List.mem_cons_of_mem b)
      next hb =>
        cases hsplit : text.splitOnP p with
        | nil =>
            rw [hsplit] at hpart
            contradiction
        | cons first others =>
            rw [hsplit] at hpart ih
            rcases List.mem_cons.mp hpart with rfl | hpart
            · refine List.forall_mem_cons.mpr
                ⟨⟨Bool.eq_false_iff.mpr hb, List.mem_cons_self⟩, fun a ha => ?_⟩
              exact (ih List.mem_cons_self a ha).imp_right (List.mem_cons_of_mem b)
            · intro a ha
              exact (ih (List.mem_cons_of_mem first hpart) a ha).imp_right
                (List.mem_cons_of_mem b)

theorem isToken_of_mem_elements {list : List Char} {element : List String}
    (helement : element ∈ elements list) {word : String} (hword : word ∈ element) :
    IsToken word := by
  rw [elements, List.mem_filter, List.mem_map] at helement
  obtain ⟨⟨part, hpart, rfl⟩, -⟩ := helement
  obtain ⟨chars, hchars, rfl⟩ := List.mem_map.mp hword
  rw [List.splitOn_eq_splitOnP] at hpart
  have hsplit := List.mem_of_mem_filter hchars
  constructor
  · rw [String.toList_ofList]
    exact mem_words hchars
  · intro c hc
    rw [String.toList_ofList] at hc
    obtain ⟨hblank, hmem⟩ := forall_of_mem_splitOnP hsplit c hc
    obtain ⟨hcomma, -⟩ := forall_of_mem_splitOnP hpart c hmem
    exact ⟨hblank, by simpa using hcomma⟩

/-! ## Rows of words -/

/-- A text spells a row of words, with blanks between neighbours and perhaps at both ends. -/
inductive SpelledAs : List String → List Char → Prop
  | nil {space : List Char} (hspace : ∀ c ∈ space, isBlank c = true) : SpelledAs [] space
  | cons {word : String} {row : List String} {space rest : List Char}
      (hspace : ∀ c ∈ space, isBlank c = true) (hword : IsToken word)
      (hrest : ∀ c ∈ rest.head?, isBlank c = true) (hrow : SpelledAs row rest) :
      SpelledAs (word :: row) (space ++ (word.toList ++ rest))

namespace SpelledAs

variable {row : List String} {chunk : List Char}

theorem words_eq (hchunk : SpelledAs row chunk) : (words chunk).map String.ofList = row := by
  induction hchunk with
  | nil hspace => rw [words_eq_nil hspace, List.map_nil]
  | cons hspace hword hrest _ ih =>
      rw [words_space_word hspace hword.isDense hrest, List.map_cons, String.ofList_toList, ih]

theorem comma_notMem (hchunk : SpelledAs row chunk) : ',' ∉ chunk := by
  have hblank : ∀ {space : List Char}, (∀ c ∈ space, isBlank c = true) → ',' ∉ space :=
    notMem_of_isBlank (by decide)
  induction hchunk with
  | nil hspace => exact hblank hspace
  | cons hspace hword _ _ ih =>
      simp only [List.mem_append, not_or]
      exact ⟨hblank hspace, fun hmem => (hword.plain ',' hmem).2 rfl, ih⟩

/-- Every text without a comma spells some row: each of its words can stand in an element. -/
theorem exists_of_comma_notMem (hcomma : ',' ∉ chunk) : ∃ row, SpelledAs row chunk := by
  induction chunk using wordInduction with
  | blanks space hspace => exact ⟨[], .nil hspace⟩
  | word space word rest hspace hword hrest ih =>
      simp only [List.mem_append, not_or] at hcomma
      obtain ⟨-, hfree, hcomma⟩ := hcomma
      obtain ⟨row, hrow⟩ := ih hcomma
      have htoken : IsToken (String.ofList word) := by
        constructor <;> rw [String.toList_ofList]
        · exact hword.ne_nil
        · exact fun c hc => ⟨hword.dense c hc, fun heq => hfree (heq ▸ hc)⟩
      have hspelled := SpelledAs.cons hspace htoken hrest hrow
      rw [String.toList_ofList] at hspelled
      exact ⟨_, hspelled⟩

/-- What an element spells is what is read from it, and every text without a comma spells
something. -/
theorem spelledAs_iff :
    SpelledAs row chunk ↔ ',' ∉ chunk ∧ (words chunk).map String.ofList = row := by
  constructor
  · exact fun hchunk => ⟨hchunk.comma_notMem, hchunk.words_eq⟩
  · rintro ⟨hcomma, rfl⟩
    obtain ⟨row, hrow⟩ := exists_of_comma_notMem hcomma
    rwa [hrow.words_eq]

instance (row : List String) (chunk : List Char) : Decidable (SpelledAs row chunk) :=
  decidable_of_iff _ spelledAs_iff.symm

end SpelledAs

/-- The elements of a list are the rows that are spelled between its commas, but for those
without words. -/
theorem elements_intercalate {rows : List (List String)} {chunks : List (List Char)}
    (hchunks : List.Forall₂ SpelledAs rows chunks) :
    elements ([','].intercalate chunks) = rows.filter (!·.isEmpty) := by
  have hcomma : ∀ chunk ∈ chunks, ',' ∉ chunk := by
    induction hchunks with
    | nil => simp
    | cons hspelled _ ih => exact List.forall_mem_cons.mpr ⟨hspelled.comma_notMem, ih⟩
  have hrows : (chunks.map fun chunk => (words chunk).map String.ofList) = rows := by
    clear hcomma
    induction hchunks with
    | nil => rfl
    | cons hspelled _ ih => rw [List.map_cons, hspelled.words_eq, ih]
  by_cases hnil : chunks = []
  · subst hnil
    cases hchunks
    rfl
  · rw [elements, List.splitOn_intercalate ',' hcomma hnil, hrows]

/-! ## Writing -/

/-- The ways to write a list of parameters: between the commas stand blank elements and, in the
order of the parameters, elements with a type, any words, and a name at last, which is no word
for a place. -/
inductive Renders : List Parameter → List (List Char) → Prop
  | nil : Renders [] []
  | blank {parameters : List Parameter} {chunks : List (List Char)} {space : List Char}
      (hspace : ∀ c ∈ space, isBlank c = true) (hchunks : Renders parameters chunks) :
      Renders parameters (space :: chunks)
  | parameter {type name : String} {between : List String} {chunk : List Char}
      {parameters : List Parameter} {chunks : List (List Char)}
      (hchunk : SpelledAs (type :: (between ++ [name])) chunk) (hname : name ∉ dataLocations)
      (hchunks : Renders parameters chunks) :
      Renders ({ name, type } :: parameters) (chunk :: chunks)

theorem lastOfSeveral_append_singleton (type name : String) (between : List String) :
    lastOfSeveral (type :: (between ++ [name])) = name := by
  cases between with
  | nil => rfl
  | cons word between =>
      rw [List.cons_append, lastOfSeveral, ← List.cons_append, List.getLastD_concat]

/-- Whatever stands between the type and the name is not read. -/
theorem parameterOfWords_append_singleton {name : String} (hname : name ∉ dataLocations)
    (type : String) (between : List String) :
    parameterOfWords (type :: (between ++ [name])) = { name, type } := by
  simp only [parameterOfWords, lastOfSeveral_append_singleton, if_neg hname, List.headD_cons]

theorem Renders.parameters_eq {list : List Parameter} {chunks : List (List Char)}
    (hrenders : Renders list chunks) : parameters ([','].intercalate chunks) = list := by
  have hrows : ∃ rows, List.Forall₂ SpelledAs rows chunks ∧
      (rows.filter (!·.isEmpty)).map parameterOfWords = list := by
    induction hrenders with
    | nil => exact ⟨[], .nil, rfl⟩
    | blank hspace _ ih =>
        obtain ⟨rows, hspelled, hread⟩ := ih
        exact ⟨[] :: rows, .cons (.nil hspace) hspelled, hread⟩
    | @parameter type name between _ _ _ hchunk hname _ ih =>
        obtain ⟨rows, hspelled, hread⟩ := ih
        refine ⟨(type :: (between ++ [name])) :: rows, .cons hchunk hspelled, ?_⟩
        rw [List.filter_cons_of_pos rfl, List.map_cons, hread,
          parameterOfWords_append_singleton hname]
  obtain ⟨rows, hspelled, hread⟩ := hrows
  rw [parameters, elements_intercalate hspelled, hread]

/-! ## The diagram's way of writing -/

/-- What can be read as a parameter. -/
structure IsRead (parameter : Parameter) : Prop where
  type : IsToken parameter.type
  name : parameter.name = "" ∨ IsToken parameter.name ∧ parameter.name ∉ dataLocations
  indexed : parameter.indexed = none

theorem isRead_of_mem_parameters {list : List Char} {parameter : Parameter}
    (hparameter : parameter ∈ parameters list) : IsRead parameter := by
  obtain ⟨element, helement, rfl⟩ := List.mem_map.mp hparameter
  have htoken : ∀ word ∈ element, IsToken word := fun _ => isToken_of_mem_elements helement
  have hne : element ≠ [] := by
    rw [elements, List.mem_filter] at helement
    simpa using helement.2
  obtain ⟨type, others, rfl⟩ := List.exists_cons_of_ne_nil hne
  refine ⟨htoken type List.mem_cons_self, ?_, rfl⟩
  rcases List.eq_nil_or_concat' others with rfl | ⟨between, name, rfl⟩
  · exact .inl rfl
  · by_cases hname : name ∈ dataLocations
    · exact .inl (by simp only [parameterOfWords, lastOfSeveral_append_singleton, if_pos hname])
    · rw [parameterOfWords_append_singleton hname]
      exact .inr ⟨htoken name (by simp), hname⟩

/-- The words of a parameter as it is declared. -/
def declaredWords (parameter : Parameter) : List String :=
  if parameter.name = "" then [parameter.type] else [parameter.type, parameter.name]

theorem words_typed {parameter : Parameter} (hread : IsRead parameter) :
    (words (Diagram.typed parameter).toList).map String.ofList = declaredWords parameter := by
  have hsplit : words (Diagram.typed parameter).toList =
      parameter.type.toList :: words parameter.name.toList := by
    rw [Diagram.typed, String.toList_ofList, words_trim]
    simp only [String.toList_append, List.append_assoc]
    exact hread.type.isDense.words_append_space parameter.name.toList
  rw [hsplit, List.map_cons, String.ofList_toList, declaredWords]
  rcases hread.name with hname | ⟨hname, -⟩
  · rw [hname]
    rfl
  · have hne : parameter.name ≠ "" := fun hnil => hname.ne_nil (by rw [hnil]; rfl)
    rw [if_neg hne, hname.isDense.words_eq, List.map_singleton, String.ofList_toList]

theorem parameterOfWords_declaredWords {parameter : Parameter} (hread : IsRead parameter) :
    parameterOfWords (declaredWords parameter) = parameter := by
  obtain ⟨htype, hname, hindexed⟩ := hread
  obtain ⟨name, type, indexed⟩ := parameter
  subst hindexed
  rw [declaredWords]
  rcases hname with rfl | ⟨htoken, hname⟩
  · rfl
  · have hne : name ≠ "" := fun hnil => htoken.ne_nil (by rw [hnil]; rfl)
    rw [if_neg hne]
    exact parameterOfWords_append_singleton hname type []

theorem comma_notMem_typed {parameter : Parameter} (hread : IsRead parameter) :
    ',' ∉ (Diagram.typed parameter).toList := by
  intro hmem
  rw [Diagram.typed, String.toList_ofList] at hmem
  have hcomma := trim_subset _ hmem
  simp only [String.toList_append, List.append_assoc, List.mem_append] at hcomma
  rcases hcomma with htype | hspace | hname
  · exact (hread.type.plain ',' htype).2 rfl
  · revert hspace
    decide
  · rcases hread.name with hnil | ⟨htoken, -⟩
    · rw [hnil] at hname
      contradiction
    · exact (htoken.plain ',' hname).2 rfl

theorem toList_commaSeparated (parts : List String) :
    (Diagram.commaSeparated parts).toList = Canonical.commaSeparated (parts.map String.toList) := by
  have hlists : ∀ items : List (List Char),
      [',', ' '].intercalate items = Canonical.commaSeparated items := by
    intro items
    induction items with
    | nil => rfl
    | cons item rest ih =>
        cases rest with
        | nil => exact List.intercalate_singleton
        | cons next rest =>
            rw [List.intercalate_cons_cons, ih, Canonical.commaSeparated]
            simp
  rw [Diagram.commaSeparated, String.toList_intercalate]
  exact hlists _

/-- What was read once is read again from the diagram. -/
theorem parameters_signature {list : List Parameter}
    (hread : ∀ parameter ∈ list, IsRead parameter) :
    parameters (Diagram.signature list).toList = list := by
  have hcomma : ∀ item ∈ (list.map Diagram.typed).map String.toList, ',' ∉ item := by
    simp only [List.forall_mem_map]
    exact fun parameter hparameter => comma_notMem_typed (hread parameter hparameter)
  have hwords : ∀ item ∈ (list.map Diagram.typed).map String.toList, words item ≠ [] := by
    simp only [List.forall_mem_map]
    intro parameter hparameter hnil
    have htyped := words_typed (hread parameter hparameter)
    rw [hnil, List.map_nil, declaredWords] at htyped
    split at htyped <;> exact List.cons_ne_nil _ _ htyped.symm
  calc
    parameters (Diagram.signature list).toList
      = list.map (fun parameter =>
          parameterOfWords ((words (Diagram.typed parameter).toList).map String.ofList)) := by
      rw [parameters, Diagram.signature, toList_commaSeparated,
        Canonical.elements_commaSeparated hcomma hwords]
      simp only [List.map_map, Function.comp_def]
    _ = list.map id := List.map_congr_left fun parameter hparameter => by
      rw [words_typed (hread parameter hparameter),
        parameterOfWords_declaredWords (hread parameter hparameter), id]
    _ = list := List.map_id list

/-- A diagram shows parameters as they can be read again, and however a list is written, it is
read as the parameters that it was written for. -/
theorem parameters_rendered :
    (∀ raw : String, parameters (Diagram.signature (parameters raw.toList)).toList =
      parameters raw.toList) ∧
    ∀ (list : List Parameter) (chunks : List (List Char)), Renders list chunks →
      parameters ([','].intercalate chunks) = list := by
  constructor
  · exact fun raw => parameters_signature fun _ => isRead_of_mem_parameters
  · exact fun list chunks hrenders => hrenders.parameters_eq

/-- Two parameters among blank elements, the first with a word for a place and with blanks of
several scripts, the second with a word between its type and its name. -/
def scatteredElements : List (List Char) :=
  ["\u3000", "uint256[]\tmemory \u00a0 a\n", "", " address payable to"].map String.toList

theorem renders_scatteredElements :
    Renders [⟨"a", "uint256[]", none⟩, ⟨"to", "address", none⟩] scatteredElements := by
  have hfirst : SpelledAs ("uint256[]" :: (["memory"] ++ ["a"]))
      "uint256[]\tmemory \u00a0 a\n".toList := by decide +kernel
  have hsecond : SpelledAs ("address" :: (["payable"] ++ ["to"]))
      " address payable to".toList := by decide +kernel
  have hblank : ∀ c ∈ "\u3000".toList, isBlank c = true := forall_mem_of_all (by decide)
  have hempty : ∀ c ∈ "".toList, isBlank c = true := by simp
  exact .blank hblank (.parameter hfirst (by decide) (.blank hempty
    (.parameter hsecond (by decide) .nil)))

theorem parameters_scatteredElements :
    Renders [⟨"a", "uint256[]", none⟩, ⟨"to", "address", none⟩] scatteredElements ∧
      parameters ([','].intercalate scatteredElements) =
        [⟨"a", "uint256[]", none⟩, ⟨"to", "address", none⟩] ∧
      parameters (Diagram.signature (parameters " address  memory , ,bytes".toList)).toList =
        [⟨"", "address", none⟩, ⟨"", "bytes", none⟩] := by
  refine ⟨renders_scatteredElements, parameters_rendered.2 _ _ renders_scatteredElements, ?_⟩
  rw [parameters_rendered.1 " address  memory , ,bytes"]
  decide +kernel

end ContractAtlas.Source
