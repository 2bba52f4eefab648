import ContractAtlas.Proofs.Canonical.Walk

/-!
# Walking over canonical lines

From the words the lines are put together, once for all shapes.  A shape passes over a line
if none of its keys is a keyword of the line.  The only words at which this is not known are
the visibilities of functions and variables, so what a shape reads there is a hypothesis.
-/

namespace ContractAtlas.Canonical

open ContractAtlas.Source ContractAtlas.Text

/-! ## Keywords of lines -/

/-- None of the keys is one of the words. -/
abbrev Foreign (keys words : List String) : Prop :=
  ∀ key ∈ keys, key ∉ words

theorem Foreign.notMem {keys words : List String} (hkeys : Foreign keys words) {word : String}
    (hword : word ∈ words) : word ∉ keys :=
  fun hkey => hkeys word hkey hword

def headingKeywords : List String := ["contract", "is"]

def eventKeywords : List String := ["event", "indexed", "anonymous"]

def mutabilityKeywords : List String := Mutability.all.map (·.keyword)

/-- The keywords of functions, apart from their visibilities. -/
def functionKeywords : List String := "function" :: "returns" :: mutabilityKeywords

/-- The keywords of all lines behind the state variables, apart from visibilities. -/
def memberKeywords : List String :=
  eventKeywords ++ "modifier" :: functionKeywords

theorem Foreign.tail {keys words : List String} {word : String}
    (hkeys : Foreign keys (word :: words)) : Foreign keys words :=
  fun key hkey hmem => hkeys key hkey (List.mem_cons_of_mem word hmem)

theorem keyword_mem_mutabilityKeywords (mutability : Mutability) :
    mutability.keyword ∈ mutabilityKeywords := by
  cases mutability <;> decide

/-! ## Words of function headers -/

theorem inputsClause_append (inputs : List Input) (tail : List Char) :
    inputsClause (some inputs) ++ tail =
      '(' :: (commaSeparated (inputs.map (·.chars)) ++ ')' :: tail) := by
  rw [inputsClause, List.cons_append, List.append_assoc, List.singleton_append]

theorem resultsClause_none : resultsClause none = [] := rfl

theorem spacedWords_cons (word : List Char) (words : List (List Char)) :
    spacedWords (word :: words) = word ++ ' ' :: spacedWords words := by
  rw [spacedWords, List.flatMap_cons, List.append_assoc, List.singleton_append, ← spacedWords]

theorem spacedWords_cons_append (word : List Char) (words : List (List Char)) (rest : List Char) :
    spacedWords (word :: words) ++ rest = word ++ ' ' :: (spacedWords words ++ rest) := by
  rw [spacedWords_cons, List.append_assoc, List.cons_append]

theorem Function.header_eq (function : Function) : function.header =
    ' ' :: (function.visibility.keyword.toList ++ ' ' :: function.qualified) := by
  unfold Function.header Function.words Function.qualified
  rw [spacedWords_cons_append]

/-- Words that a shape passes over inside a header. -/
structure IsOption (keys : List String) (word : List Char) : Prop extends IsName word where
  notKey : String.ofList word ∉ keys
  notStorage : String.ofList word ∉ storageKeywords

/-- The words behind the visibility of a function, none of which is a key. -/
theorem Function.isOption_of_mem_options {keys : List String}
    (hreserved : ∀ key ∈ keys, key ∈ reservedWords) (hkeys : Foreign keys mutabilityKeywords)
    (function : Function) : ∀ word ∈ function.options, IsOption keys word := by
  have hmutability : ∀ word ∈ mutabilityKeywords,
      word ∈ reservedWords ∧ word ∉ storageKeywords := by decide
  have hstorage : ∀ word ∈ storageKeywords, word ∈ reservedWords := by decide
  intro word hword
  rcases List.mem_append.mp hword with hword | hword
  · obtain ⟨mutability, -, rfl⟩ := Option.map_eq_some_iff.mp (Option.mem_toList.mp hword)
    have hkeyword := keyword_mem_mutabilityKeywords mutability
    obtain ⟨hkeywordReserved, hnotStorage⟩ := hmutability _ hkeyword
    refine ⟨isName_of_mem_reservedWords hkeywordReserved, ?_, ?_⟩
    · rw [String.ofList_toList]
      exact hkeys.notMem hkeyword
    · rwa [String.ofList_toList]
  · obtain ⟨identifier, -, rfl⟩ := List.mem_map.mp hword
    exact ⟨identifier.isName, fun hkey => identifier.notMem_reservedWords (hreserved _ hkey),
      fun hkey => identifier.notMem_reservedWords (hstorage _ hkey)⟩

namespace Passes

variable {α : Type} {shape : Shape α} {keys : List String} {calm : List Char → Prop}
  (hpasses : Passes shape keys calm)

include hpasses

/-! ## The heading and the end -/

/-- A keyword, a space, a name, and what stands behind it. -/
theorem quiet_keyword_name {word : String} (hword : word ∈ reservedWords) (hkey : word ∉ keys)
    (identifier : Identifier) {tail rest : List Char} (htail : Quiet shape tail rest)
    (hmark : MarkNext (tail ++ rest)) (hcalm : calm (tail ++ rest)) :
    Quiet shape (word.toList ++ ' ' :: (identifier.chars ++ tail)) rest := by
  have hname : calm (' ' :: (identifier.chars ++ tail) ++ rest) := by
    rw [List.cons_append, List.append_assoc]
    exact hpasses.calm_space_identifier identifier hmark
  exact Quiet.append (hpasses.passable_keyword hword hkey (markNext_cons (by decide) _) hname)
    (hpasses.quiet_mark_cons (by decide)
      (Quiet.append (hpasses.passable_identifier identifier hmark hcalm) htail))

theorem calm_space_commaSeparated (first : Identifier) (others : List (List Char))
    {rest : List Char} (hrest : MarkNext rest) :
    calm (' ' :: (commaSeparated (first.chars :: others) ++ rest)) := by
  cases others with
  | nil => exact hpasses.calm_space_identifier first hrest
  | cons next others =>
      rw [commaSeparated, List.append_assoc]
      exact hpasses.calm_space_identifier first (markNext_cons (by decide) _)

theorem quiet_heading (hkeys : Foreign keys headingKeywords) (source : Source) (rest : List Char) :
    Quiet shape source.heading rest := by
  have hcontract : "contract" ∉ keys := hkeys.notMem (by decide)
  have his : "is" ∉ keys := hkeys.notMem (by decide)
  have hend : Quiet shape [' ', '{', '\n'] rest := hpasses.quiet_marks (by decide) rest
  have hcalm : ∀ tail, calm (' ' :: '{' :: tail) := hpasses.calm_space_mark (by decide)
  have hspace : ∀ tail, MarkNext (' ' :: tail) := markNext_cons (by decide)
  unfold Source.heading
  cases source.parents with
  | nil => exact hpasses.quiet_keyword_name (by decide) hcontract _ hend (hspace _) (hcalm _)
  | cons parent others =>
      have hnames := passable_of_mem_map hpasses.passable_identifier (parent :: others)
      rw [List.map_cons] at hnames
      have hparents : Quiet shape (commaSeparated (parent.chars :: others.map (·.chars)))
          (' ' :: '{' :: '\n' :: rest) :=
        hpasses.passable_commaSeparated hnames (hspace _) (hcalm _)
      have hcalmParents : calm (' ' :: (commaSeparated (parent.chars :: others.map (·.chars)) ++
          ' ' :: '{' :: '\n' :: rest)) := hpasses.calm_space_commaSeparated parent _ (hspace _)
      have hword : Quiet shape "is".toList (' ' :: (commaSeparated
          (parent.chars :: others.map (·.chars)) ++ ' ' :: '{' :: '\n' :: rest)) :=
        hpasses.passable_keyword (by decide) his (hspace _) hcalmParents
      have hclause : Quiet shape (inheritanceClause (parent :: others))
          ([' ', '{', '\n'] ++ rest) :=
        hpasses.quiet_mark_cons (by decide)
          (Quiet.append hword (hpasses.quiet_mark_cons (by decide) hparents))
      have hbehind : calm (inheritanceClause (parent :: others) ++ [' ', '{', '\n'] ++ rest) := by
        rw [inheritanceClause, List.cons_append, List.cons_append, List.append_assoc,
          List.append_assoc]
        exact hpasses.calm_space_keyword (by decide) (by decide) (hspace _)
      exact hpasses.quiet_keyword_name (by decide) hcontract _ (Quiet.append hclause hend)
        (hspace _) hbehind

theorem quiet_closing (layout : Layout) (rest : List Char) :
    Quiet shape (Source.closing layout) rest := by
  apply hpasses.quiet_marks
  intro c hc
  rcases List.mem_cons.mp hc with rfl | hc
  · decide
  · rw [List.eq_of_mem_replicate hc]
    decide

/-! ## Events and modifiers -/

theorem quiet_eventLine (hkeys : Foreign keys eventKeywords) (event : Event) (rest : List Char) :
    Quiet shape event.line rest := by
  have hinputs := passable_of_mem_map (hpasses.passable_eventInput (hkeys.notMem (by decide)))
    event.inputs
  have hend : Quiet shape [';'] (['\n'] ++ rest) := hpasses.quiet_marks (by decide) _
  have htail : Quiet shape ((if event.isAnonymous then ' ' :: "anonymous".toList else []) ++ [';'])
      (['\n'] ++ rest) := by
    cases event.isAnonymous with
    | false => exact hend
    | true =>
        have hanonymous : Quiet shape "anonymous".toList ([';'] ++ (['\n'] ++ rest)) :=
          hpasses.passable_keyword (by decide) (hkeys.notMem (by decide))
            (markNext_cons (by decide) _) (hpasses.calm_mark (by decide) _)
        exact hpasses.quiet_mark_cons (by decide) (Quiet.append hanonymous hend)
  have hstatement : Quiet shape event.statement (['\n'] ++ rest) :=
    hpasses.quiet_keyword_name (by decide) (hkeys.notMem (by decide)) _
      (hpasses.quiet_enclosed hinputs htail) (markNext_cons (by decide) _)
      (hpasses.calm_mark (by decide) _)
  exact Quiet.append hstatement (hpasses.quiet_marks (by decide) rest)

/-- The body of a modifier holds a single underscore. -/
theorem quiet_modifierBody (rest : List Char) :
    Quiet shape [' ', '_', ';', ' ', '}', '\n'] rest := by
  have hunderscore : "_" ∉ keys := fun hkey => absurd (hpasses.reserved _ hkey) (by decide)
  have hword : Quiet shape ['_'] ([';', ' ', '}', '\n'] ++ rest) :=
    hpasses.quiet_word ⟨by decide, List.forall_mem_singleton.mpr (by decide)⟩ hunderscore
      (markNext_cons (by decide) _)
      (hpasses.calm_mark (by decide) _)
  exact hpasses.quiet_mark_cons (by decide)
    (Quiet.append hword (hpasses.quiet_marks (by decide) rest))

theorem quiet_modifierLine (hmodifier : "modifier" ∉ keys) (modifier : Modifier)
    (rest : List Char) : Quiet shape modifier.line rest := by
  have hopening : ∀ tail, Quiet shape modifier.opening tail := by
    intro tail
    have hend : Quiet shape [' ', '{'] tail := hpasses.quiet_marks (by decide) tail
    unfold Modifier.opening
    cases modifier.inputs with
    | none =>
        exact hpasses.quiet_keyword_name (by decide) hmodifier modifier.name hend
          (markNext_cons (by decide) _) (hpasses.calm_space_mark (by decide) _)
    | some inputs =>
        simp only [inputsClause_append]
        exact hpasses.quiet_keyword_name (by decide) hmodifier modifier.name
          (hpasses.quiet_enclosed (passable_of_mem_map hpasses.passable_input inputs) hend)
          (markNext_cons (by decide) _) (hpasses.calm_mark (by decide) _)
  exact Quiet.append (hopening _) (hpasses.quiet_modifierBody rest)

/-! ## Functions -/

theorem calm_space_spacedWords {words : List (List Char)} {rest : List Char}
    (hwords : ∀ word ∈ words, IsOption keys word) (hcalm : calm (' ' :: rest)) :
    calm (' ' :: (spacedWords words ++ rest)) := by
  cases words with
  | nil => exact hcalm
  | cons word words =>
      have hword := hwords word List.mem_cons_self
      rw [spacedWords_cons_append]
      exact hpasses.calm_space_word hword.toIsRun hword.notStorage (markNext_cons (by decide) _)

theorem quiet_spacedWords {words : List (List Char)} {rest : List Char}
    (hwords : ∀ word ∈ words, IsOption keys word) (hcalm : calm (' ' :: rest)) :
    Quiet shape (spacedWords words) rest := by
  induction words with
  | nil => exact Quiet.nil rest
  | cons word words ih =>
      obtain ⟨hword, hwords⟩ := List.forall_mem_cons.mp hwords
      simp only [spacedWords_cons]
      exact Quiet.append
        (hpasses.quiet_word hword.toIsRun hword.notKey (markNext_cons (by decide) _)
          (hpasses.calm_space_spacedWords hwords hcalm))
        (hpasses.quiet_mark_cons (by decide) (ih hwords))

theorem calm_space_resultsClause (results : Option (List Result)) (rest : List Char) :
    calm (' ' :: (resultsClause results ++ '{' :: rest)) := by
  cases results with
  | none => exact hpasses.calm_space_mark (by decide) rest
  | some results =>
      unfold resultsClause
      simp only [List.append_assoc]
      exact hpasses.calm_space_keyword (by decide) (by decide) (markNext_cons (by decide) _)

theorem quiet_resultsClause (hreturns : "returns" ∉ keys) (results : Option (List Result))
    (rest : List Char) : Quiet shape (resultsClause results) rest := by
  cases results with
  | none => exact Quiet.nil rest
  | some results =>
      have hresults := passable_of_mem_map hpasses.passable_result results
      have hend : Quiet shape [' '] rest := hpasses.quiet_mark (by decide) rest
      exact Quiet.append
        (hpasses.passable_keyword (by decide) hreturns (markNext_cons (by decide) _)
          (hpasses.calm_space_mark (by decide) _))
        (hpasses.quiet_mark_cons (by decide) (hpasses.quiet_enclosed hresults hend))

theorem quiet_body (layout : Layout) (rest : List Char) : Quiet shape layout.body rest := by
  refine hpasses.quiet_marks (fun c hc => ?_) rest
  simp only [Layout.body, List.mem_cons, List.mem_append, List.mem_replicate] at hc
  rcases hc with ⟨-, rfl⟩ | rfl | rfl | hc
  · decide
  · decide
  · decide
  · contradiction

section

variable (hkeys : Foreign keys functionKeywords)

include hkeys

theorem calm_space_qualified (function : Function) (body : List Char) :
    calm (' ' :: (function.qualified ++ '{' :: body)) := by
  have hoptions := function.isOption_of_mem_options hpasses.reserved hkeys.tail.tail
  unfold Function.qualified
  rw [List.append_assoc]
  exact hpasses.calm_space_spacedWords hoptions (hpasses.calm_space_resultsClause _ body)

/-- Over the header of a function, if the shape reads nothing at its visibility. -/
theorem quiet_header (function : Function) (body : List Char)
    (hvisibility : ∀ before, shape before (function.visibility.keyword.toList ++
      ' ' :: (function.qualified ++ '{' :: body)) = none) :
    Quiet shape function.header ('{' :: body) := by
  have hoptions : Quiet shape (spacedWords function.options)
      (resultsClause function.results ++ '{' :: body) :=
    hpasses.quiet_spacedWords (function.isOption_of_mem_options hpasses.reserved hkeys.tail.tail)
      (hpasses.calm_space_resultsClause function.results _)
  have hresults : Quiet shape (resultsClause function.results) ('{' :: body) :=
    hpasses.quiet_resultsClause (hkeys.notMem (by decide)) function.results _
  have hfirst : Quiet shape function.visibility.keyword.toList
      (' ' :: function.qualified ++ '{' :: body) :=
    hpasses.quiet_run (isName_keyword function.visibility).toIsRun hvisibility
  rw [Function.header_eq]
  exact hpasses.quiet_mark_cons (by decide) (Quiet.append hfirst
    (hpasses.quiet_mark_cons (by decide) (Quiet.append hoptions hresults)))

/-- Over the line of a function, if the shape reads nothing at its visibility. -/
theorem quiet_functionLine (layout : Layout) (function : Function)
    (hvisibility : ∀ body before, shape before (function.visibility.keyword.toList ++
      ' ' :: (function.qualified ++ '{' :: body)) = none) (rest : List Char) :
    Quiet shape (function.line layout) rest := by
  have hinputs := passable_of_mem_map hpasses.passable_input function.inputs
  have hheader : Quiet shape function.header (['{'] ++ (layout.body ++ rest)) :=
    hpasses.quiet_header hkeys function _ (hvisibility _)
  have hbrace : Quiet shape ['{'] (layout.body ++ rest) := hpasses.quiet_mark (by decide) _
  have hopening : Quiet shape function.opening (layout.body ++ rest) :=
    hpasses.quiet_keyword_name (by decide) (hkeys.notMem (by decide)) _
      (hpasses.quiet_enclosed hinputs (Quiet.append hheader hbrace))
      (markNext_cons (by decide) _) (hpasses.calm_mark (by decide) _)
  exact Quiet.append hopening (hpasses.quiet_body layout rest)

end

/-! ## State variables -/

/-- From the name of a variable to the end of its statement. -/
theorem quiet_named (declaration : Variable) (rest : List Char) :
    Quiet shape declaration.named rest := by
  have hend : Quiet shape [';'] rest := hpasses.quiet_mark (by decide) rest
  have hname := hpasses.passable_identifier declaration.name
  unfold Variable.named
  cases declaration.value with
  | none =>
      exact Quiet.append
        (hname (markNext_cons (by decide) _) (hpasses.calm_mark (by decide) _)) hend
  | some value =>
      have hfree : String.ofList value.chars ∉ keys := fun hkey =>
        value.notMem_reservedWords (hpasses.reserved _ hkey)
      have hvalue : Quiet shape value.chars ([';'] ++ rest) :=
        hpasses.quiet_word value.isRun hfree (markNext_cons (by decide) _)
          (hpasses.calm_mark (by decide) _)
      exact Quiet.append
        (hname (markNext_cons (by decide) _) (hpasses.calm_space_mark (by decide) _))
        (Quiet.append (hpasses.quiet_mark_cons (by decide) (hpasses.quiet_mark_cons (by decide)
          (hpasses.quiet_mark_cons (by decide) hvalue))) hend)

/-- Over the line of a variable, if the shape reads nothing at its visibility.  A shape for
which this holds needs no calm. -/
theorem quiet_variableLine (hcalm : ∀ rest, calm rest) (hconstant : "constant" ∉ keys)
    (declaration : Variable)
    (hvisibility : ∀ rest before, shape before (declaration.visibility.keyword.toList ++
      ' ' :: (declaration.qualified ++ rest)) = none) (rest : List Char) :
    Quiet shape declaration.line rest := by
  have hnamed := hpasses.quiet_named declaration (['\n'] ++ rest)
  have hqualified : Quiet shape declaration.qualified (['\n'] ++ rest) := by
    unfold Variable.qualified
    cases declaration.isConstant with
    | false => exact hnamed
    | true =>
        have hword : Quiet shape "constant".toList (' ' :: declaration.named ++ (['\n'] ++ rest)) :=
          hpasses.passable_keyword (by decide) hconstant (markNext_cons (by decide) _) (hcalm _)
        exact Quiet.append (Quiet.append hword (hpasses.quiet_mark (by decide) _)) hnamed
  have htype : Quiet shape declaration.type.chars (' ' :: (declaration.visibility.keyword.toList ++
      ' ' :: declaration.qualified) ++ (['\n'] ++ rest)) :=
    hpasses.passable_type declaration.type (markNext_cons (by decide) _) (hcalm _)
  have hvisible : Quiet shape declaration.visibility.keyword.toList
      (' ' :: declaration.qualified ++ (['\n'] ++ rest)) :=
    hpasses.quiet_run (isName_keyword declaration.visibility).toIsRun (hvisibility _)
  have hstatement : Quiet shape declaration.statement (['\n'] ++ rest) :=
    Quiet.append htype (hpasses.quiet_mark_cons (by decide)
      (Quiet.append hvisible (hpasses.quiet_mark_cons (by decide) hqualified)))
  exact Quiet.append hstatement (hpasses.quiet_mark (by decide) rest)

/-! ## Blocks of lines -/

theorem visibility_eq_none (hcalm : ∀ rest, calm rest) {visibility : Visibility}
    (hvisibility : visibility.keyword ∉ keys) (rest : List Char) (before : Option Char) :
    shape before (visibility.keyword.toList ++ ' ' :: rest) = none :=
  hpasses.word (isName_keyword visibility).toIsRun (by rwa [String.ofList_toList])
    (markNext_cons (by decide) _) (hcalm _) before

theorem quiet_variableLines (hcalm : ∀ rest, calm rest) (hconstant : "constant" ∉ keys)
    (hvisibility : ∀ visibility : Visibility, visibility.keyword ∉ keys) (source : Source)
    (rest : List Char) : Quiet shape source.variableLines rest :=
  Quiet.flatMap (fun declaration _ => hpasses.quiet_variableLine hcalm hconstant declaration
    fun _ => hpasses.visibility_eq_none hcalm (hvisibility _) _) rest

theorem quiet_eventLines (hkeys : Foreign keys eventKeywords) (source : Source)
    (rest : List Char) : Quiet shape source.eventLines rest :=
  Quiet.flatMap (fun event _ => hpasses.quiet_eventLine hkeys event) rest

theorem quiet_modifierLines (hmodifier : "modifier" ∉ keys) (source : Source) (rest : List Char) :
    Quiet shape source.modifierLines rest :=
  Quiet.flatMap (fun modifier _ => hpasses.quiet_modifierLine hmodifier modifier) rest

section

variable (hvisibility : ∀ (function : Function) body before, shape before
  (function.visibility.keyword.toList ++ ' ' :: (function.qualified ++ '{' :: body)) = none)

include hvisibility

theorem quiet_functionLines (hkeys : Foreign keys functionKeywords) (source : Source)
    (layout : Layout) (rest : List Char) : Quiet shape (source.functionLines layout) rest :=
  Quiet.flatMap (fun function _ =>
    hpasses.quiet_functionLine hkeys layout function (hvisibility function)) rest

/-- Over everything behind the state variables. -/
theorem quiet_members (hkeys : Foreign keys memberKeywords) (source : Source) (layout : Layout) :
    Quiet shape (source.members layout) [] := by
  have hevent : Foreign keys eventKeywords := fun key hkey hword =>
    hkeys key hkey (List.mem_append_left _ hword)
  have hothers : Foreign keys ("modifier" :: functionKeywords) := fun key hkey hword =>
    hkeys key hkey (List.mem_append_right _ hword)
  exact Quiet.append (hpasses.quiet_eventLines hevent source _)
    (Quiet.append (hpasses.quiet_modifierLines (hothers.notMem (by decide)) source _)
      (Quiet.append (hpasses.quiet_functionLines hvisibility hothers.tail source layout _)
        (hpasses.quiet_closing layout _)))

end

/-- No canonical source holds the word `pragma`, so a shape that is led by nothing else
passes over the whole text. -/
theorem quiet_text (hcalm : ∀ rest, calm rest) (hkeys : ∀ key ∈ keys, key = "pragma")
    (source : Source) (layout : Layout) : Quiet shape (source.text layout) [] := by
  have hfree : ∀ word, word ≠ "pragma" → word ∉ keys := fun word hne hmem => hne (hkeys word hmem)
  have hforeign : ∀ words, "pragma" ∉ words → Foreign keys words := fun words hpragma key hkey =>
    hkeys key hkey ▸ hpragma
  have hvisibility : ∀ visibility : Visibility, visibility.keyword ∉ keys := by
    rintro ⟨⟩ <;> exact hfree _ (by decide)
  have hmembers : Quiet shape (source.members layout) [] :=
    hpasses.quiet_members (fun _ _ => hpasses.visibility_eq_none hcalm (hvisibility _) _)
      (hforeign _ (by decide)) source layout
  exact Quiet.append (hpasses.quiet_heading (hforeign _ (by decide)) source _)
    (Quiet.append
      (hpasses.quiet_variableLines hcalm (hfree _ (by decide)) hvisibility source _) hmembers)

end Passes

end ContractAtlas.Canonical
