import ContractAtlas.Proofs.Extraction
import ContractAtlas.Proofs.Source.Scan
import Mathlib.Data.Option.Basic

/-!
# Words that become keywords

The visibility and the mutability of a declaration are read as words: from the words of a
function's header, from the fields and flags of an entry, or from the front of a variable's
statement.  A reader takes a word only if it is one of the keywords, and has one of them in
reserve.  What it takes is therefore always the keyword of what the declaration holds.
-/

namespace ContractAtlas

/-- The first of several words that is known, or the word held in reserve. -/
def firstKnown (known words : List String) (reserve : String) : String :=
  (words.find? (known.contains ·)).getD reserve

/-- To look for the first word that means something is to look for the first known word. -/
theorem spell_getD_findSome? {α : Type} (all : List α) (spell : α → String)
    (words : List String) (reserve : α) :
    spell ((words.findSome? fun word => all.find? (spell · == word)).getD reserve) =
      firstKnown (all.map spell) words (spell reserve) := by
  rw [firstKnown]
  induction words with
  | nil => rfl
  | cons word rest ih =>
      cases hfind : all.find? (spell · == word) with
      | none =>
          have hunknown : word ∉ all.map spell := by
            rw [List.find?_eq_none] at hfind
            rintro hmem
            obtain ⟨meaning, hmeaning, rfl⟩ := List.mem_map.mp hmem
            exact hfind meaning hmeaning (beq_self_eq_true _)
          rw [List.findSome?_cons, hfind, List.find?_cons_of_neg (by simpa using hunknown)]
          exact ih
      | some meaning =>
          have hspell : spell meaning = word := by
            simpa using List.find?_some hfind
          have hknown : word ∈ all.map spell :=
            List.mem_map.mpr ⟨meaning, List.mem_of_find?_eq_some hfind, hspell⟩
          rw [List.findSome?_cons, hfind, List.find?_cons_of_pos (by simpa using hknown)]
          exact hspell

def Visibility.known : List String := Visibility.all.map Visibility.keyword

def Mutability.known : List String := Mutability.all.map Mutability.keyword

/-! ## Headers of functions -/

namespace Source

/-- The word of a header that says from where the function can be reached. -/
def visibilityWord (header : List Char) : String :=
  firstKnown Visibility.known (headerWords (splitResults header).2) "public"

/-- The word of a header that says what the function may do. -/
def mutabilityWord (header : List Char) : String :=
  firstKnown Mutability.known (headerWords (splitResults header).2) "nonpayable"

theorem keywords_functionHeader (header : List Char) :
    (functionHeader header).visibility.keyword = visibilityWord header ∧
      (functionHeader header).mutability.keyword = mutabilityWord header :=
  ⟨spell_getD_findSome? Visibility.all Visibility.keyword _ .publicly,
    spell_getD_findSome? Mutability.all Mutability.keyword _ .nonpayable⟩

end Source

/-! ## Entries of an interface list -/

namespace Interface

/-- The word in a field of an entry, if a string is there. -/
def statedWords (name : String) (entry : Json) : List String :=
  (entry.field? name >>= Json.string?).toList

def visibilityWord (entry : Json) : String :=
  firstKnown Visibility.known (statedWords "visibility" entry) "public"

/-- What the flags of an old list stand for. -/
def flagWord (constant payable : Option Bool) : String :=
  if payable = some true then "payable" else if constant = some true then "view" else "nonpayable"

def mutabilityWord (entry : Json) (constant payable : Option Bool) : String :=
  firstKnown Mutability.known (statedWords "stateMutability" entry) (flagWord constant payable)

theorem findSome?_statedWords {α : Type} (name : String) (ofKeyword? : String → Option α)
    (entry : Json) :
    (statedWords name entry).findSome? ofKeyword? = entryKeyword? name ofKeyword? entry := by
  rw [statedWords, entryKeyword?]
  cases entry.field? name >>= Json.string? with
  | none => rfl
  | some word => cases hword : ofKeyword? word <;> simp [hword]

theorem keyword_visibility (entry : Json) :
    ((entryKeyword? "visibility" Visibility.ofKeyword? entry).getD .publicly).keyword =
      visibilityWord entry := by
  rw [← findSome?_statedWords]
  exact spell_getD_findSome? Visibility.all Visibility.keyword _ .publicly

theorem keyword_mutability (entry : Json) (constant payable : Option Bool) :
    (entryMutability (entryKeyword? "stateMutability" Mutability.ofKeyword? entry) constant
      payable).keyword = mutabilityWord entry constant payable := by
  have hflag : (if payable = some true then Mutability.payable
      else if constant = some true then .view else .nonpayable).keyword =
        flagWord constant payable := by
    rw [flagWord, apply_ite Mutability.keyword, apply_ite Mutability.keyword]
    rfl
  rw [entryMutability, ← findSome?_statedWords, mutabilityWord, ← hflag]
  exact spell_getD_findSome? Mutability.all Mutability.keyword _ _

end Interface

/-! ## Statements of state variables -/

namespace Source

variable {text rest : List Char}

theorem storageVisibility?_eq_some {visibility : Visibility}
    (hread : storageVisibility? text = some (visibility, rest)) :
    text = visibility.keyword.toList ++ rest := by
  rw [storageVisibility?] at hread
  obtain ⟨candidate, -, hcandidate⟩ := List.exists_of_findSome?_eq_some hread
  obtain ⟨left, hafter, hpair⟩ := Option.map_eq_some_iff.mp hcandidate
  obtain ⟨rfl, rfl⟩ := Prod.mk.inj hpair
  exact eq_append_of_after? hafter

/-- A visibility is read from a word that stands in a text. -/
def ReadsVisibility (text : List Char) (visibility : Visibility) (word : String) : Prop :=
  ∃ place rest, place <:+ text ∧ storageVisibility? place = some (visibility, rest) ∧
    word = String.ofList (readPart place rest)

theorem ReadsVisibility.keyword {visibility : Visibility} {word : String}
    (hreads : ReadsVisibility text visibility word) : visibility.keyword = word := by
  obtain ⟨place, rest, -, hread, rfl⟩ := hreads
  rw [storageVisibility?_eq_some hread, readPart, List.length_append, Nat.add_sub_cancel,
    List.take_left, String.ofList_toList]

theorem ReadsVisibility.of_suffix {visibility : Visibility} {word : String}
    (hreads : ReadsVisibility rest visibility word) (hsuffix : rest <:+ text) :
    ReadsVisibility text visibility word := by
  obtain ⟨place, left, hplace, hread⟩ := hreads
  exact ⟨place, left, hplace.trans hsuffix, hread⟩

theorem suffix_of_blanks? (hblanks : blanks? text = some rest) : rest <:+ text := by
  cases text with
  | nil => contradiction
  | cons c tail =>
      rw [blanks?] at hblanks
      split at hblanks
      · rw [← Option.some.inj hblanks]
        exact (List.dropWhile_suffix _).trans (List.suffix_cons c tail)
      · contradiction

theorem suffix_of_after? {word : String} (hafter : after? word text = some rest) :
    rest <:+ text :=
  eq_append_of_after? hafter ▸ List.suffix_append _ _

theorem suffix_of_mark? {mark : Char} (hmark : mark? mark text = some rest) : rest <:+ text :=
  length_mark? hmark ▸ List.suffix_cons mark rest

/-- Whatever qualifier is read, the tail keeps the visibility that was read before it. -/
theorem exists_word_of_variableTail? {tail : VariableTail}
    (htail : variableTail? text = some (tail, rest)) :
    ∃ word, ReadsVisibility text tail.visibility word := by
  simp only [variableTail?, Option.bind_eq_bind, Option.bind_eq_some_iff, Option.orElse_eq_some,
    Option.pure_def, Option.some.injEq, Prod.mk.injEq] at htail
  obtain ⟨place, hblanks, ⟨visibility, behind⟩, hvisibility, after, -, hfinish⟩ := htail
  have hkept : tail.visibility = visibility := by
    rcases hfinish with ⟨_, -, _, -, rfl, -⟩ | ⟨-, ⟨_, -, _, -, rfl, -⟩ | ⟨-, _, -, rfl, -⟩⟩ <;>
      rfl
  rw [hkept]
  exact ⟨_, place, behind, suffix_of_blanks? hblanks, hvisibility, rfl⟩

theorem suffix_of_afterBrackets? (hbrackets : afterBrackets? text = some rest) :
    rest <:+ text := by
  simp only [afterBrackets?, Option.bind_eq_bind, Option.bind_eq_some_iff] at hbrackets
  obtain ⟨inside, hopen, hclose⟩ := hbrackets
  exact (suffix_of_mark? hclose).trans <| (List.dropWhile_suffix _).trans <|
    (suffix_of_mark? hopen).trans (List.dropWhile_suffix _)

theorem afterAllBrackets_suffix (text : List Char) : afterAllBrackets text <:+ text := by
  fun_induction afterAllBrackets text with
  | case1 text rest hrest _ ih => exact ih.trans (suffix_of_afterBrackets? hrest)
  | case2 text hnone => exact List.suffix_refl text

theorem exists_word_of_plainVariable? {tail : VariableTail} {type : List Char}
    (hread : plainVariable? text = some (tail, type, rest)) :
    ∃ word, ReadsVisibility text tail.visibility word := by
  simp only [plainVariable?, Option.bind_eq_bind, Option.bind_eq_some_iff] at hread
  obtain ⟨c, -, hread⟩ := hread
  split at hread
  · obtain ⟨⟨read, left⟩, htail, hpair⟩ := Option.bind_eq_some_iff.mp hread
    obtain ⟨rfl, -⟩ := Prod.mk.inj (Option.some.inj hpair)
    obtain ⟨word, hword⟩ := exists_word_of_variableTail? htail
    exact ⟨word, hword.of_suffix ((afterAllBrackets_suffix _).trans (List.dropWhile_suffix _))⟩
  · contradiction

theorem exists_word_of_mappingTail? {tail : VariableTail} {behind : List Char}
    (hread : mappingTail? text = some (tail, behind, rest)) :
    ∃ word, ReadsVisibility text tail.visibility word := by
  induction text with
  | nil => contradiction
  | cons c more ih =>
      have hlater : mappingTail? more = some (tail, behind, rest) →
          ∃ word, ReadsVisibility (c :: more) tail.visibility word := by
        intro hmore
        obtain ⟨word, hword⟩ := ih hmore
        exact ⟨word, hword.of_suffix (List.suffix_cons c more)⟩
      rw [mappingTail?] at hread
      split at hread
      · contradiction
      split at hread
      · split at hread
        next read left htail =>
          obtain ⟨rfl, -⟩ := Prod.mk.inj (Option.some.inj hread)
          obtain ⟨word, hword⟩ := exists_word_of_variableTail? htail
          exact ⟨word, hword.of_suffix (List.suffix_cons c more)⟩
        next => exact hlater hread
      · exact hlater hread

theorem exists_word_of_mappingVariable? {tail : VariableTail} {type : List Char}
    (hread : mappingVariable? text = some (tail, type, rest)) :
    ∃ word, ReadsVisibility text tail.visibility word := by
  simp only [mappingVariable?, Option.bind_eq_bind, Option.bind_eq_some_iff] at hread
  obtain ⟨behind, hafter, inside, hopen, ⟨read, left⟩, htail, hpair⟩ := hread
  obtain ⟨rfl, -⟩ := Prod.mk.inj (Option.some.inj hpair)
  obtain ⟨word, hword⟩ := exists_word_of_mappingTail? htail
  exact ⟨word, hword.of_suffix <| (suffix_of_mark? hopen).trans <|
    (List.dropWhile_suffix _).trans (suffix_of_after? hafter)⟩

theorem exists_word_of_typeFirstShape {before : Option Char} {parts : VariableParts}
    (hread : typeFirstShape before text = some (parts, rest)) :
    ∃ word, ReadsVisibility text parts.visibility word := by
  rw [typeFirstShape] at hread
  split at hread
  · contradiction
  simp only [Option.bind_eq_bind, Option.bind_eq_some_iff, Option.orElse_eq_some,
    Option.pure_def, Option.some.injEq, Prod.mk.injEq] at hread
  obtain ⟨⟨tail, type, left⟩, htail, rfl, -⟩ := hread
  rcases htail with hmapping | ⟨-, hplain⟩
  · exact exists_word_of_mappingVariable? hmapping
  · exact exists_word_of_plainVariable? hplain

theorem exists_word_of_visibilityFirstShape {before : Option Char} {parts : VariableParts}
    (hread : visibilityFirstShape before text = some (parts, rest)) :
    ∃ word, ReadsVisibility text parts.visibility word := by
  rw [visibilityFirstShape] at hread
  split at hread
  · contradiction
  simp only [Option.bind_eq_bind, Option.bind_eq_some_iff, Option.orElse_eq_some,
    Option.pure_def, Option.some.injEq, Prod.mk.injEq] at hread
  obtain ⟨⟨visibility, behind⟩, hvisibility, after, -, hfinish⟩ := hread
  have hkept : parts.visibility = visibility := by
    rcases hfinish with ⟨_, -, _, -, rfl, -⟩ | ⟨-, _, -, rfl, -⟩ <;> rfl
  rw [hkept]
  exact ⟨_, text, behind, List.suffix_refl text, hvisibility, rfl⟩

/-- The visibility of a state variable was read from a word of the text. -/
theorem exists_word_of_mem_stateVariables {declaration : VariableDeclaration}
    (hdeclaration : declaration ∈ stateVariables text) :
    ∃ word, ReadsVisibility text declaration.visibility word := by
  obtain ⟨found, hfound, rfl⟩ := List.mem_map.mp hdeclaration
  rcases List.mem_merge.mp hfound with htypeFirst | hvisibilityFirst
  · obtain ⟨_, place, left, hplace, hread⟩ :=
      exists_read_of_mem_occurrencesFrom (List.mem_of_mem_filter htypeFirst)
    obtain ⟨word, hword⟩ := exists_word_of_typeFirstShape hread
    exact ⟨word, hword.of_suffix hplace⟩
  · obtain ⟨_, place, left, hplace, hread⟩ :=
      exists_read_of_mem_occurrencesFrom (List.mem_of_mem_filter hvisibilityFirst)
    obtain ⟨word, hword⟩ := exists_word_of_visibilityFirstShape hread
    exact ⟨word, hword.of_suffix hplace⟩

end Source

end ContractAtlas
