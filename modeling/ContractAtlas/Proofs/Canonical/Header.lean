import ContractAtlas.Proofs.Canonical.Lines
import ContractAtlas.Proofs.Canonical.Lists
import ContractAtlas.Proofs.Canonical.Shapes
import ContractAtlas.Proofs.Source.HeaderItems

/-!
# Reading the headers of canonical functions

The header of a canonical function is made of items in a fixed order: its visibility, its
mutability, its modifiers and its results.  Each item has a space behind it, so the header says
what the items say.
-/

namespace ContractAtlas.Canonical

open ContractAtlas.Source ContractAtlas.Text

/-- A name that is no keyword names a modifier. -/
def Identifier.modifierName (identifier : Identifier) : ModifierName where
  name := identifier.name
  starts := identifier.starts
  continues := identifier.continues
  free := by
    have hreserved : ∀ word ∈ headerKeywords, word ∈ reservedWords := by decide
    exact fun hmem => identifier.free (hreserved _ hmem)

theorem closing_notMem (results : List Result) : ')' ∉ commaSeparated (results.map (·.chars)) :=
  notMem_commaSeparated (isItem_of_mem_map Result.isItem results) (by decide)

def enclosedResults (results : List Result) : ResultsClause where
  space := [' ']
  list := commaSeparated (results.map (·.chars))
  blank := isBlank_of_mem_space
  closing := closing_notMem results

/-- A space stands behind the results clause too. -/
theorem resultsClause_some (results : List Result) : resultsClause (some results) =
    (HeaderItem.results (enclosedResults results)).chars ++ [' '] := by
  unfold resultsClause
  rw [HeaderItem.chars_results]
  unfold enclosedResults
  simp only [List.append_assoc, List.cons_append, List.nil_append]

namespace Function

variable (function : Function)

theorem isOption_returns : ∀ word ∈ function.options, IsOption ["returns"] word :=
  function.isOption_of_mem_options passes_resultsShape.reserved (by decide)

theorem isName_of_mem_words : ∀ word ∈ function.words, IsName word :=
  List.forall_mem_cons.mpr ⟨isName_keyword function.visibility, fun word hword =>
    (function.isOption_returns word hword).toIsName⟩

/-- The items of a header. -/
def items : List HeaderItem :=
  .visibility function.visibility :: ((function.mutability.map .mutability).toList ++
    (function.modifiers.map (fun identifier => .modifier identifier.modifierName none) ++
      (function.results.map fun results => .results (enclosedResults results)).toList))

theorem header_eq_flatMap :
    function.header = ' ' :: function.items.flatMap (fun item => item.chars ++ [' ']) := by
  have hmutability : (function.mutability.map (·.keyword.toList)).toList.flatMap (· ++ [' ']) =
      (function.mutability.map HeaderItem.mutability).toList.flatMap (·.chars ++ [' ']) := by
    cases function.mutability <;> simp [HeaderItem.chars, HeaderItem.word, HeaderItem.tail]
  have hmodifiers : (function.modifiers.map (·.chars)).flatMap (· ++ [' ']) =
      (function.modifiers.map fun identifier => HeaderItem.modifier identifier.modifierName
        none).flatMap (·.chars ++ [' ']) := by
    simp only [List.flatMap_map, HeaderItem.chars, HeaderItem.word, HeaderItem.tail,
      enclosedArguments, List.append_nil]
    rfl
  have hresults : resultsClause function.results = (function.results.map fun results =>
      HeaderItem.results (enclosedResults results)).toList.flatMap (·.chars ++ [' ']) := by
    cases function.results with
    | none => rfl
    | some results =>
        rw [Option.map_some, Option.toList_some, List.flatMap_singleton, resultsClause_some]
  have hvisibility : (HeaderItem.visibility function.visibility).chars =
      function.visibility.keyword.toList := List.append_nil _
  rw [header, hresults, words, options, spacedWords, items, List.flatMap_cons, List.flatMap_cons,
    List.flatMap_append, List.flatMap_append, List.flatMap_append, hmutability, hmodifiers,
    hvisibility]
  simp only [List.append_assoc]

/-- The items of a header, seen through a reading of single items. -/
theorem filterMap_items {β : Type} (f : HeaderItem → Option β) :
    function.items.filterMap f = (f (.visibility function.visibility)).toList ++
      ((function.mutability.bind fun mutability => f (.mutability mutability)).toList ++
        (function.modifiers.filterMap (fun identifier =>
            f (.modifier identifier.modifierName none)) ++
          (function.results.bind fun results =>
            f (.results (enclosedResults results))).toList)) := by
  have hcons : ∀ item rest, (item :: rest).filterMap f = (f item).toList ++ rest.filterMap f := by
    intro item rest
    rw [List.filterMap_cons]
    cases f item <;> rfl
  have hoption : ∀ item : Option HeaderItem, item.toList.filterMap f = (item.bind f).toList := by
    rintro (_ | item)
    · rfl
    · exact (hcons item []).trans (List.append_nil _)
  rw [items, hcons, List.filterMap_append, List.filterMap_append, List.filterMap_map, hoption,
    hoption, Option.bind_map, Option.bind_map]
  rfl

theorem visibilities_items :
    function.items.filterMap HeaderItem.visibility? = [function.visibility] := by
  simp [filterMap_items, HeaderItem.visibility?]

theorem mutabilities_items :
    function.items.filterMap HeaderItem.mutability? = function.mutability.toList := by
  simp [filterMap_items, HeaderItem.mutability?]

theorem results_items : function.items.filterMap HeaderItem.results? =
    (function.results.map enclosedResults).toList := by
  cases hresults : function.results <;> simp [filterMap_items, HeaderItem.results?, hresults]

theorem modifiers_items : function.items.filterMap HeaderItem.modifier? =
    function.modifiers.map (·.name) := by
  simp [filterMap_items, HeaderItem.modifier?, Identifier.modifierName]

theorem atMostOnce_items : AtMostOnce function.items where
  visibility := by
    rw [visibilities_items]
    exact Nat.le_refl 1
  mutability := by
    rw [mutabilities_items]
    exact Option.length_toList_le
  results := by
    rw [results_items]
    exact Option.length_toList_le

theorem headerOfItems_items : headerOfItems function.items =
    { visibility := function.visibility
      mutability := function.mutability.getD .nonpayable
      outputs := (function.results.getD []).map (·.declared)
      modifiers := (function.modifiers.map (·.name)).eraseDups } := by
  have houtputs : ((function.results.map enclosedResults).map fun clause =>
      parameters clause.list).getD [] = (function.results.getD []).map (·.declared) := by
    cases function.results with
    | none => rfl
    | some results => exact parameters_results results
  rw [headerOfItems, visibilities_items, mutabilities_items, results_items, modifiers_items,
    Option.head?_toList, Option.head?_toList, houtputs, List.head?_cons, Option.getD_some]

/-- A header is read as it was written. -/
theorem functionHeader_header : functionHeader function.header =
    { visibility := function.visibility
      mutability := function.mutability.getD .nonpayable
      outputs := (function.results.getD []).map (·.declared)
      modifiers := (function.modifiers.map (·.name)).eraseDups } := by
  have hspells := (spells_flatMap_space function.items).append_left isBlank_of_mem_space
  rw [List.singleton_append, ← function.header_eq_flatMap] at hspells
  rw [functionHeader_eq_headerOfItems function.atMostOnce_items hspells, headerOfItems_items]

end Function

end ContractAtlas.Canonical
