import ContractAtlas.Proofs.Extraction
import ContractAtlas.Proofs.Source.Placement
import ContractAtlas.Proofs.Source.VariableOrders

/-!
# Keywords in the place of types and names

Nothing in the statement of a state variable keeps a keyword from being read as the type or as
the name of the variable.  It is read so only as a last resort: if the piece of text that was
read is a statement with a type and a name that are no keywords, in either of the two orders, then
these are the type and the name that are reported (`keywordFree_iff_of_ofSource`).  A piece that
begins with a qualifier in front of the visibility is no such statement.
-/

namespace ContractAtlas

open Source

/-- The keywords that stand in statements of state variables. -/
def variableKeywords : List String :=
  ["public", "private", "internal", "constant", "immutable", "override"]

/-- Neither the type nor the name of a variable is a keyword. -/
def VariableDeclaration.KeywordFree (declaration : VariableDeclaration) : Prop :=
  declaration.type ∉ variableKeywords ∧ declaration.name ∉ variableKeywords

instance (declaration : VariableDeclaration) : Decidable declaration.KeywordFree :=
  inferInstanceAs (Decidable (_ ∧ _))

namespace Source

variable {piece : List Char} {parts other : VariableParts} {text : List Char}

/-- A piece of text is the statement of a variable, in one of the two orders. -/
def Declares (piece : List Char) (parts : VariableParts) : Prop :=
  TypeFirst piece parts ∨ VisibilityFirst piece parts

def VariableParts.KeywordFree (parts : VariableParts) : Prop :=
  String.ofList parts.type ∉ variableKeywords ∧ String.ofList parts.name ∉ variableKeywords

theorem not_keywordFree_of_type {visibility : Visibility} (hstored : visibility ≠ .externally)
    (htype : parts.type = visibility.keyword.toList) : ¬ parts.KeywordFree := by
  have hkeyword : ∀ visibility : Visibility, visibility ≠ .externally →
      visibility.keyword ∈ variableKeywords := by
    rintro ⟨⟩ <;> decide
  rintro ⟨hfree, -⟩
  rw [htype, String.ofList_toList] at hfree
  exact hfree (hkeyword visibility hstored)

/-- Without keywords a piece is the statement of one variable only. -/
theorem Declares.eq_of_keywordFree (hparts : Declares piece parts) (hother : Declares piece other)
    (hfree : other.KeywordFree) : parts = other := by
  rcases hparts with hparts | hparts <;> rcases hother with hother | hother
  · exact hparts.unique hother
  · obtain ⟨-, visibility, hstored, htype⟩ := type_of_both_orders hparts hother
    exact absurd hfree (not_keywordFree_of_type hstored htype)
  · obtain ⟨⟨visibility, hstored, htype⟩, -⟩ := type_of_both_orders hother hparts
    exact absurd hfree (not_keywordFree_of_type hstored htype)
  · exact hparts.unique hother

theorem Declares.keywordFree_iff (hparts : Declares piece parts) :
    parts.KeywordFree ↔ ∃ other, Declares piece other ∧ other.KeywordFree := by
  constructor
  · exact fun hfree => ⟨parts, hparts, hfree⟩
  · rintro ⟨other, hother, hfree⟩
    exact hparts.eq_of_keywordFree hother hfree ▸ hfree

/-- What a found variable says is what the piece of text from its start to its end declares. -/
theorem exists_declares_of_mem {found : Occurrence VariableParts}
    (hfound : found ∈ variableOccurrences text) : ∃ front piece rest,
      text = front ++ (piece ++ rest) ∧ Declares piece found.value ∧
        found = ⟨front.length, front.length + piece.length, found.value⟩ := by
  rcases isVariableStatement_of_mem hfound with hreads | hreads
  · obtain ⟨front, piece, rest, htext, -, hread, hstart, hstop⟩ := hreads
    obtain ⟨-, other, hother, heq⟩ := typeFirstShape_eq_some_iff.mp hread
    obtain rfl := List.append_cancel_right heq
    exact ⟨front, piece, rest, htext, .inl hother, by rw [← hstop, ← hstart]⟩
  · obtain ⟨front, piece, rest, htext, -, hread, hstart, hstop⟩ := hreads
    obtain ⟨-, other, hother, heq⟩ := visibilityFirstShape_eq_some_iff.mp hread
    obtain rfl := List.append_cancel_right heq
    exact ⟨front, piece, rest, htext, .inr hother, by rw [← hstop, ← hstart]⟩

end Source

namespace Extraction

/-- A variable is reported with a keyword for its type or its name only if the piece of text
that declares it cannot be read without one.  If it can, then in one way, and so it is read. -/
theorem keywordFree_iff_of_ofSource {text : String} {extraction : Extraction}
    (hextract : ofSource text = .ok extraction) :
    ∀ declaration ∈ extraction.stateVariables, ∃ front piece rest parts,
      text.toList = front ++ (piece ++ rest) ∧ Declares piece parts ∧
        declaration = declaredVariable ⟨front.length, front.length + piece.length, parts⟩ ∧
        (declaration.KeywordFree ↔ ∃ other, Declares piece other ∧ other.KeywordFree) ∧
        ∀ other, Declares piece other → other.KeywordFree → parts = other := by
  rw [ofDeclarations_eq_ok (ofDeclarations_of_ofSource hextract)]
  intro declaration hdeclaration
  obtain ⟨found, hfound, rfl⟩ := List.mem_map.mp hdeclaration
  obtain ⟨front, piece, rest, htext, hdeclares, hplace⟩ := exists_declares_of_mem hfound
  exact ⟨front, piece, rest, found.value, htext, hdeclares, congrArg declaredVariable hplace,
    hdeclares.keywordFree_iff, fun _ => hdeclares.eq_of_keywordFree⟩

/-- One variable in a known order, and one whose qualifier stands in front of the visibility. -/
def misplacedConstant : String :=
  "contract Vault \x7b uint256 public total; uint256 constant public FEE = 5; \x7d"

/-- The variables of the text, as they are reported. -/
def misplacedVariables : List VariableDeclaration :=
  [{ name := "total", type := "uint256", visibility := .publicly, offset := 17 },
    { name := "FEE", type := "constant", visibility := .publicly, offset := 47,
      initialValue := some "5" }]

theorem stateVariables_misplacedConstant :
    Source.stateVariables misplacedConstant.toList = misplacedVariables := by
  have hnone : Source.occurrences Source.visibilityFirstShape misplacedConstant.toList = [] := by
    decide +kernel
  rw [Source.stateVariables, Source.variableOccurrences_of_visibilityFirst_eq_nil hnone]
  decide +kernel

theorem exists_ofSource_misplacedConstant :
    ∃ extraction, ofSource misplacedConstant = .ok extraction ∧
      extraction.stateVariables = misplacedVariables := by
  have hread : (ofSource misplacedConstant).map Extraction.stateVariables =
      .ok misplacedVariables := by
    rw [map_ofSource_of_stateVariables stateVariables_misplacedConstant]
    decide +kernel
  exact exists_of_map_eq_ok hread

theorem keywordFree_iff_misplacedConstant :
    ∃ extraction, ofSource misplacedConstant = .ok extraction ∧
      (∃ declaration ∈ extraction.stateVariables, declaration.KeywordFree) ∧
      ∃ declaration ∈ extraction.stateVariables, ∃ front piece rest,
        misplacedConstant.toList = front ++ (piece ++ rest) ∧ declaration.offset = front.length ∧
          ¬ ∃ other, Declares piece other ∧ other.KeywordFree := by
  obtain ⟨extraction, hextract, hvariables⟩ := exists_ofSource_misplacedConstant
  have hread := keywordFree_iff_of_ofSource hextract
  rw [hvariables] at hread
  refine ⟨extraction, hextract, ?_⟩
  rw [hvariables]
  refine ⟨⟨_, List.mem_cons_self, by decide⟩, _, List.mem_cons_of_mem _ List.mem_cons_self, ?_⟩
  obtain ⟨front, piece, rest, parts, htext, -, hdeclared, hiff, -⟩ :=
    hread _ (List.mem_cons_of_mem _ List.mem_cons_self)
  refine ⟨front, piece, rest, htext, congrArg VariableDeclaration.offset hdeclared, ?_⟩
  rw [← hiff]
  decide

/-- The word `constant` is reported as the type of the second variable. -/
theorem not_keywordFree_misplacedConstant :
    ∃ extraction, ofSource misplacedConstant = .ok extraction ∧
      ¬ ∀ declaration ∈ extraction.stateVariables, declaration.KeywordFree := by
  obtain ⟨extraction, hextract, hvariables⟩ := exists_ofSource_misplacedConstant
  refine ⟨extraction, hextract, ?_⟩
  rw [hvariables]
  decide

end Extraction

end ContractAtlas
