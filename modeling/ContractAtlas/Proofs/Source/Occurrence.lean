import ContractAtlas.Source.Member
import ContractAtlas.Proofs.FirstSeen

/-!
# The order of occurrences

A scan goes from left to right and continues behind what it has found.  Whatever the
shape, its occurrences therefore come in the order of the text, never overlap, and
start inside the text.  The functions of a source inherit the order.
-/

namespace ContractAtlas.Source

variable {α : Type}

/-- `right` starts behind the start of `left`, and not before its end. -/
def Occurrence.Precedes (left right : Occurrence α) : Prop :=
  left.start < right.start ∧ left.stop ≤ right.start

/-- No occurrence starts before the characters that are still to be skipped end, and
none starts behind the text. -/
theorem start_bounds_of_mem_occurrencesFrom {shape : Shape α} {before : Option Char}
    {skipped position : Nat} {text : List Char} {found : Occurrence α}
    (hfound : found ∈ occurrencesFrom shape before skipped position text) :
    position + skipped ≤ found.start ∧ found.start < position + text.length := by
  induction text generalizing before skipped position with
  | nil => simp [occurrencesFrom] at hfound
  | cons c rest ih =>
      rw [List.length_cons]
      cases skipped with
      | succ more =>
          have := ih hfound
          omega
      | zero =>
          cases hshape : shape before (c :: rest) with
          | none =>
              simp only [occurrencesFrom, hshape] at hfound
              have := ih hfound
              omega
          | some read =>
              simp only [occurrencesFrom, hshape, List.mem_cons] at hfound
              rcases hfound with rfl | hlater
              · constructor <;> simp
              · have := ih hlater
                omega

/-- Each occurrence precedes every later one. -/
theorem pairwise_precedes_occurrencesFrom (shape : Shape α) (before : Option Char)
    (skipped position : Nat) (text : List Char) :
    (occurrencesFrom shape before skipped position text).Pairwise Occurrence.Precedes := by
  induction text generalizing before skipped position with
  | nil => simp [occurrencesFrom]
  | cons c rest ih =>
      cases skipped with
      | succ more => exact ih (some c) more (position + 1)
      | zero =>
          cases hshape : shape before (c :: rest) with
          | none =>
              simp only [occurrencesFrom, hshape]
              exact ih (some c) 0 (position + 1)
          | some read =>
              simp only [occurrencesFrom, hshape]
              apply List.pairwise_cons.mpr
              constructor
              · intro later hlater
                -- The rest of what was read is skipped before the scan goes on.
                have hbounds := start_bounds_of_mem_occurrencesFrom hlater
                constructor <;> simp only <;> omega
              · exact ih (some c) _ (position + 1)

theorem pairwise_precedes_occurrences (shape : Shape α) (text : List Char) :
    (occurrences shape text).Pairwise Occurrence.Precedes :=
  pairwise_precedes_occurrencesFrom shape none 0 0 text

theorem start_lt_length_of_mem_occurrences {shape : Shape α} {text : List Char}
    {found : Occurrence α} (hfound : found ∈ occurrences shape text) :
    found.start < text.length := by
  have := start_bounds_of_mem_occurrencesFrom hfound
  omega

/-- What a scan finds was read from a tail of the text. -/
theorem exists_read_of_mem_occurrencesFrom {shape : Shape α} {before : Option Char}
    {skipped position : Nat} {text : List Char} {found : Occurrence α}
    (hfound : found ∈ occurrencesFrom shape before skipped position text) :
    ∃ previous place left, place <:+ text ∧ shape previous place = some (found.value, left) := by
  induction text generalizing before skipped position with
  | nil => simp [occurrencesFrom] at hfound
  | cons c more ih =>
      have hlater : ∀ {skipped},
          found ∈ occurrencesFrom shape (some c) skipped (position + 1) more →
          ∃ previous place left, place <:+ c :: more ∧
            shape previous place = some (found.value, left) := by
        intro skipped hmore
        obtain ⟨previous, place, left, hplace, hread⟩ := ih hmore
        exact ⟨previous, place, left, hplace.trans (List.suffix_cons c more), hread⟩
      cases skipped with
      | succ skip => exact hlater hfound
      | zero =>
          cases hshape : shape before (c :: more) with
          | none =>
              simp only [occurrencesFrom, hshape] at hfound
              exact hlater hfound
          | some read =>
              simp only [occurrencesFrom, hshape, List.mem_cons] at hfound
              rcases hfound with rfl | hmore
              · exact ⟨before, c :: more, read.2, List.suffix_refl _, hshape⟩
              · exact hlater hmore

/-! ## The functions of a source -/

theorem pairwise_offset_functions (text : List Char) :
    (functions text).Pairwise fun left right => left.offset < right.offset := by
  rw [functions, List.pairwise_map]
  apply (pairwise_precedes_occurrences functionShape text).imp
  intro left right hprecedes
  exact hprecedes.1

theorem offset_lt_length_of_mem_functions {text : List Char} {function : FunctionDeclaration}
    (hfunction : function ∈ functions text) : function.offset < text.length := by
  obtain ⟨found, hfound, rfl⟩ := List.mem_map.mp hfunction
  exact start_lt_length_of_mem_occurrences hfound

/-- A function of a source has no entry. -/
theorem entry_of_mem_functions {text : List Char} {function : FunctionDeclaration}
    (hfunction : function ∈ functions text) : function.entry = none := by
  obtain ⟨found, -, rfl⟩ := List.mem_map.mp hfunction
  rfl

/-- A function of a source lists each modifier that it invokes once. -/
theorem nodup_modifiers_of_mem_functions {text : List Char} {function : FunctionDeclaration}
    (hfunction : function ∈ functions text) : function.modifiers.Nodup := by
  obtain ⟨found, -, rfl⟩ := List.mem_map.mp hfunction
  exact FirstSeen.nodup_eraseDups _

end ContractAtlas.Source
