import ContractAtlas.References
import Mathlib.Data.List.Infix
import Mathlib.Tactic.Tauto

/-!
# Where strings start in a text

A string may occur in a text at several positions.  A tail of the text mentions the
string exactly when one of these positions lies in the tail, that is, when the last of
them does.  This turns every question about scopes of a source into a comparison of
two numbers.
-/

namespace ContractAtlas.Text

variable {text : Text} {part : String} {offset position : Nat}

/-- The positions at which a string starts in a text, in increasing order.  The empty
string starts everywhere, also at the end. -/
def starts (text : Text) (part : String) : List Nat :=
  (List.range (text.length + 1)).filter fun position =>
    (ofString part).isPrefixOf (text.drop position)

/-- The last position at which one of several strings starts. -/
def lastStart? (text : Text) (parts : List String) : Option Nat :=
  (parts.flatMap text.starts).max?

theorem mem_starts_iff :
    position ∈ text.starts part ↔
      position ≤ text.length ∧ ofString part <+: text.drop position := by
  rw [starts, List.mem_filter, List.mem_range, List.isPrefixOf_iff_prefix, Nat.lt_succ_iff]

/-- A tail of a text mentions a string if and only if the string starts there. -/
theorem mentions_drop_iff (hoffset : offset ≤ text.length) :
    mentions (text.drop offset) part = true ↔ ∃ start ∈ text.starts part, offset ≤ start := by
  rw [mentions_iff, List.infix_iff_prefix_suffix]
  constructor
  · rintro ⟨tail, hpart, htail⟩
    have hdrop : tail = text.drop (text.length - tail.length) := by
      obtain ⟨front, hfront⟩ := htail.trans (List.drop_suffix offset text)
      rw [← hfront]
      simp
    have hlength := htail.length_le
    rw [List.length_drop] at hlength
    refine ⟨text.length - tail.length, mem_starts_iff.mpr ⟨by omega, hdrop ▸ hpart⟩, by omega⟩
  · rintro ⟨start, hstart, hle⟩
    obtain ⟨-, hpart⟩ := mem_starts_iff.mp hstart
    refine ⟨text.drop start, hpart, ?_⟩
    rw [show start = offset + (start - offset) by omega, ← List.drop_drop]
    exact List.drop_suffix _ _

theorem mentions_iff_starts_ne_nil : text.mentions part = true ↔ text.starts part ≠ [] := by
  have hwhole : mentions (text.drop 0) part = true ↔
      ∃ start ∈ text.starts part, 0 ≤ start := mentions_drop_iff (Nat.zero_le _)
  rw [List.drop_zero] at hwhole
  rw [hwhole, ne_eq, List.eq_nil_iff_forall_not_mem]
  simp

/-- A position lies before the last start if and only if some start lies behind it. -/
theorem exists_le_lastStart?_iff {parts : List String} :
    (text.lastStart? parts).any (offset ≤ ·) = true ↔
      ∃ part ∈ parts, ∃ start ∈ text.starts part, offset ≤ start := by
  have hall : (∃ start ∈ parts.flatMap text.starts, offset ≤ start) ↔
      ∃ part ∈ parts, ∃ start ∈ text.starts part, offset ≤ start := by
    simp only [List.mem_flatMap]
    tauto
  rw [← hall, lastStart?]
  generalize parts.flatMap text.starts = positions
  cases hmax : positions.max? with
  | none =>
      rw [List.max?_eq_none_iff.mp hmax]
      simp
  | some last =>
      obtain ⟨hmem, hgreatest⟩ := List.max?_eq_some_iff.mp hmax
      rw [Option.any_some, decide_eq_true_iff]
      constructor
      · intro hle
        exact ⟨last, hmem, hle⟩
      · rintro ⟨start, hstart, hle⟩
        exact hle.trans (hgreatest start hstart)

/-- A tail of a text mentions one of several strings if and only if it reaches the last
start of one of them. -/
theorem any_mentions_drop {parts : List String} (hoffset : offset ≤ text.length) :
    parts.any (mentions (text.drop offset)) = (text.lastStart? parts).any (offset ≤ ·) := by
  rw [Bool.eq_iff_iff, exists_le_lastStart?_iff, List.any_eq_true]
  simp only [mentions_drop_iff hoffset]

/-- A string starts wherever a continuation of it does. -/
theorem starts_append_subset (rest : String) :
    text.starts (part ++ rest) ⊆ text.starts part := by
  intro start hstart
  obtain ⟨hle, hpart⟩ := mem_starts_iff.mp hstart
  have hbegin : ofString part <+: ofString (part ++ rest) := by
    simp [ofString, ofChars]
  exact mem_starts_iff.mpr ⟨hle, hbegin.trans hpart⟩

end ContractAtlas.Text
