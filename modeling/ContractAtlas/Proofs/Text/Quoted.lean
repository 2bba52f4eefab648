import ContractAtlas.Json.Lexeme
import ContractAtlas.Text.Quoted
import Mathlib.Algebra.Group.Nat.Defs

/-!
# Reading quoted texts back

No two texts are quoted alike, not even if one is a beginning of the other: from the first
character of a quoted text one knows its marks, and between them every code point is
written in a way from which it can be recovered, whatever follows (`quotedPoint_append_inj`).
A code point is written as itself, by an escape of its own, or by its number in a fixed
number of digits; the letter behind the backslash says which of these it is.
-/

namespace ContractAtlas

/-- No character has the number of a half of a surrogate pair. -/
theorem CodePoint.toNat_ne_number_half (c : Char) (offset : Fin 2048) :
    c.toNat ≠ (CodePoint.half offset).number := by
  have hvalid : c.toNat < 0xD800 ∨ 0xDFFF < c.toNat := c.valid.imp_right And.left
  simp only [number]
  omega

theorem CodePoint.number_injective : Function.Injective CodePoint.number := by
  intro left right heq
  match left, right with
  | .char value, .char other => exact congrArg _ (Char.toNat_inj.mp heq)
  | .char value, .half offset => exact absurd heq (toNat_ne_number_half value offset)
  | .half offset, .char other => exact absurd heq.symm (toNat_ne_number_half other offset)
  | .half offset, .half other =>
    simp only [number] at heq
    exact congrArg _ (Fin.ext (by omega))

theorem CodePoint.number_lt (point : CodePoint) : point.number < 0x110000 := by
  cases point with
  | char value =>
      rcases value.valid with h | h
      · exact Nat.lt_trans h (by decide)
      · exact h.2
  | half offset =>
      simp only [number]
      omega

namespace Text

/-! ## Hexadecimal numbers -/

/-- The number that hexadecimal digits denote. -/
def hexadecimalValue (digits : List Char) : Nat :=
  digits.foldl (fun value c => 16 * value + (Json.hexDigit? c).getD 0) 0

theorem hexDigit?_digitChar {n : Nat} (hn : n < 16) : Json.hexDigit? n.digitChar = some n := by
  revert n
  decide

theorem hexadecimalValue_toDigits (n : Nat) : hexadecimalValue (Nat.toDigits 16 n) = n := by
  induction n using Nat.strongRecOn with
  | ind n ih =>
      by_cases hn : n < 16
      · simp [Nat.toDigits_of_lt_base hn, hexadecimalValue, hexDigit?_digitChar hn]
      · have hquotient := ih (n / 16) (by omega)
        have hremainder := hexDigit?_digitChar (Nat.mod_lt n (by decide : 16 > 0))
        rw [hexadecimalValue] at hquotient ⊢
        rw [Nat.toDigits_of_base_le (by decide) (by omega), List.foldl_append, hquotient]
        simp only [List.foldl_cons, List.foldl_nil, hremainder, Option.getD_some]
        omega

theorem hexadecimalValue_hexadecimal (width n : Nat) :
    hexadecimalValue (hexadecimal width n) = n := by
  have hzeros : ∀ count, hexadecimalValue (List.replicate count '0') = 0 := by
    intro count
    induction count with
    | zero => rfl
    | succ count ih => exact ih
  have hdigits := hexadecimalValue_toDigits n
  rw [hexadecimalValue] at hdigits
  have hpadding := hzeros (width - (Nat.toDigits 16 n).length)
  rw [hexadecimalValue] at hpadding
  rw [hexadecimalValue, hexadecimal, List.foldl_append, hpadding, hdigits]

theorem length_hexadecimal {width n : Nat} (hwidth : 0 < width) (hn : n < 16 ^ width) :
    (hexadecimal width n).length = width := by
  have hdigits := (Nat.length_toDigits_le_iff (by decide) hwidth).mpr hn
  simp only [hexadecimal, List.length_append, List.length_replicate]
  omega

theorem hexadecimal_append_inj {width left right : Nat} {xs ys : List Char}
    (hwidth : 0 < width) (hleft : left < 16 ^ width) (hright : right < 16 ^ width)
    (heq : hexadecimal width left ++ xs = hexadecimal width right ++ ys) :
    left = right ∧ xs = ys := by
  have hlength : (hexadecimal width left).length = (hexadecimal width right).length := by
    rw [length_hexadecimal hwidth hleft, length_hexadecimal hwidth hright]
  obtain ⟨hdigits, hrest⟩ := List.append_inj heq hlength
  have hvalue := congrArg hexadecimalValue hdigits
  rw [hexadecimalValue_hexadecimal, hexadecimalValue_hexadecimal] at hvalue
  exact ⟨hvalue, hrest⟩

/-! ## Code points between two marks -/

/-- The marks that a text can be put between. -/
def marks : List Char := ['\'', '"']

/-- The characters with an escape of their own, each behind its letter. -/
def shortForms (mark : Char) : List (Char × Char) :=
  [(mark, mark), ('\\', '\\'), ('n', '\n'), ('r', '\r'), ('t', '\t')]

/-- The letters of the escapes by number, each with the count of digits that follow. -/
def numericForms : List (Char × Nat) := [('x', 2), ('u', 4), ('U', 8)]

/-- The letters of numeric escapes stand for no character of their own. -/
theorem lookup_shortForms_eq_none {mark letter : Char} {width : Nat} (hmark : mark ∈ marks)
    (hform : numericForms.lookup letter = some width) :
    (shortForms mark).lookup letter = none := by
  have hletter : letter = 'x' ∨ letter = 'u' ∨ letter = 'U' := by
    obtain ⟨before, behind, hforms, -⟩ := List.lookup_eq_some_iff.mp hform
    have hmem : (letter, width) ∈ numericForms := by
      rw [hforms]
      simp
    simp only [numericForms, List.mem_cons, Prod.mk.injEq, List.not_mem_nil, or_false] at hmem
    exact hmem.imp And.left (Or.imp And.left And.left)
  simp only [marks, List.mem_cons, List.not_mem_nil, or_false] at hmark
  rcases hmark with rfl | rfl <;> rcases hletter with rfl | rfl | rfl <;> rfl

/-- The ways in which a code point can be written between two marks. -/
inductive Writes (mark : Char) : CodePoint → List Char → Prop where
  | itself {c : Char} (hbackslash : c ≠ '\\') (hmark : c ≠ mark) : Writes mark (.char c) [c]
  | short {letter c : Char} (hform : (shortForms mark).lookup letter = some c) :
    Writes mark (.char c) ['\\', letter]
  | numeric {point : CodePoint} {letter : Char} {width : Nat}
      (hform : numericForms.lookup letter = some width) (hwidth : 0 < width)
      (hnumber : point.number < 16 ^ width) :
    Writes mark point ('\\' :: letter :: hexadecimal width point.number)

theorem writes_numericEscape (mark : Char) (point : CodePoint) :
    Writes mark point (numericEscape point.number) := by
  rw [numericEscape]
  split
  · exact .numeric rfl (by decide) (by assumption)
  · split
    · exact .numeric rfl (by decide) (by assumption)
    · exact .numeric rfl (by decide) (Nat.lt_trans point.number_lt (by decide))

theorem writes_quotedPoint {mark : Char} (hmark : mark ∈ marks) (point : CodePoint) :
    Writes mark point (quotedPoint mark point) := by
  have hforms : (shortForms mark).lookup mark = some mark ∧
      (shortForms mark).lookup '\\' = some '\\' ∧ (shortForms mark).lookup 'n' = some '\n' ∧
      (shortForms mark).lookup 'r' = some '\r' ∧ (shortForms mark).lookup 't' = some '\t' := by
    simp only [marks, List.mem_cons, List.not_mem_nil, or_false] at hmark
    rcases hmark with rfl | rfl <;> decide
  obtain ⟨hself, hbackslash, hn, hr, ht⟩ := hforms
  cases point with
  | half offset => exact writes_numericEscape mark (.half offset)
  | char c =>
      rw [quotedPoint]
      split
      · rename_i hspecial
        rcases hspecial with rfl | rfl
        · exact .short hself
        · exact .short hbackslash
      · rename_i hordinary
        obtain ⟨hnotMark, hnotBackslash⟩ := not_or.mp hordinary
        split
        · subst_vars
          exact .short hn
        split
        · subst_vars
          exact .short hr
        split
        · subst_vars
          exact .short ht
        split
        · exact .itself hnotBackslash hnotMark
        · exact writes_numericEscape mark (.char c)

/-- A code point can be recovered from the way in which it is written, whatever follows. -/
theorem Writes.append_inj {mark : Char} {left right : CodePoint}
    {written other xs ys : List Char} (hmark : mark ∈ marks) (hleft : Writes mark left written)
    (hright : Writes mark right other) (heq : written ++ xs = other ++ ys) :
    left = right ∧ xs = ys := by
  -- The first character tells a code point that stands for itself from an escape, and the
  -- second one tells an escape by letter from an escape by number.
  cases hleft with
  | itself hbackslash _ =>
      cases hright with
      | itself =>
          obtain ⟨rfl, rfl⟩ := List.cons.inj heq
          exact ⟨rfl, rfl⟩
      | short | numeric => exact absurd (List.cons.inj heq).1 hbackslash
  | short hform =>
      cases hright with
      | itself hbackslash _ => exact absurd (List.cons.inj heq).1.symm hbackslash
      | short hother =>
          obtain ⟨rfl, rfl⟩ := List.cons.inj (List.cons.inj heq).2
          rw [hform] at hother
          cases hother
          exact ⟨rfl, rfl⟩
      | numeric hother _ _ =>
          obtain ⟨rfl, -⟩ := List.cons.inj (List.cons.inj heq).2
          rw [lookup_shortForms_eq_none hmark hother] at hform
          cases hform
  | numeric hform hwidth hnumber =>
      cases hright with
      | itself hbackslash _ => exact absurd (List.cons.inj heq).1.symm hbackslash
      | short hother =>
          obtain ⟨rfl, -⟩ := List.cons.inj (List.cons.inj heq).2
          rw [lookup_shortForms_eq_none hmark hform] at hother
          cases hother
      | numeric hother _ hnumber' =>
          obtain ⟨rfl, hdigits⟩ := List.cons.inj (List.cons.inj heq).2
          rw [hform] at hother
          cases hother
          obtain ⟨hvalue, hrest⟩ := hexadecimal_append_inj hwidth hnumber hnumber' hdigits
          exact ⟨CodePoint.number_injective hvalue, hrest⟩

/-- Nothing between two marks begins with one of them. -/
theorem Writes.exists_cons {mark : Char} {point : CodePoint} {written : List Char}
    (hmark : mark ∈ marks) (h : Writes mark point written) :
    ∃ c rest, written = c :: rest ∧ c ≠ mark := by
  have hbackslash : '\\' ≠ mark := by
    rintro rfl
    revert hmark
    decide
  cases h with
  | itself _ hnotMark => exact ⟨_, _, rfl, hnotMark⟩
  | short | numeric => exact ⟨_, _, rfl, hbackslash⟩

/-! ## Quoted texts -/

theorem quotationMark_mem_marks (text : Text) : quotationMark text ∈ marks := by
  rw [quotationMark]
  split <;> decide

/-- What stands between two marks ends where the closing one stands. -/
theorem flatMap_quotedPoint_append_inj {mark : Char} (hmark : mark ∈ marks) {left right : Text}
    {xs ys : List Char}
    (heq : left.flatMap (quotedPoint mark) ++ mark :: xs =
      right.flatMap (quotedPoint mark) ++ mark :: ys) : left = right ∧ xs = ys := by
  induction left generalizing right with
  | nil =>
      cases right with
      | nil => exact ⟨rfl, (List.cons.inj heq).2⟩
      | cons point right =>
          obtain ⟨c, rest, hwritten, hc⟩ := (writes_quotedPoint hmark point).exists_cons hmark
          simp only [List.flatMap_cons, List.flatMap_nil, hwritten, List.cons_append,
            List.nil_append] at heq
          exact absurd (List.cons.inj heq).1.symm hc
  | cons point left ih =>
      cases right with
      | nil =>
          obtain ⟨c, rest, hwritten, hc⟩ := (writes_quotedPoint hmark point).exists_cons hmark
          simp only [List.flatMap_cons, List.flatMap_nil, hwritten, List.cons_append,
            List.nil_append] at heq
          exact absurd (List.cons.inj heq).1 hc
      | cons other right =>
          simp only [List.flatMap_cons, List.append_assoc] at heq
          obtain ⟨rfl, hrest⟩ := (writes_quotedPoint hmark point).append_inj hmark
            (writes_quotedPoint hmark other) heq
          obtain ⟨rfl, htail⟩ := ih hrest
          exact ⟨rfl, htail⟩

/-- A quoted text can be recovered, whatever follows. -/
theorem quote_append_inj {left right : Text} {xs ys : List Char}
    (heq : quote left ++ xs = quote right ++ ys) : left = right ∧ xs = ys := by
  simp only [quote, List.cons_append, List.append_assoc, List.nil_append] at heq
  obtain ⟨hmark, hpoints⟩ := List.cons.inj heq
  rw [← hmark] at hpoints
  exact flatMap_quotedPoint_append_inj (quotationMark_mem_marks left) hpoints

end Text

end ContractAtlas
