import ContractAtlas.Proofs.Canonical.Rendering
import ContractAtlas.Proofs.Source.Scan

/-!
# Words and marks of canonical sources

A canonical source consists of plain words and of marks between them: spaces, line feeds
and punctuation.  Behind every word stands a mark, so that a scan always takes a word as a
whole.
-/

namespace ContractAtlas.Canonical

open ContractAtlas.Source ContractAtlas.Text

/-! ## Characters -/

/-- What stands between the words of a canonical source. -/
def marks : List Char := [' ', '\n', '(', ')', ',', ';', '[', ']', '{', '}', '=']

theorem toNat_lt_of_isPlain {c : Char} (hc : isPlain c = true) : c.toNat < 128 := by
  change (((decide ('A'.val ≤ c.val ∧ c.val ≤ 'Z'.val) ||
    (decide ('a'.val ≤ c.val) && decide (c.val ≤ 'z'.val))) ||
    (decide ('0'.val ≤ c.val) && decide (c.val ≤ '9'.val))) || c == '_') = true at hc
  simp only [Bool.or_eq_true, Bool.and_eq_true, decide_eq_true_eq, UInt32.le_iff_toNat_le,
    beq_iff_eq] at hc
  have hnat : c.toNat = c.val.toNat := rfl
  have hupper : 'Z'.val.toNat = 90 := rfl
  have hlower : 'z'.val.toNat = 122 := rfl
  have hdigit : '9'.val.toNat = 57 := rfl
  rcases hc with hc | rfl
  · omega
  · decide

/-- What holds of all plain ASCII characters holds of all plain characters. -/
theorem forall_isPlain (holds : Char → Prop)
    (hall : ∀ n < 128, isPlain (Char.ofNat n) = true → holds (Char.ofNat n)) {c : Char}
    (hc : isPlain c = true) : holds c := by
  have hn := hall c.toNat (toNat_lt_of_isPlain hc)
  rw [Char.ofNat_toNat] at hn
  exact hn hc

theorem isWord_of_isPlain {c : Char} (hc : isPlain c = true) : isWord c = true :=
  forall_isPlain (fun c => isWord c = true) (by decide) hc

theorem isQualified_of_isPlain {c : Char} (hc : isPlain c = true) : isQualified c = true := by
  rw [isQualified, isWord_of_isPlain hc]
  rfl

theorem isBlank_of_mem_space : ∀ c ∈ [' '], isBlank c = true := forall_mem_of_all (by decide)

theorem isBlank_of_isPlain {c : Char} (hc : isPlain c = true) : isBlank c = false :=
  forall_isPlain (fun c => isBlank c = false) (by decide) hc

theorem notMem_marks_of_isPlain {c : Char} (hc : isPlain c = true) : c ∉ marks :=
  forall_isPlain (fun c => c ∉ marks) (by decide) hc

theorem ne_of_isPlain {c other : Char} (hc : isPlain c = true) (hother : isPlain other = false) :
    c ≠ other := by
  rintro rfl
  rw [hc] at hother
  contradiction

theorem isPlain_of_mem_marks {c : Char} (hc : c ∈ marks) : isPlain c = false := by
  have hall : ∀ c ∈ marks, isPlain c = false := forall_mem_of_all (by decide)
  exact hall c hc

theorem isWord_of_mem_marks {c : Char} (hc : c ∈ marks) : isWord c = false := by
  have hall : ∀ c ∈ marks, isWord c = false := forall_mem_of_all (by decide)
  exact hall c hc

theorem isQualified_of_mem_marks {c : Char} (hc : c ∈ marks) : isQualified c = false := by
  have hall : ∀ c ∈ marks, isQualified c = false := forall_mem_of_all (by decide)
  exact hall c hc

/-! ## Words -/

/-- A non-empty run of plain characters. -/
structure IsRun (word : List Char) : Prop where
  ne_nil : word ≠ []
  plain : ∀ c ∈ word, isPlain c = true

/-- A text that starts with a mark. -/
def MarkNext (rest : List Char) : Prop :=
  ∃ c tail, c ∈ marks ∧ rest = c :: tail

theorem markNext_cons {c : Char} (hc : c ∈ marks) (rest : List Char) : MarkNext (c :: rest) :=
  ⟨c, rest, hc, rfl⟩

theorem MarkNext.stopsAt {rest : List Char} (hrest : MarkNext rest) {test : Char → Bool}
    (htest : ∀ c ∈ marks, test c = false) : StopsAt test rest := by
  obtain ⟨c, tail, hc, rfl⟩ := hrest
  intro other hother
  obtain rfl : c = other := by simpa using hother
  exact htest c hc

theorem MarkNext.stopsAt_isWord {rest : List Char} (hrest : MarkNext rest) :
    StopsAt isWord rest :=
  hrest.stopsAt fun _ => isWord_of_mem_marks

theorem MarkNext.stopsAt_isQualified {rest : List Char} (hrest : MarkNext rest) :
    StopsAt isQualified rest :=
  hrest.stopsAt fun _ => isQualified_of_mem_marks

namespace IsRun

variable {word other rest : List Char} (hword : IsRun word)

include hword

theorem exists_cons : ∃ c tail, word = c :: tail ∧ isPlain c = true := by
  obtain ⟨c, tail, rfl⟩ := List.exists_cons_of_ne_nil hword.ne_nil
  exact ⟨c, tail, rfl, hword.plain c List.mem_cons_self⟩

theorem stopsAt_isBlank (rest : List Char) : StopsAt isBlank (word ++ rest) := by
  obtain ⟨c, tail, rfl, hc⟩ := hword.exists_cons
  intro other hother
  obtain rfl : c = other := by simpa using hother
  exact isBlank_of_isPlain hc

theorem isWord {c : Char} (hc : c ∈ word) : Text.isWord c = true :=
  isWord_of_isPlain (hword.plain c hc)

theorem isQualified {c : Char} (hc : c ∈ word) : Text.isQualified c = true :=
  isQualified_of_isPlain (hword.plain c hc)

theorem takeWhile_isPlain (hrest : StopsAt isPlain rest) :
    (word ++ rest).takeWhile isPlain = word :=
  takeWhile_append_of_stopsAt hword.plain hrest

/-- Where a text starts with a word, it starts with no other one. -/
theorem eq_of_append_eq {more : List Char} (hother : IsRun other) (hrest : StopsAt isPlain rest)
    (hmore : StopsAt isPlain more) (heq : word ++ rest = other ++ more) :
    word = other ∧ rest = more := by
  have hsame : word = other := by
    rw [← hword.takeWhile_isPlain hrest, heq, hother.takeWhile_isPlain hmore]
  subst hsame
  exact ⟨rfl, List.append_cancel_left heq⟩

theorem name?_append (hrest : MarkNext rest) : name? (word ++ rest) = some (word, rest) :=
  name?_append_of_stopsAt hword.ne_nil (fun _ => hword.isWord) hrest.stopsAt_isWord

end IsRun

theorem MarkNext.stopsAt_isPlain {rest : List Char} (hrest : MarkNext rest) :
    StopsAt isPlain rest :=
  hrest.stopsAt fun _ => isPlain_of_mem_marks

theorem stopsAt_isBlank_cons {c : Char} (hc : c ∈ ['(', ')', ',', ';', '[', ']', '{', '}', '='])
    (rest : List Char) : StopsAt isBlank (c :: rest) := by
  have hall : ∀ c ∈ ['(', ')', ',', ';', '[', ']', '{', '}', '='], isBlank c = false :=
    forall_mem_of_all (by decide)
  intro other hother
  obtain rfl : c = other := by simpa using hother
  exact hall c hc

theorem stopsAt_isPlain_cons {c : Char} (hc : isPlain c = false) (rest : List Char) :
    StopsAt isPlain (c :: rest) := by
  intro other hother
  obtain rfl : c = other := by simpa using hother
  exact hc

/-- A word with which a statement can start. -/
structure IsName (word : List Char) : Prop extends IsRun word where
  starts : ∀ c ∈ word.head?, startsIdentifier c = true

theorem isName_of_mem_reservedWords {word : String} (hword : word ∈ reservedWords) :
    IsName word.toList := by
  have hne : ∀ word ∈ reservedWords, word.toList ≠ [] := by decide
  have hplain : ∀ word ∈ reservedWords, word.toList.all isPlain = true := by decide
  have hstarts : ∀ word ∈ reservedWords, word.toList.head?.all startsIdentifier = true := by decide
  refine ⟨⟨hne word hword, List.all_eq_true.mp (hplain word hword)⟩, fun c hc => ?_⟩
  have hstart := hstarts word hword
  rwa [hc, Option.all_some] at hstart

theorem isRun_of_mem_reservedWords {word : String} (hword : word ∈ reservedWords) :
    IsRun word.toList :=
  (isName_of_mem_reservedWords hword).toIsRun

theorem keyword_mem_reservedWords (visibility : Visibility) :
    visibility.keyword ∈ reservedWords := by
  cases visibility <;> decide

theorem isName_keyword (visibility : Visibility) : IsName visibility.keyword.toList :=
  isName_of_mem_reservedWords (keyword_mem_reservedWords visibility)

/-- A letter or an underscore, and plain characters behind it. -/
theorem isName_of_starts {word : List Char}
    (hstarts : word.head?.any (fun c => c.isAlpha || c == '_') = true)
    (hplain : word.all isPlain = true) : IsName word where
  ne_nil := by
    rintro rfl
    contradiction
  plain := List.all_eq_true.mp hplain
  starts := by
    intro c hc
    rw [hc, Option.any_some] at hstarts
    rw [startsIdentifier, hstarts, Bool.true_or]

namespace Identifier

theorem isName (identifier : Identifier) : IsName identifier.chars :=
  isName_of_starts identifier.starts identifier.continues

theorem isRun (identifier : Identifier) : IsRun identifier.chars :=
  identifier.isName.toIsRun

theorem notMem_reservedWords (identifier : Identifier) :
    String.ofList identifier.chars ∉ reservedWords := by
  rw [chars, String.ofList_toList]
  exact identifier.free

end Identifier

theorem Digits.isRun (value : Digits) : IsRun value.chars where
  ne_nil := value.nonempty
  plain := by
    intro c hc
    have hdigit := List.all_eq_true.mp value.digits c hc
    simp [isPlain, Char.isAlphanum, hdigit]

/-- No reserved word has a digit in it. -/
theorem Digits.notMem_reservedWords (value : Digits) :
    String.ofList value.chars ∉ reservedWords := by
  have hletters : ∀ word ∈ reservedWords, word.toList.any Char.isDigit = false := by decide
  obtain ⟨c, hc⟩ := List.exists_mem_of_ne_nil _ value.nonempty
  have hdigit : value.chars.any Char.isDigit = true :=
    List.any_eq_true.mpr ⟨c, hc, List.all_eq_true.mp value.digits c hc⟩
  intro hmem
  have hletter := hletters _ hmem
  rw [String.toList_ofList, hdigit] at hletter
  exact Bool.noConfusion hletter

end ContractAtlas.Canonical
