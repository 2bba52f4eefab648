import ContractAtlas.References
import Mathlib.Data.List.Infix

/-!
# Blanks in front of a text

Blanks belong to no word and end no statement.  In front of a text they change neither its
words, nor whether it is blank, nor its summary, and no string that starts with another
character is mentioned because of them.
-/

namespace ContractAtlas.Text

variable {c : Char} {blanks : List Char}

/-- The numbers of the blanks. -/
def blankNumbers : List Nat :=
  List.range' 0x09 5 ++ List.range' 0x1C 5 ++ List.range' 0x2000 11 ++
    [0x85, 0xA0, 0x1680, 0x2028, 0x2029, 0x202F, 0x205F, 0x3000]

theorem toNat_mem_blankNumbers (hblank : isBlank c = true) : c.toNat ∈ blankNumbers := by
  simp only [blankNumbers, List.mem_append, List.mem_range'_1, List.mem_cons, List.not_mem_nil,
    or_false]
  simp only [isBlank] at hblank
  split at hblank <;>
    simp only [Bool.or_eq_true, Bool.and_eq_true, beq_iff_eq, decide_eq_true_eq] at hblank <;>
    omega

/-- A test of all blanks goes through their numbers. -/
theorem forall_of_blankNumbers (holds : Char → Prop)
    (hall : ∀ n ∈ blankNumbers, holds (Char.ofNat n)) (hblank : isBlank c = true) : holds c := by
  rw [← Char.ofNat_toNat c]
  exact hall _ (toNat_mem_blankNumbers hblank)

theorem notMem_of_isBlank (hc : isBlank c = false) (hblanks : ∀ d ∈ blanks, isBlank d = true) :
    c ∉ blanks := by
  intro hmem
  rw [hblanks c hmem] at hc
  contradiction

/-- No blank is part of a qualified name, in any script. -/
theorem isQualified_of_isBlank (hblank : isBlank c = true) : isQualified c = false :=
  forall_of_blankNumbers (fun c => isQualified c = false) (by decide +kernel) hblank

theorem isWord_of_isBlank (hblank : isBlank c = true) : isWord c = false := by
  have hqualified := isQualified_of_isBlank hblank
  simp only [isQualified, Bool.or_eq_false_iff] at hqualified
  exact hqualified.1.1

theorem startsIdentifier_of_isBlank (hblank : isBlank c = true) : startsIdentifier c = false :=
  forall_of_blankNumbers (fun c => startsIdentifier c = false) (by decide +kernel) hblank

/-- The spaces of JSON are blanks. -/
theorem isBlank_of_isSpace (hspace : Json.isSpace c = true) : isBlank c = true := by
  simp only [Json.isSpace, Bool.or_eq_true, beq_iff_eq] at hspace
  rcases hspace with ((rfl | rfl) | rfl) | rfl <;> decide

/-- Whether a string starts with a character that is no blank. -/
def startsVisibly (part : String) : Bool :=
  part.toList.head?.any (!isBlank ·)

theorem exists_of_startsVisibly {part : String} (hpart : startsVisibly part = true) :
    ∃ c rest, part.toList = c :: rest ∧ isBlank c = false := by
  rw [startsVisibly] at hpart
  cases hchars : part.toList with
  | nil =>
      rw [hchars] at hpart
      contradiction
  | cons c rest =>
      rw [hchars] at hpart
      exact ⟨c, rest, rfl, by simpa using hpart⟩

theorem startsVisibly_append {part : String} (hpart : startsVisibly part = true)
    (more : String) : startsVisibly (part ++ more) = true := by
  obtain ⟨c, rest, hchars, hvisible⟩ := exists_of_startsVisibly hpart
  simp [startsVisibly, hchars, hvisible]

theorem forall_isBlank_of_isSpace {chars : List Char}
    (hspace : ∀ c ∈ chars, Json.isSpace c = true) : ∀ c ∈ chars, isBlank c = true :=
  fun c hc => isBlank_of_isSpace (hspace c hc)

/-! ## The words of a text -/

theorem words_cons_of_isBlank (hblank : isBlank c = true) (text : List Char) :
    words (c :: text) = words text := by
  rw [words, List.splitOnP_cons_eq_if_modifyHead, if_pos hblank]
  rfl

theorem words_append_of_isBlank (hblanks : ∀ c ∈ blanks, isBlank c = true) (text : List Char) :
    words (blanks ++ text) = words text := by
  induction blanks with
  | nil => rfl
  | cons c rest ih =>
      obtain ⟨hc, hrest⟩ := List.forall_mem_cons.mp hblanks
      rw [List.cons_append, words_cons_of_isBlank hc, ih hrest]

theorem summarize_append_of_isBlank (hblanks : ∀ c ∈ blanks, isBlank c = true) (limit : Int)
    (text : List Char) : summarize limit (blanks ++ text) = summarize limit text := by
  rw [summarize, summarize, collapse, collapse, words_append_of_isBlank hblanks]

theorem allBlank_append_of_isBlank (hblanks : ∀ c ∈ blanks, isBlank c = true)
    (text : List Char) : allBlank (blanks ++ text) = allBlank text := by
  rw [allBlank, List.all_append, List.all_eq_true.mpr hblanks, Bool.true_and, allBlank]

/-! ## What a text mentions -/

theorem ofString_append (left right : String) :
    ofString (left ++ right) = ofString left ++ ofString right := by
  simp [ofString, ofChars]

/-- Blanks in front add no place at which a part with a visible start could occur. -/
theorem mentions_append_of_isBlank (hblanks : ∀ c ∈ blanks, isBlank c = true) {part : String}
    (hpart : startsVisibly part = true) (text : Text) :
    mentions (ofChars blanks ++ text) part = text.mentions part := by
  obtain ⟨visible, others, hchars, hvisible⟩ := exists_of_startsVisibly hpart
  induction blanks with
  | nil => rfl
  | cons c rest ih =>
      obtain ⟨hc, hrest⟩ := List.forall_mem_cons.mp hblanks
      have hne : visible ≠ c := by
        rintro rfl
        rw [hc] at hvisible
        contradiction
      have hprefix : (ofString part).isPrefixOf (.char c :: (ofChars rest ++ text)) = false := by
        simp [ofString, ofChars, hchars, List.isPrefixOf, hne]
      rw [mentions] at ih ⊢
      change occursIn _ (.char c :: (ofChars rest ++ text)) = _
      rw [occursIn, hprefix, Bool.false_or, ih hrest]

end ContractAtlas.Text
