import ContractAtlas.Proofs.Canonical.Lists

/-!
# Words and the blanks between them

Blanks belong to no word, so the words of a text can be read piece by piece wherever blanks
stand (`words_append`).  Every text is blank or has a first word, with blanks in front of it and
a text behind it that does not go on with the word; statements about the words of a text are
proved along this division (`wordInduction`).
-/

namespace ContractAtlas.Text

open Canonical

variable {c : Char} {left right space word rest text : List Char}

@[simp]
theorem words_nil : words [] = [] := rfl

theorem words_append_cons (hblank : isBlank c = true) (left right : List Char) :
    words (left ++ c :: right) = words left ++ words right := by
  rw [words, List.splitOnP_append_cons left right hblank, List.filter_append, ← words, ← words]

/-- Two texts in a row are read as if each stood alone, if a blank comes in between. -/
theorem words_append (hright : ∀ c ∈ right.head?, isBlank c = true) :
    words (left ++ right) = words left ++ words right := by
  cases right with
  | nil => rw [List.append_nil, words_nil, List.append_nil]
  | cons c right =>
      have hblank : isBlank c = true := hright c rfl
      rw [words_append_cons hblank, words_cons_of_isBlank hblank]

theorem words_eq_nil (hspace : ∀ c ∈ space, isBlank c = true) : words space = [] := by
  have happend := words_append_of_isBlank hspace []
  rwa [List.append_nil] at happend

theorem words_trim (text : List Char) : words (trim text) = words text := by
  obtain ⟨front, back, htext, hfront, hback⟩ := Source.exists_eq_append_trim text
  have hhead : ∀ c ∈ back.head?, isBlank c = true := fun c hc =>
    hback c (List.mem_of_head? hc)
  conv_rhs => rw [htext, words_append_of_isBlank hfront, words_append hhead, words_eq_nil hback,
    List.append_nil]

/-- The first word is read from what stands in front of the next blank. -/
theorem words_space_word (hspace : ∀ c ∈ space, isBlank c = true) (hword : IsDense word)
    (hrest : ∀ c ∈ rest.head?, isBlank c = true) :
    words (space ++ (word ++ rest)) = word :: words rest := by
  rw [words_append_of_isBlank hspace, words_append hrest, hword.words_eq, List.singleton_append]

/-- A text is blank, or it has a first word, with blanks in front of it and a blank or nothing
behind it. -/
theorem wordInduction {motive : List Char → Prop}
    (blanks : ∀ space, (∀ c ∈ space, isBlank c = true) → motive space)
    (word : ∀ space word rest, (∀ c ∈ space, isBlank c = true) → IsDense word →
      (∀ c ∈ rest.head?, isBlank c = true) → motive rest → motive (space ++ (word ++ rest)))
    (text : List Char) : motive text := by
  induction hlength : text.length using Nat.strong_induction_on generalizing text with
  | _ length ih =>
      obtain ⟨space, body, hspace, hbody, rfl⟩ : ∃ space body, (∀ c ∈ space, isBlank c = true) ∧
          Source.StopsAt isBlank body ∧ text = space ++ body :=
        ⟨_, _, Source.takeWhile_dropWhile_eq_iff.mp ⟨rfl, rfl⟩⟩
      obtain ⟨run, rest, hrun, hrest, rfl⟩ : ∃ run rest, (∀ c ∈ run, (!isBlank c) = true) ∧
          Source.StopsAt (!isBlank ·) rest ∧ body = run ++ rest :=
        ⟨_, _, Source.takeWhile_dropWhile_eq_iff.mp ⟨rfl, rfl⟩⟩
      simp only [Bool.not_eq_true'] at hrun
      have hgap : ∀ c ∈ rest.head?, isBlank c = true := by simpa [Source.StopsAt] using hrest
      by_cases hne : run = []
      · subst hne
        -- The rest starts with a blank, if at all, and the body does not.
        obtain rfl : rest = [] := by
          cases rest with
          | nil => rfl
          | cons c rest => exact absurd (hgap c rfl) (by simpa using hbody c rfl)
        simpa using blanks space hspace
      · refine word space run rest hspace ⟨hne, hrun⟩ hgap (ih rest.length ?_ rest rfl)
        have hpos := List.length_pos_of_ne_nil hne
        simp only [List.length_append] at hlength
        omega

theorem words_eq_nil_iff : words text = [] ↔ ∀ c ∈ text, isBlank c = true := by
  constructor
  · induction text using wordInduction with
    | blanks space hspace => exact fun _ => hspace
    | word space word rest hspace hword hrest _ =>
        intro hnil
        rw [words_space_word hspace hword hrest] at hnil
        contradiction
  · exact words_eq_nil

end ContractAtlas.Text
