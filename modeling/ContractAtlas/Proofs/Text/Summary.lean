import ContractAtlas.Proofs.Text.Words
import Mathlib.Data.List.Chain

/-!
# Summaries

An error shows the text it is about on one line of bounded length.  How blanks were set in the
text must not be seen there, so the line is tidy (`IsTidy`): no blank at its ends, and single
spaces elsewhere.  A text has one tidy line.  It can be had from the words, as `collapse` does, or
in two passes, which squeeze the runs of blanks and trim the ends (`collapse_eq_trim_squeeze`),
and it is the same for two texts exactly if they differ in their blanks only
(`collapse_eq_collapse_iff`).  A cut may fall anywhere, also behind a space: with the dots in
place the line is tidy again, so a summary of a summary changes nothing.
-/

namespace ContractAtlas

namespace Text

open Canonical

variable {left right space word rest text line : List Char} {limit : Int}

/-! ## Texts that differ in their blanks -/

/-- Two texts differ in their blanks only: the words are the same and come in the same order,
between neighbours both texts have blanks of any kind, and at its ends each has some or none. -/
inductive SpacedAlike : List Char → List Char → Prop
  | blanks {left right : List Char} (hleft : ∀ c ∈ left, isBlank c = true)
      (hright : ∀ c ∈ right, isBlank c = true) : SpacedAlike left right
  | word {space other word left right : List Char} (hspace : ∀ c ∈ space, isBlank c = true)
      (hother : ∀ c ∈ other, isBlank c = true) (hword : IsDense word)
      (hleft : ∀ c ∈ left.head?, isBlank c = true) (hright : ∀ c ∈ right.head?, isBlank c = true)
      (halike : SpacedAlike left right) :
      SpacedAlike (space ++ (word ++ left)) (other ++ (word ++ right))

namespace SpacedAlike

theorem words_eq (halike : SpacedAlike left right) : words left = words right := by
  induction halike with
  | blanks hleft hright => rw [words_eq_nil hleft, words_eq_nil hright]
  | word hspace hother hword hleft hright _ ih =>
      rw [words_space_word hspace hword hleft, words_space_word hother hword hright, ih]

theorem of_words_eq (hwords : words left = words right) : SpacedAlike left right := by
  induction left using wordInduction generalizing right with
  | blanks space hspace =>
      rw [words_eq_nil hspace] at hwords
      exact .blanks hspace (words_eq_nil_iff.mp hwords.symm)
  | word space word rest hspace hword hrest ih =>
      rw [words_space_word hspace hword hrest] at hwords
      cases right using wordInduction with
      | blanks other hother =>
          rw [words_eq_nil hother] at hwords
          contradiction
      | word other first behind hother hfirst hbehind =>
          rw [words_space_word hother hfirst hbehind] at hwords
          obtain ⟨rfl, hrests⟩ := List.cons.inj hwords
          exact .word hspace hother hword hrest hbehind (ih hrests)

theorem iff_words_eq : SpacedAlike left right ↔ words left = words right :=
  ⟨words_eq, of_words_eq⟩

instance (left right : List Char) : Decidable (SpacedAlike left right) :=
  decidable_of_iff _ iff_words_eq.symm

theorem collapse_eq (halike : SpacedAlike left right) : collapse left = collapse right := by
  rw [collapse, collapse, halike.words_eq]

/-- Nothing of how a text is spaced goes into its summary. -/
theorem summarize_eq (halike : SpacedAlike left right) (limit : Int) :
    summarize limit left = summarize limit right := by
  rw [summarize, summarize, halike.collapse_eq]

end SpacedAlike

/-! ## Tidy lines -/

/-- A line with no blank at its ends and with single spaces as its only blanks. -/
structure IsTidy (line : List Char) : Prop where
  first : ∀ c ∈ line.head?, isBlank c = false
  last : ∀ c ∈ line.getLast?, isBlank c = false
  space : ∀ c ∈ line, isBlank c = true → c = ' '
  single : line.IsChain fun c next => isBlank c = true → isBlank next = false

/-- What stands behind the first word is collapsed as if it stood alone, but for the space in
front of it. -/
theorem collapse_space_word (hspace : ∀ c ∈ space, isBlank c = true) (hword : IsDense word)
    (hrest : ∀ c ∈ rest.head?, isBlank c = true) (hne : words rest ≠ []) :
    collapse (space ++ (word ++ rest)) = word ++ ' ' :: collapse rest := by
  rw [collapse, words_space_word hspace hword hrest, List.intercalate_cons_of_ne_nil hne,
    List.append_assoc, List.singleton_append, ← collapse]

namespace IsTidy

/-- A blank in a line is a single space with a tidy line behind it. -/
theorem of_append_gap {gap : Char} (hline : IsTidy (left ++ gap :: right))
    (hgap : isBlank gap = true) : gap = ' ' ∧ right ≠ [] ∧ IsTidy right := by
  have hsuffix : gap :: right <:+ left ++ gap :: right := List.suffix_append left _
  have hlast : ∀ c ∈ (gap :: right).getLast?, isBlank c = false := by
    intro c hc
    apply hline.last
    rwa [List.getLast?_append_of_ne_nil left (List.cons_ne_nil gap right)]
  have hne : right ≠ [] := by
    rintro rfl
    have hvisible := hlast gap rfl
    rw [hgap] at hvisible
    contradiction
  obtain ⟨hnext, hsingle⟩ := List.isChain_cons.mp (hline.single.suffix hsuffix)
  refine ⟨hline.space gap (hsuffix.subset List.mem_cons_self) hgap, hne, ?_⟩
  constructor
  · exact fun c hc => hnext c hc hgap
  · rwa [← List.singleton_append, List.getLast?_append_of_ne_nil _ hne] at hlast
  · exact fun c hc => hline.space c (hsuffix.subset (List.mem_cons_of_mem gap hc))
  · exact hsingle

/-- The induction takes the first word away.  What is left has the space behind the word in
front, so the line is tidy without the blanks at its start. -/
theorem collapse_eq_trimStart (hline : IsTidy (trimStart text)) :
    collapse text = trimStart text := by
  induction text using wordInduction with
  | blanks space hspace =>
      have hnil : trimStart space = [] := List.dropWhile_eq_nil_iff.mpr hspace
      rw [hnil, collapse, words_eq_nil hspace]
      rfl
  | word space word rest hspace hword hrest ih =>
      have hstart : trimStart (space ++ (word ++ rest)) = word ++ rest := by
        obtain ⟨c, tail, rfl⟩ := List.exists_cons_of_ne_nil hword.ne_nil
        refine Source.dropWhile_append_of_stopsAt hspace ?_
        rintro _ ⟨⟩
        exact hword.dense c List.mem_cons_self
      rw [hstart] at hline ⊢
      cases rest with
      | nil =>
          rw [collapse, words_space_word hspace hword hrest, words_nil,
            List.intercalate_singleton, List.append_nil]
      | cons gap more =>
          obtain ⟨rfl, hne, hmore⟩ := hline.of_append_gap (hrest gap rfl)
          have htrim : trimStart (' ' :: more) = more := by
            rw [Source.trimStart_space, Source.trimStart_of_stopsAt hmore.first]
          rw [htrim] at ih
          have hcollapse : collapse (' ' :: more) = more := ih hmore
          have hwords : words (' ' :: more) ≠ [] := by
            intro hnil
            rw [collapse, hnil] at hcollapse
            exact hne hcollapse.symm
          rw [collapse_space_word hspace hword hrest hwords, hcollapse]

theorem collapse_eq (hline : IsTidy line) : collapse line = line := by
  have htrim : trimStart line = line := Source.trimStart_of_stopsAt hline.first
  have hcollapse : collapse line = trimStart line := collapse_eq_trimStart (by rwa [htrim])
  rw [hcollapse, htrim]

/-- A text has one tidy line. -/
theorem eq_collapse (hline : IsTidy line) (halike : SpacedAlike text line) :
    line = collapse text := by
  rw [halike.collapse_eq, hline.collapse_eq]

/-- A line may be cut anywhere, also behind a space, as long as dots end it. -/
theorem take_append_dots (hline : IsTidy line) (count : Nat) :
    IsTidy (line.take count ++ ['.', '.', '.']) := by
  constructor
  · intro c hc
    rw [List.head?_append, Option.mem_def, Option.or_eq_some_iff] at hc
    rcases hc with hc | ⟨-, hc⟩
    · have hfirst : Source.StopsAt isBlank (line.take count ++ line.drop count) := by
        rw [List.take_append_drop]
        exact hline.first
      exact hfirst.of_append c hc
    · obtain rfl : '.' = c := Option.some.inj hc
      decide
  · intro c hc
    rw [List.getLast?_append_of_ne_nil _ (List.cons_ne_nil _ _)] at hc
    obtain rfl : '.' = c := Option.some.inj hc
    decide
  · intro c hc hblank
    rcases List.mem_append.mp hc with hc | hc
    · exact hline.space c (List.mem_of_mem_take hc) hblank
    · obtain rfl : c = '.' := by simpa using hc
      revert hblank
      decide
  · refine (hline.single.take count).append (by decide) ?_
    rintro c - _ ⟨⟩ -
    decide

end IsTidy

/-! ## Collapsing in two passes -/

/-- Every run of blanks is written as one space. -/
def squeeze : List Char → List Char
  | [] => []
  | c :: rest =>
    if isBlank c then
      if rest.head?.any isBlank then squeeze rest else ' ' :: squeeze rest
    else c :: squeeze rest

theorem squeeze_append_word (hword : ∀ c ∈ word, isBlank c = false) (rest : List Char) :
    squeeze (word ++ rest) = word ++ squeeze rest := by
  induction word with
  | nil => rfl
  | cons c word ih =>
      obtain ⟨hc, hword⟩ := List.forall_mem_cons.mp hword
      rw [List.cons_append, squeeze, hc, if_neg Bool.false_ne_true, ih hword, List.cons_append]

theorem exists_squeeze_append_space (hspace : ∀ c ∈ space, isBlank c = true) (rest : List Char) :
    ∃ gap, (∀ c ∈ gap, isBlank c = true) ∧ squeeze (space ++ rest) = gap ++ squeeze rest := by
  induction space with
  | nil => exact ⟨[], by simp, rfl⟩
  | cons c space ih =>
      obtain ⟨hc, hspace⟩ := List.forall_mem_cons.mp hspace
      obtain ⟨gap, hgap, hsqueeze⟩ := ih hspace
      rw [List.cons_append, squeeze, if_pos hc, hsqueeze]
      split
      · exact ⟨gap, hgap, rfl⟩
      · exact ⟨' ' :: gap, List.forall_mem_cons.mpr ⟨by decide, hgap⟩, rfl⟩

/-- A squeezed text starts with a blank only if the text does. -/
theorem exists_of_mem_head?_squeeze {c : Char} (hc : c ∈ (squeeze text).head?) :
    ∃ d ∈ text.head?, isBlank d = isBlank c := by
  fun_induction squeeze text with
  | case1 => contradiction
  | case2 d rest hd hrest ih =>
      obtain ⟨next, hnext, hblank⟩ := ih hc
      rw [Option.mem_def.mp hnext, Option.any_some] at hrest
      exact ⟨d, rfl, by rw [hd, ← hblank, hrest]⟩
  | case3 d rest hd _ _ =>
      obtain rfl : ' ' = c := Option.some.inj hc
      exact ⟨d, rfl, by rw [hd]; decide⟩
  | case4 d rest _ _ =>
      obtain rfl : d = c := Option.some.inj hc
      exact ⟨d, rfl, rfl⟩

theorem mem_squeeze {c : Char} (hc : c ∈ squeeze text) :
    c = ' ' ∨ c ∈ text ∧ isBlank c = false := by
  fun_induction squeeze text with
  | case1 => contradiction
  | case2 d rest _ _ ih => exact (ih hc).imp_right fun h => ⟨List.mem_cons_of_mem d h.1, h.2⟩
  | case3 d rest _ _ ih =>
      rcases List.mem_cons.mp hc with rfl | hc
      · exact .inl rfl
      · exact (ih hc).imp_right fun h => ⟨List.mem_cons_of_mem d h.1, h.2⟩
  | case4 d rest hd ih =>
      rcases List.mem_cons.mp hc with rfl | hc
      · exact .inr ⟨List.mem_cons_self, Bool.eq_false_iff.mpr hd⟩
      · exact (ih hc).imp_right fun h => ⟨List.mem_cons_of_mem d h.1, h.2⟩

theorem eq_space_of_mem_squeeze {c : Char} (hc : c ∈ squeeze text) (hblank : isBlank c = true) :
    c = ' ' := by
  rcases mem_squeeze hc with rfl | ⟨-, hvisible⟩
  · rfl
  · rw [hblank] at hvisible
    contradiction

theorem isChain_squeeze (text : List Char) :
    (squeeze text).IsChain fun c next => isBlank c = true → isBlank next = false := by
  fun_induction squeeze text with
  | case1 => exact .nil
  | case2 c rest _ _ ih => exact ih
  | case3 c rest _ hrest ih =>
      refine List.isChain_cons.mpr ⟨fun next hnext _ => ?_, ih⟩
      obtain ⟨d, hd, hblank⟩ := exists_of_mem_head?_squeeze hnext
      rw [Option.mem_def.mp hd, Option.any_some, Bool.not_eq_true] at hrest
      rw [← hblank, hrest]
  | case4 c rest hc ih => exact List.isChain_cons.mpr ⟨fun _ _ hblank => absurd hblank hc, ih⟩

theorem spacedAlike_squeeze (text : List Char) : SpacedAlike text (squeeze text) := by
  induction text using wordInduction with
  | blanks space hspace =>
      refine .blanks hspace fun c hc => ?_
      rcases mem_squeeze hc with rfl | ⟨hmem, -⟩
      · decide
      · exact hspace c hmem
  | word space word rest hspace hword hrest ih =>
      obtain ⟨gap, hgap, hsqueeze⟩ := exists_squeeze_append_space hspace (word ++ rest)
      rw [hsqueeze, squeeze_append_word hword.dense]
      refine .word hspace hgap hword hrest (fun c hc => ?_) ih
      obtain ⟨d, hd, hblank⟩ := exists_of_mem_head?_squeeze hc
      rw [← hblank, hrest d hd]

/-- No blank is left at the ends, and a piece of a squeezed text is squeezed. -/
theorem isTidy_trim_squeeze (text : List Char) : IsTidy (trim (squeeze text)) := by
  constructor
  · exact Source.stopsAt_trim (squeeze text)
  · rw [trim, trimEnd, List.getLast?_reverse]
    exact Source.stopsAt_dropWhile isBlank _
  · exact fun c hc => eq_space_of_mem_squeeze (Source.trim_subset _ hc)
  · obtain ⟨front, back, hsplit, -, -⟩ := Source.exists_eq_append_trim (squeeze text)
    have hchain := isChain_squeeze text
    rw [hsplit] at hchain
    exact hchain.right_of_append.left_of_append

/-- To join the words by single spaces is to squeeze the runs of blanks and to trim the ends. -/
theorem collapse_eq_trim_squeeze (text : List Char) : collapse text = trim (squeeze text) := by
  have halike : SpacedAlike text (trim (squeeze text)) := by
    apply SpacedAlike.of_words_eq
    rw [words_trim, (spacedAlike_squeeze text).words_eq]
  exact ((isTidy_trim_squeeze text).eq_collapse halike).symm

theorem isTidy_collapse (text : List Char) : IsTidy (collapse text) := by
  rw [collapse_eq_trim_squeeze]
  exact isTidy_trim_squeeze text

theorem words_collapse (text : List Char) : words (collapse text) = words text := by
  rw [collapse_eq_trim_squeeze, words_trim, (spacedAlike_squeeze text).words_eq]

/-- Texts are collapsed to the same line exactly if they differ in their blanks only. -/
theorem collapse_eq_collapse_iff : collapse left = collapse right ↔ SpacedAlike left right := by
  constructor
  · intro heq
    have hwords := congrArg words heq
    rw [words_collapse, words_collapse] at hwords
    exact .of_words_eq hwords
  · exact SpacedAlike.collapse_eq

/-! ## Summaries -/

/-- The two forms of a summary, if the limit leaves room for the dots. -/
theorem summarize_cases (hlimit : 3 ≤ limit) (text : List Char) :
    ((collapse text).length ≤ limit ∧ summarize limit text = collapse text) ∨
      (limit < (collapse text).length ∧
        summarize limit text = (collapse text).take (limit - 3).toNat ++ ['.', '.', '.']) := by
  rw [summarize]
  by_cases hfits : (collapse text).length ≤ limit
  · exact .inl ⟨hfits, if_pos hfits⟩
  · refine .inr ⟨by omega, ?_⟩
    have hroom : 0 ≤ limit - 3 := by omega
    rw [if_neg hfits, takeSigned, if_pos hroom]

theorem isTidy_summarize (hlimit : 3 ≤ limit) (text : List Char) :
    IsTidy (summarize limit text) := by
  obtain ⟨-, hwhole⟩ | ⟨-, hcut⟩ := summarize_cases hlimit text
  · rw [hwhole]
    exact isTidy_collapse text
  · rw [hcut]
    exact (isTidy_collapse text).take_append_dots _

/-- A tidy line within the limit is its own summary. -/
theorem IsTidy.summarize_eq (hline : IsTidy line) (hlength : (line.length : Int) ≤ limit) :
    summarize limit line = line := by
  simp only [summarize, hline.collapse_eq, if_pos hlength]

/-- A line that may stand for a text: tidy, within the limit, the whole text if that fits, and
else its start and three dots. -/
structure IsSummary (limit : Int) (text line : List Char) : Prop where
  length_le : (line.length : Int) ≤ limit
  tidy : IsTidy line
  whole : ((trim (squeeze text)).length : Int) ≤ limit → line = trim (squeeze text)
  cut : line ≠ trim (squeeze text) →
    line = (trim (squeeze text)).take (limit - 3).toNat ++ ['.', '.', '.']

theorem isSummary_summarize (hlimit : 3 ≤ limit) (text : List Char) :
    IsSummary limit text (summarize limit text) := by
  have hcases := summarize_cases hlimit text
  rw [collapse_eq_trim_squeeze] at hcases
  refine ⟨length_summarize_le hlimit text, isTidy_summarize hlimit text, ?_, ?_⟩
  · intro hfits
    obtain ⟨-, hwhole⟩ | ⟨hlong, -⟩ := hcases
    · exact hwhole
    · omega
  · intro hne
    obtain ⟨-, hwhole⟩ | ⟨-, hcut⟩ := hcases
    · exact absurd hwhole hne
    · exact hcut

/-- A text is shown by a tidy line within the limit, which is its own summary and the summary of
every text that differs in its blanks only. -/
theorem isSummary_and_stable (hlimit : 3 ≤ limit) (text : List Char) :
    IsSummary limit text (summarize limit text) ∧
      summarize limit (summarize limit text) = summarize limit text ∧
      ∀ other, SpacedAlike text other → summarize limit other = summarize limit text := by
  have hsummary := isSummary_summarize hlimit text
  refine ⟨hsummary, hsummary.tidy.summarize_eq hsummary.length_le, ?_⟩
  exact fun other halike => (halike.summarize_eq limit).symm

/-- Three words on two lines, with blanks of several scripts. -/
def scatteredWords : List Char :=
  "\n\u3000hello\u2003 world\r\n\tagain ".toList

/-- The cut falls behind the second of three words, so there is a space in front of the dots. -/
theorem isSummary_and_stable_scatteredWords :
    (3 : Int) ≤ 15 ∧ SpacedAlike scatteredWords "hello  world again".toList ∧
      IsSummary 15 scatteredWords "hello world ...".toList ∧
      summarize 15 "hello world ...".toList = "hello world ...".toList ∧
      summarize 15 "hello  world again".toList = "hello world ...".toList := by
  have hlimit : (3 : Int) ≤ 15 := by decide
  have halike : SpacedAlike scatteredWords "hello  world again".toList := by decide +kernel
  have hshown : summarize 15 scatteredWords = "hello world ...".toList := by decide +kernel
  obtain ⟨hsummary, hstable, hother⟩ := isSummary_and_stable hlimit scatteredWords
  rw [hshown] at hsummary hstable hother
  exact ⟨hlimit, halike, hsummary, hstable, hother _ halike⟩

end Text

/-- A refused text is shown by a summary of at most eighty characters. -/
theorem FormatError.isSummary_ofText (fault : FormatFault) (text : String) :
    Text.IsSummary 80 text.toList (FormatError.ofText fault text).summary.toList := by
  rw [FormatError.ofText, String.toList_ofList]
  exact Text.isSummary_summarize (by decide) text.toList

end ContractAtlas
