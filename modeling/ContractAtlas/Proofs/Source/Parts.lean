import ContractAtlas.Proofs.Source.Scan
import ContractAtlas.Proofs.Text.LeadingBlanks
import Mathlib.Data.List.DropRight

/-!
# What the parts of shapes read

A part of a shape goes on as long as a test holds, or up to a certain character.  So what it
reads and what it leaves are determined by two facts: the test holds in the whole of what was
read, and it fails where the rest begins.  Each part is described here by an equivalence of
this kind, which says when it reads a given piece and when it reads nothing.
-/

namespace ContractAtlas.Source

open ContractAtlas.Text

variable {text rest : List Char}

/-! ## Runs -/

theorem stopsAt_dropWhile (test : Char → Bool) (text : List Char) :
    StopsAt test (text.dropWhile test) := by
  intro c hc
  have hfails := List.head?_dropWhile_not test text
  rw [hc] at hfails
  simpa using hfails

/-- A text is a run and a rest at which the run stops in one way only. -/
theorem takeWhile_dropWhile_eq_iff {test : Char → Bool} {run : List Char} :
    (text.takeWhile test = run ∧ text.dropWhile test = rest) ↔
      (∀ c ∈ run, test c = true) ∧ StopsAt test rest ∧ text = run ++ rest := by
  constructor
  · rintro ⟨rfl, rfl⟩
    exact ⟨fun c hc => List.mem_takeWhile_imp hc, stopsAt_dropWhile test text,
      List.takeWhile_append_dropWhile.symm⟩
  · rintro ⟨hrun, hrest, rfl⟩
    exact ⟨takeWhile_append_of_stopsAt hrun hrest, dropWhile_append_of_stopsAt hrun hrest⟩

/-- What comes first in a text behind a run is a blank or what stands behind the blanks. -/
theorem StopsAt.append_of_isBlank {test : Char → Bool} {space : List Char}
    (hblank : ∀ {c}, isBlank c = true → test c = false) (hspace : ∀ c ∈ space, isBlank c = true)
    (hrest : StopsAt test rest) : StopsAt test (space ++ rest) := by
  cases space with
  | nil => exact hrest
  | cons c more =>
      rintro _ ⟨⟩
      exact hblank (hspace c List.mem_cons_self)

theorem StopsAt.of_append {test : Char → Bool} {left right : List Char}
    (hstops : StopsAt test (left ++ right)) : StopsAt test left := by
  cases left with
  | nil => exact fun _ hc => by contradiction
  | cons c left => exact hstops

/-! ## Words and blanks -/

theorem after?_eq_some_iff {word : String} :
    after? word text = some rest ↔ text = word.toList ++ rest :=
  ⟨eq_append_of_after?, fun h => h ▸ after?_append_left word rest⟩

theorem keyword?_eq_some_iff {word : String} {before : Option Char} :
    keyword? word before text = some rest ↔
      (∀ c ∈ before, isWord c = false) ∧ text = word.toList ++ rest := by
  rw [← after?_eq_some_iff, keyword?]
  cases before with
  | none => simp
  | some c => cases hc : isWord c <;> simp [hc]

theorem trimStart_eq_iff :
    trimStart text = rest ↔
      StopsAt isBlank rest ∧ ∃ space, (∀ c ∈ space, isBlank c = true) ∧ text = space ++ rest := by
  constructor
  · intro htrim
    obtain ⟨hspace, hrest, htext⟩ := takeWhile_dropWhile_eq_iff.mp ⟨rfl, htrim⟩
    exact ⟨hrest, _, hspace, htext⟩
  · rintro ⟨hrest, space, hspace, rfl⟩
    exact dropWhile_append_of_stopsAt hspace hrest

theorem trimEnd_append_of_isBlank {space : List Char} (hspace : ∀ c ∈ space, isBlank c = true)
    (text : List Char) : trimEnd (text ++ space) = trimEnd text := by
  have hback : ∀ c ∈ space.reverse, isBlank c = true := fun c hc =>
    hspace c (List.mem_reverse.mp hc)
  rw [trimEnd, List.reverse_append, List.dropWhile_append_of_pos hback, ← trimEnd]

theorem exists_eq_trimEnd_append (text : List Char) :
    ∃ space, (∀ c ∈ space, isBlank c = true) ∧ text = trimEnd text ++ space := by
  refine ⟨(text.reverse.takeWhile isBlank).reverse, ?_, ?_⟩
  · exact fun c hc => List.mem_takeWhile_imp (List.mem_reverse.mp hc)
  · rw [trimEnd, ← List.reverse_append, List.takeWhile_append_dropWhile, List.reverse_reverse]

theorem exists_eq_append_trim (text : List Char) : ∃ front back,
    text = front ++ (trim text ++ back) ∧ (∀ c ∈ front, isBlank c = true) ∧
      ∀ c ∈ back, isBlank c = true := by
  obtain ⟨-, front, hfront, htext⟩ := trimStart_eq_iff.mp (Eq.refl (trimStart text))
  obtain ⟨back, hback, hstart⟩ := exists_eq_trimEnd_append (trimStart text)
  refine ⟨front, back, ?_, hfront, hback⟩
  rw [trim, ← hstart]
  exact htext

theorem trim_subset (text : List Char) : trim text ⊆ text := by
  obtain ⟨front, back, htext, -, -⟩ := exists_eq_append_trim text
  intro c hc
  rw [htext]
  exact List.mem_append_right front (List.mem_append_left back hc)

theorem trimEnd_trimEnd (text : List Char) : trimEnd (trimEnd text) = trimEnd text := by
  rw [trimEnd, trimEnd, List.reverse_reverse, List.dropWhile_idempotent]

/-- The character that a text starts with stays where it is. -/
theorem stopsAt_trimEnd {test : Char → Bool} (htext : StopsAt test text) :
    StopsAt test (trimEnd text) := by
  obtain ⟨space, -, hsplit⟩ := exists_eq_trimEnd_append text
  rw [hsplit] at htext
  exact htext.of_append

theorem stopsAt_trim (text : List Char) : StopsAt isBlank (trim text) :=
  stopsAt_trimEnd (stopsAt_dropWhile isBlank text)

theorem trim_trimEnd (htext : StopsAt isBlank text) : trim (trimEnd text) = trimEnd text := by
  rw [trim, trimStart_of_stopsAt (stopsAt_trimEnd htext), trimEnd_trimEnd]

theorem blanks?_eq_some_iff :
    blanks? text = some rest ↔ StopsAt isBlank rest ∧
      ∃ gap, gap ≠ [] ∧ (∀ c ∈ gap, isBlank c = true) ∧ text = gap ++ rest := by
  cases text with
  | nil => simp [blanks?]
  | cons c more =>
      simp only [blanks?]
      constructor
      · intro hread
        split at hread
        next hc =>
          obtain ⟨hrest, space, hspace, hmore⟩ := trimStart_eq_iff.mp (Option.some.inj hread)
          refine ⟨hrest, c :: space, List.cons_ne_nil c space, ?_, by rw [hmore, List.cons_append]⟩
          exact List.forall_mem_cons.mpr ⟨hc, hspace⟩
        · contradiction
      · rintro ⟨hrest, gap, hne, hgap, htext⟩
        obtain ⟨d, space, rfl⟩ := List.exists_cons_of_ne_nil hne
        obtain ⟨hc, hspace⟩ := List.forall_mem_cons.mp hgap
        obtain ⟨rfl, hmore⟩ := List.cons.inj htext
        rw [if_pos hc, trimStart_eq_iff.mpr ⟨hrest, space, hspace, hmore⟩]

/-- A name is a whole run of word characters. -/
theorem name?_eq_some_iff {name : List Char} :
    name? text = some (name, rest) ↔ name ≠ [] ∧ (∀ c ∈ name, isWord c = true) ∧
      StopsAt isWord rest ∧ text = name ++ rest := by
  rw [← takeWhile_dropWhile_eq_iff]
  simp only [name?]
  constructor
  · intro hread
    split at hread
    · contradiction
    next hne =>
      obtain ⟨hname, hrest⟩ := Prod.mk.inj (Option.some.inj hread)
      exact ⟨by simpa [hname] using hne, hname, hrest⟩
  · rintro ⟨hne, hname, hrest⟩
    rw [hname, hrest, if_neg (by simpa using hne)]

/-! ## Marks -/

theorem mark?_eq_some_iff {mark : Char} : mark? mark text = some rest ↔ text = mark :: rest := by
  constructor
  · exact length_mark?
  · rintro rfl
    rw [mark?, if_pos rfl]

theorem enclosed?_eq_some_iff {inside : List Char} :
    enclosed? text = some (inside, rest) ↔
      ')' ∉ inside ∧ text = '(' :: (inside ++ ')' :: rest) := by
  constructor
  · intro hread
    simp only [enclosed?, closed?, Option.bind_eq_bind, Option.bind_eq_some_iff, Option.pure_def,
      Option.some.injEq, Prod.mk.injEq, mark?_eq_some_iff] at hread
    obtain ⟨behind, rfl, left, hclose, hinside, rfl⟩ := hread
    obtain ⟨hrun, -, rfl⟩ := takeWhile_dropWhile_eq_iff.mp ⟨hinside, hclose⟩
    exact ⟨fun hmem => by simpa using hrun ')' hmem, rfl⟩
  · rintro ⟨hinside, rfl⟩
    exact enclosed?_append_of_notMem hinside rest

theorem upToBody?_eq_some_iff {header : List Char} :
    upToBody? text = some (header, rest) ↔
      (∀ c ∈ header, endsStatement c = false) ∧ text = header ++ '{' :: rest := by
  constructor
  · intro hread
    simp only [upToBody?, Option.bind_eq_bind, Option.bind_eq_some_iff, Option.pure_def,
      Option.some.injEq, Prod.mk.injEq, mark?_eq_some_iff] at hread
    obtain ⟨left, hmark, hheader, rfl⟩ := hread
    obtain ⟨hrun, -, rfl⟩ := takeWhile_dropWhile_eq_iff.mp ⟨hheader, hmark⟩
    exact ⟨fun c hc => by simpa using hrun c hc, rfl⟩
  · rintro ⟨hheader, rfl⟩
    exact upToBody?_append_of_notMem hheader rest

end ContractAtlas.Source
