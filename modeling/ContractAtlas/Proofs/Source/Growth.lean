import ContractAtlas.Source.Member
import Mathlib.Data.List.Infix
import Mathlib.Data.List.TakeWhile

/-!
# Scanning a text that grows

Text that is added at the end may complete a construct that was still open.  What has
been found before stays, as long as every construct that is still open reaches to the
end: it then covers nothing that has been found behind its start.  For functions this
is so because an open function has no brace behind the closing parenthesis of its
parameter list, and a complete one has.  The functions of a text are therefore the first
functions of every longer one.
-/

namespace ContractAtlas.Source

open ContractAtlas.Text

variable {α : Type} {text rest more : List Char}

/-! ## Shapes that are settled by a part of the text -/

/-- Once a text is settled, nothing that follows changes what a shape reads at its start,
and whatever a shape reads is settled. -/
structure SettledBy (shape : Shape α) (settled : List Char → Prop) : Prop where
  append : ∀ before {text}, settled text → ∀ more,
    shape before (text ++ more) = (shape before text).map fun read => (read.1, read.2 ++ more)
  of_read : ∀ {before text read}, shape before text = some read → settled text
  cons : ∀ {c rest}, settled rest → settled (c :: rest)

theorem SettledBy.occurrencesFrom_eq_nil {shape : Shape α} {settled : List Char → Prop}
    (hshape : SettledBy shape settled) {before : Option Char} {skipped position : Nat}
    (hopen : ¬ settled text) : occurrencesFrom shape before skipped position text = [] := by
  induction text generalizing before skipped position with
  | nil => rfl
  | cons c rest ih =>
      have hrest : ¬ settled rest := fun hsettled => hopen (hshape.cons hsettled)
      cases skipped with
      | succ more => exact ih hrest
      | zero =>
          cases hread : shape before (c :: rest) with
          | none =>
              simp only [occurrencesFrom, hread]
              exact ih hrest
          | some read => exact absurd (hshape.of_read hread) hopen

/-- The occurrences in a text are the first ones in every longer text. -/
theorem SettledBy.occurrencesFrom_prefix {shape : Shape α} {settled : List Char → Prop}
    (hshape : SettledBy shape settled) (before : Option Char) (skipped position : Nat)
    (text more : List Char) :
    occurrencesFrom shape before skipped position text <+:
      occurrencesFrom shape before skipped position (text ++ more) := by
  induction text generalizing before skipped position with
  | nil => exact List.nil_prefix
  | cons c rest ih =>
      by_cases hsettled : settled (c :: rest)
      · cases skipped with
        | succ left => exact ih (some c) left (position + 1)
        | zero =>
            have happend := hshape.append before hsettled more
            rw [List.cons_append] at happend ⊢
            cases hread : shape before (c :: rest) with
            | none =>
                simp only [occurrencesFrom, happend, hread, Option.map_none]
                exact ih (some c) 0 (position + 1)
            | some read =>
                have hlength : (rest ++ more).length + 1 - (read.2 ++ more).length =
                    rest.length + 1 - read.2.length := by
                  simp only [List.length_append]
                  omega
                simp only [occurrencesFrom, happend, hread, Option.map_some, hlength]
                exact List.cons_prefix_cons.mpr ⟨rfl, ih (some c) _ (position + 1)⟩
      · rw [hshape.occurrencesFrom_eq_nil hsettled]
        exact List.nil_prefix

/-! ## Runs of characters in a longer text -/

theorem dropWhile_append_of_mem (test : Char → Bool) {stop : Char} (hstop : stop ∈ text)
    (htest : test stop = false) (more : List Char) :
    (text ++ more).dropWhile test = text.dropWhile test ++ more := by
  have hne : (text.dropWhile test).isEmpty = false := by
    rw [List.isEmpty_eq_false_iff, ne_eq, List.dropWhile_eq_nil_iff]
    intro hall
    rw [hall stop hstop] at htest
    contradiction
  rw [List.dropWhile_append, hne]
  rfl

theorem takeWhile_append_of_mem (test : Char → Bool) {stop : Char} (hstop : stop ∈ text)
    (htest : test stop = false) (more : List Char) :
    (text ++ more).takeWhile test = text.takeWhile test := by
  have hne : (text.takeWhile test).length ≠ text.length := by
    intro hlength
    have hall : text.takeWhile test = text := (List.takeWhile_prefix test).eq_of_length hlength
    have := List.takeWhile_eq_self_iff.mp hall stop hstop
    rw [this] at htest
    contradiction
  rw [List.takeWhile_append, if_neg hne]

theorem mark?_append {mark : Char} (hne : text ≠ []) (more : List Char) :
    mark? mark (text ++ more) = (mark? mark text).map (· ++ more) := by
  cases text with
  | nil => contradiction
  | cons c rest =>
      by_cases hmark : c = mark
      · simp [mark?, hmark]
      · simp [mark?, hmark]

/-! ## The parts of a function -/

/-- A brace opens somewhere behind the first closing parenthesis. -/
def OpensBody (text : List Char) : Prop :=
  '{' ∈ text.dropWhile (· ≠ ')')

theorem OpensBody.mem (hopens : OpensBody text) : ')' ∈ text := by
  by_contra habsent
  have hnil : text.dropWhile (· ≠ ')') = [] := by
    rw [List.dropWhile_eq_nil_iff]
    intro c hc
    have hne : c ≠ ')' := fun heq => habsent (heq ▸ hc)
    simp [hne]
  rw [OpensBody, hnil] at hopens
  contradiction

/-- What stands in front without a closing parenthesis does not matter. -/
theorem opensBody_append_iff {front : List Char} (hfront : ')' ∉ front) :
    OpensBody (front ++ rest) ↔ OpensBody rest := by
  rw [OpensBody, OpensBody, List.dropWhile_append_of_pos]
  intro c hc
  have hne : c ≠ ')' := fun heq => hfront (heq ▸ hc)
  simp [hne]

theorem opensBody_dropWhile_iff {test : Char → Bool} (htest : test ')' = false) :
    OpensBody (text.dropWhile test) ↔ OpensBody text := by
  have hfront : ')' ∉ text.takeWhile test := by
    intro hmem
    rw [List.mem_takeWhile_imp hmem] at htest
    contradiction
  rw [← opensBody_append_iff hfront, List.takeWhile_append_dropWhile]

theorem OpensBody.cons {c : Char} (hopens : OpensBody rest) : OpensBody (c :: rest) := by
  rw [OpensBody] at hopens ⊢
  by_cases hclosing : c = ')'
  · simp only [hclosing, ne_eq, not_true_eq_false, decide_false, Bool.false_eq_true,
      not_false_eq_true, List.dropWhile_cons_of_neg]
    exact List.mem_cons_of_mem _ ((List.dropWhile_suffix _).subset hopens)
  · simpa [hclosing] using hopens

theorem eq_append_of_after? {word : String} (hafter : after? word text = some rest) :
    text = word.toList ++ rest := by
  rw [after?] at hafter
  split at hafter
  next hprefix =>
    obtain ⟨tail, rfl⟩ := List.isPrefixOf_iff_prefix.mp hprefix
    rw [← String.length_toList, List.drop_left] at hafter
    rw [Option.some.inj hafter]
  · contradiction

theorem after?_append_left (word : String) (rest : List Char) :
    after? word (word.toList ++ rest) = some rest := by
  have hprefix : word.toList.isPrefixOf (word.toList ++ rest) = true :=
    List.isPrefixOf_iff_prefix.mpr (List.prefix_append _ _)
  rw [after?, if_pos hprefix, ← String.length_toList, List.drop_left]

theorem after?_append {word : String} {stop : Char} (hstop : stop ∈ text)
    (hword : stop ∉ word.toList) (more : List Char) :
    after? word (text ++ more) = (after? word text).map (· ++ more) := by
  cases hafter : after? word text with
  | some rest =>
      rw [eq_append_of_after? hafter, List.append_assoc, after?_append_left]
      rfl
  | none =>
      cases hlonger : after? word (text ++ more) with
      | none => rfl
      | some rest =>
          rcases List.append_eq_append_iff.mp (eq_append_of_after? hlonger) with
            ⟨inside, hinside, -⟩ | ⟨left, hleft, -⟩
          · exact absurd (hinside ▸ List.mem_append_left _ hstop) hword
          · rw [hleft, after?_append_left] at hafter
            contradiction

theorem keyword?_append {word : String} {stop : Char} (hstop : stop ∈ text)
    (hword : stop ∉ word.toList) (before : Option Char) (more : List Char) :
    keyword? word before (text ++ more) = (keyword? word before text).map (· ++ more) := by
  rw [keyword?, keyword?]
  split
  · rfl
  · exact after?_append hstop hword more

theorem opensBody_of_keyword? {word : String} {before : Option Char}
    (hword : ')' ∉ word.toList) (hkeyword : keyword? word before text = some rest) :
    OpensBody text ↔ OpensBody rest := by
  rw [keyword?] at hkeyword
  split at hkeyword
  · contradiction
  · rw [eq_append_of_after? hkeyword, opensBody_append_iff hword]

theorem blanks?_append {stop : Char} (hstop : stop ∈ text) (hblank : isBlank stop = false)
    (more : List Char) : blanks? (text ++ more) = (blanks? text).map (· ++ more) := by
  cases text with
  | nil => contradiction
  | cons c rest =>
      rw [List.cons_append, blanks?, blanks?]
      split
      next hc =>
        have hrest : stop ∈ rest := by
          rcases List.mem_cons.mp hstop with rfl | hmem
          · rw [hc] at hblank
            contradiction
          · exact hmem
        rw [trimStart, dropWhile_append_of_mem isBlank hrest hblank, Option.map_some, trimStart]
      · rfl

theorem opensBody_of_blanks? (hblanks : blanks? text = some rest) :
    OpensBody text ↔ OpensBody rest := by
  cases text with
  | nil => contradiction
  | cons c tail =>
      rw [blanks?] at hblanks
      split at hblanks
      next hc =>
        have hne : ')' ∉ [c] := by
          intro hmem
          rw [← List.mem_singleton.mp hmem] at hc
          contradiction
        rw [← Option.some.inj hblanks, trimStart, opensBody_dropWhile_iff (by decide),
          ← List.singleton_append, opensBody_append_iff hne]
      · contradiction

theorem name?_append {stop : Char} (hstop : stop ∈ text) (hword : isWord stop = false)
    (more : List Char) :
    name? (text ++ more) = (name? text).map fun read => (read.1, read.2 ++ more) := by
  simp only [name?, takeWhile_append_of_mem isWord hstop hword,
    dropWhile_append_of_mem isWord hstop hword]
  split <;> rfl

theorem opensBody_of_name? {name : List Char} (hname : name? text = some (name, rest)) :
    OpensBody text ↔ OpensBody rest := by
  simp only [name?] at hname
  split at hname
  · contradiction
  · injection hname with hname
    injection hname with _ hrest
    rw [← hrest, opensBody_dropWhile_iff (by decide)]

/-- Behind the parameter list a brace is enough. -/
theorem opensBody_of_enclosed? {inside : List Char}
    (henclosed : enclosed? text = some (inside, rest)) : OpensBody text ↔ '{' ∈ rest := by
  simp only [enclosed?, closed?, Option.bind_eq_bind, Option.bind_eq_some_iff, Option.pure_def,
    Option.some.injEq, Prod.mk.injEq] at henclosed
  obtain ⟨tail, hopen, left, hclose, -, rfl⟩ := henclosed
  rw [length_mark? hopen, ← List.singleton_append, opensBody_append_iff (by decide), OpensBody,
    length_mark? hclose]
  simp

theorem enclosed?_append (hopens : OpensBody text) (more : List Char) :
    enclosed? (text ++ more) = (enclosed? text).map fun read => (read.1, read.2 ++ more) := by
  have hne : text ≠ [] := List.ne_nil_of_mem hopens.mem
  rw [enclosed?, enclosed?, mark?_append hne]
  cases hopen : mark? '(' text with
  | none => rfl
  | some tail =>
      have hmem : ')' ∈ tail := by
        have := hopens.mem
        rw [length_mark? hopen] at this
        simpa using this
      have hdrop : tail.dropWhile (· ≠ ')') ≠ [] := by
        rw [ne_eq, List.dropWhile_eq_nil_iff]
        intro hall
        have := hall ')' hmem
        contradiction
      simp only [Option.map_some, Option.bind_eq_bind, Option.bind_some, closed?,
        dropWhile_append_of_mem (· ≠ ')') hmem (by decide),
        takeWhile_append_of_mem (· ≠ ')') hmem (by decide),
        mark?_append hdrop]
      cases mark? ')' (tail.dropWhile (· ≠ ')')) <;> rfl

theorem upToBody?_append (hbrace : '{' ∈ text) (more : List Char) :
    upToBody? (text ++ more) = (upToBody? text).map fun read => (read.1, read.2 ++ more) := by
  have hdrop : text.dropWhile (!endsStatement ·) ≠ [] := by
    rw [ne_eq, List.dropWhile_eq_nil_iff]
    intro hall
    have := hall '{' hbrace
    contradiction
  simp only [upToBody?, dropWhile_append_of_mem (!endsStatement ·) hbrace (by decide),
    takeWhile_append_of_mem (!endsStatement ·) hbrace (by decide), mark?_append hdrop]
  cases mark? '{' (text.dropWhile (!endsStatement ·)) <;> rfl

theorem mem_of_upToBody? {header : List Char} (hbody : upToBody? text = some (header, rest)) :
    '{' ∈ text := by
  simp only [upToBody?, Option.bind_eq_bind, Option.bind_eq_some_iff, Option.pure_def] at hbody
  obtain ⟨left, hmark, -⟩ := hbody
  apply (List.dropWhile_suffix (!endsStatement ·)).subset
  rw [length_mark? hmark]
  exact List.mem_cons_self

/-! ## Functions -/

theorem settledBy_functionShape : SettledBy functionShape OpensBody where
  append := by
    intro before text hopens more
    simp only [functionShape]
    have hclosing := hopens.mem
    rw [keyword?_append hclosing (by decide)]
    cases hkeyword : keyword? "function" before text with
    | none => rfl
    | some afterKeyword =>
    replace hopens := (opensBody_of_keyword? (by decide) hkeyword).mp hopens
    simp only [Option.map_some, Option.bind_eq_bind, Option.bind_some]
    rw [blanks?_append hopens.mem (by decide)]
    cases hblanks : blanks? afterKeyword with
    | none => rfl
    | some afterBlanks =>
    replace hopens := (opensBody_of_blanks? hblanks).mp hopens
    simp only [Option.map_some, Option.bind_some]
    rw [name?_append hopens.mem (by decide)]
    cases hname : name? afterBlanks with
    | none => rfl
    | some read =>
    obtain ⟨name, afterName⟩ := read
    replace hopens := (opensBody_of_name? hname).mp hopens
    have hbefore : OpensBody (trimStart afterName) :=
      (opensBody_dropWhile_iff (by decide)).mpr hopens
    simp only [Option.map_some, Option.bind_some]
    rw [trimStart, dropWhile_append_of_mem isBlank hopens.mem (by decide), ← trimStart,
      enclosed?_append hbefore]
    cases henclosed : enclosed? (trimStart afterName) with
    | none => rfl
    | some read =>
    obtain ⟨parameters, afterParameters⟩ := read
    have hbrace := (opensBody_of_enclosed? henclosed).mp hbefore
    simp only [Option.map_some, Option.bind_some]
    rw [upToBody?_append hbrace]
    cases upToBody? afterParameters <;> rfl
  of_read := by
    intro before text read hread
    simp only [functionShape, Option.bind_eq_bind, Option.bind_eq_some_iff] at hread
    obtain ⟨afterKeyword, hkeyword, afterBlanks, hblanks, ⟨name, afterName⟩, hname,
      ⟨parameters, afterParameters⟩, henclosed, ⟨header, left⟩, hbody, -⟩ := hread
    rw [opensBody_of_keyword? (by decide) hkeyword, opensBody_of_blanks? hblanks,
      opensBody_of_name? hname,
      ← opensBody_dropWhile_iff (by decide : isBlank ')' = false), ← trimStart,
      opensBody_of_enclosed? henclosed]
    exact mem_of_upToBody? hbody
  cons := OpensBody.cons

/-- The functions of a text are the first functions of every longer text. -/
theorem functions_prefix_functions_append (text more : List Char) :
    functions text <+: functions (text ++ more) :=
  (settledBy_functionShape.occurrencesFrom_prefix none 0 0 text more).map declaredFunction

end ContractAtlas.Source
