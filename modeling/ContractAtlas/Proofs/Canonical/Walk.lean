import ContractAtlas.Proofs.Canonical.Words

/-!
# Walking over canonical words

Most shapes have nothing to do with most words.  `Passes` says when a shape passes over a
word: when it is none of its keys and what follows keeps calm.  Calm is a condition on the
text behind the word; a shape that is led by a keyword needs none, while a shape that
starts with a name has to know that no visibility follows.
-/

namespace ContractAtlas.Canonical

open ContractAtlas.Source ContractAtlas.Text

/-- The keywords of visibilities that a state variable can have. -/
def storageKeywords : List String := ["public", "private", "internal"]

/-- A shape passes over marks, over the inside of words, and over every word but its keys
as long as what follows is calm. -/
structure Passes {α : Type} (shape : Shape α) (keys : List String)
    (calm : List Char → Prop) : Prop where
  reserved : ∀ key ∈ keys, key ∈ reservedWords
  inner : ∀ {c d rest}, isPlain c = true → isPlain d = true → shape (some c) (d :: rest) = none
  mark : ∀ {c}, c ∈ marks → ∀ before rest, shape before (c :: rest) = none
  word : ∀ {word rest}, IsRun word → String.ofList word ∉ keys → MarkNext rest → calm rest →
    ∀ before, shape before (word ++ rest) = none
  calm_mark : ∀ {c}, c ∈ ['(', ')', ',', ';', '{'] → ∀ rest, calm (c :: rest)
  calm_space_mark : ∀ {c}, c ∈ ['(', '{', '='] → ∀ rest, calm (' ' :: c :: rest)
  calm_space_word : ∀ {word rest}, IsRun word → String.ofList word ∉ storageKeywords →
    MarkNext rest → calm (' ' :: (word ++ rest))
  calm_brackets : ∀ {rest}, calm rest → calm ('[' :: ']' :: rest)

/-- A piece over which a shape passes whatever follows, as long as it starts with a mark and
is calm. -/
def Passable {α : Type} (shape : Shape α) (calm : List Char → Prop) (piece : List Char) : Prop :=
  ∀ ⦃rest⦄, MarkNext rest → calm rest → Quiet shape piece rest

theorem passable_of_mem_map {α γ : Type} {shape : Shape α} {calm : List Char → Prop}
    {chars : γ → List Char} (hchars : ∀ value, Passable shape calm (chars value))
    (values : List γ) : ∀ item ∈ values.map chars, Passable shape calm item := by
  intro item hitem
  obtain ⟨value, -, rfl⟩ := List.mem_map.mp hitem
  exact hchars value

namespace Passes

variable {α : Type} {shape : Shape α} {keys : List String} {calm : List Char → Prop}
  (hpasses : Passes shape keys calm)

include hpasses

theorem quiet_mark {c : Char} (hc : c ∈ marks) (rest : List Char) : Quiet shape [c] rest :=
  quiet_singleton fun before => hpasses.mark hc before rest

theorem quiet_mark_cons {c : Char} (hc : c ∈ marks) {piece rest : List Char}
    (hpiece : Quiet shape piece rest) : Quiet shape (c :: piece) rest :=
  Quiet.cons (hpasses.quiet_mark hc _) hpiece

theorem quiet_marks {piece : List Char} (hpiece : piece ⊆ marks) (rest : List Char) :
    Quiet shape piece rest := by
  induction piece with
  | nil => exact Quiet.nil rest
  | cons c piece ih =>
      obtain ⟨hc, hpiece⟩ := List.cons_subset.mp hpiece
      exact hpasses.quiet_mark_cons hc (ih hpiece)

/-- A word is passed over as a whole if the shape does not read anything at its start. -/
theorem quiet_run {word rest : List Char} (hword : IsRun word)
    (hnone : ∀ before, shape before (word ++ rest) = none) : Quiet shape word rest := by
  have hinner : ∀ (c : Char) (run : List Char), isPlain c = true →
      (∀ d ∈ run, isPlain d = true) → ∀ position,
        occurrencesFrom shape (some c) 0 position (run ++ rest) =
          occurrencesFrom shape (run.getLast?.or (some c)) 0 (position + run.length) rest := by
    intro c run hc hrun position
    induction run generalizing c position with
    | nil => rfl
    | cons d run ih =>
        obtain ⟨hd, hrun⟩ := List.forall_mem_cons.mp hrun
        rw [List.cons_append, occurrencesFrom, hpasses.inner hc hd]
        simp only
        rw [ih d hd hrun, getLast?_cons_or, List.length_cons]
        congr 1
        omega
  obtain ⟨c, tail, rfl, hc⟩ := hword.exists_cons
  intro before position
  have htail := (List.forall_mem_cons.mp hword.plain).2
  have hscan := hnone before
  rw [List.cons_append] at hscan
  rw [List.cons_append, occurrencesFrom, hscan]
  simp only
  rw [hinner c tail hc htail, getLast?_cons_or, List.length_cons]
  congr 1
  omega

theorem quiet_word {word rest : List Char} (hword : IsRun word)
    (hkey : String.ofList word ∉ keys) (hrest : MarkNext rest) (hcalm : calm rest) :
    Quiet shape word rest :=
  hpasses.quiet_run hword fun before => hpasses.word hword hkey hrest hcalm before

/-! ### Names, types and parameters -/

theorem passable_identifier (identifier : Identifier) : Passable shape calm identifier.chars :=
  fun _ => hpasses.quiet_word identifier.isRun fun hkey =>
    identifier.notMem_reservedWords (hpasses.reserved _ hkey)

theorem passable_keyword {word : String} (hword : word ∈ reservedWords) (hkey : word ∉ keys) :
    Passable shape calm word.toList :=
  fun _ => hpasses.quiet_word (isRun_of_mem_reservedWords hword) (by rwa [String.ofList_toList])

theorem calm_space_identifier (identifier : Identifier) {rest : List Char} (hrest : MarkNext rest) :
    calm (' ' :: (identifier.chars ++ rest)) := by
  have hstorage : ∀ word ∈ storageKeywords, word ∈ reservedWords := by decide
  exact hpasses.calm_space_word identifier.isRun
    (fun hmem => identifier.notMem_reservedWords (hstorage _ hmem)) hrest

theorem calm_space_keyword {word : String} (hword : word ∈ reservedWords)
    (hstorage : word ∉ storageKeywords) {rest : List Char} (hrest : MarkNext rest) :
    calm (' ' :: (word.toList ++ rest)) :=
  hpasses.calm_space_word (isRun_of_mem_reservedWords hword) (by rwa [String.ofList_toList]) hrest

theorem passable_type (type : TypeName) : Passable shape calm type.chars := by
  intro rest hrest hcalm
  obtain ⟨base, isArray⟩ := type
  cases isArray with
  | false =>
      rw [TypeName.chars, if_neg Bool.false_ne_true, List.append_nil]
      exact hpasses.passable_identifier base hrest hcalm
  | true =>
      rw [TypeName.chars, if_pos rfl]
      exact Quiet.append
        (hpasses.passable_identifier base (markNext_cons (by decide) _)
          (hpasses.calm_brackets hcalm))
        (hpasses.quiet_marks (by decide) rest)

/-- A piece, a space and a name. -/
theorem passable_append_identifier {piece : List Char} (hpiece : Passable shape calm piece)
    (identifier : Identifier) : Passable shape calm (piece ++ ' ' :: identifier.chars) := by
  intro rest hrest hcalm
  exact Quiet.append (hpiece (markNext_cons (by decide) _)
      (hpasses.calm_space_identifier identifier hrest))
    (hpasses.quiet_mark_cons (by decide) (hpasses.passable_identifier identifier hrest hcalm))

theorem passable_input (input : Input) : Passable shape calm input.chars :=
  hpasses.passable_append_identifier (hpasses.passable_type input.type) input.name

theorem passable_eventInput (hkey : "indexed" ∉ keys) (input : EventInput) :
    Passable shape calm input.chars := by
  obtain ⟨type, isIndexed, name⟩ := input
  cases isIndexed with
  | false => exact hpasses.passable_append_identifier (hpasses.passable_type type) name
  | true =>
      have hindexed : Passable shape calm (type.chars ++ ' ' :: "indexed".toList) := by
        intro rest hrest hcalm
        exact Quiet.append (hpasses.passable_type type (markNext_cons (by decide) _)
            (hpasses.calm_space_keyword (by decide) (by decide) hrest))
          (hpasses.quiet_mark_cons (by decide)
            (hpasses.passable_keyword (by decide) hkey hrest hcalm))
      have hchars : EventInput.chars ⟨type, true, name⟩ =
          (type.chars ++ ' ' :: "indexed".toList) ++ ' ' :: name.chars := by
        simp [EventInput.chars]
      rw [hchars]
      exact hpasses.passable_append_identifier hindexed name

theorem passable_result (result : Result) : Passable shape calm result.chars := by
  obtain ⟨type, name⟩ := result
  cases name with
  | none =>
      rw [Result.chars, List.append_nil]
      exact hpasses.passable_type type
  | some name => exact hpasses.passable_append_identifier (hpasses.passable_type type) name

theorem passable_commaSeparated : ∀ {items : List (List Char)},
    (∀ item ∈ items, Passable shape calm item) → Passable shape calm (commaSeparated items)
  | [], _ => fun rest _ _ => Quiet.nil rest
  | [item], hitems => hitems item List.mem_cons_self
  | item :: next :: others, hitems => by
      obtain ⟨hitem, hothers⟩ := List.forall_mem_cons.mp hitems
      intro rest hrest hcalm
      exact Quiet.append
        (hitem (markNext_cons (by decide) _) (hpasses.calm_mark (by decide) _))
        (hpasses.quiet_mark_cons (by decide) (hpasses.quiet_mark_cons (by decide)
          (passable_commaSeparated hothers hrest hcalm)))

/-- A list in parentheses. -/
theorem quiet_enclosed {items : List (List Char)}
    (hitems : ∀ item ∈ items, Passable shape calm item)
    {piece rest : List Char} (hpiece : Quiet shape piece rest) :
    Quiet shape ('(' :: (commaSeparated items ++ ')' :: piece)) rest :=
  hpasses.quiet_mark_cons (by decide) (Quiet.append
    (hpasses.passable_commaSeparated hitems (markNext_cons (by decide) _)
      (hpasses.calm_mark (by decide) _))
    (hpasses.quiet_mark_cons (by decide) hpiece))

end Passes

end ContractAtlas.Canonical
