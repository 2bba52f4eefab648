import ContractAtlas.Proofs.Source.Scan
import ContractAtlas.Proofs.Text.LeadingBlanks
import ContractAtlas.Source.Heading

/-!
# Scanning behind blanks

No construct starts with a blank, and a construct behind a blank is read as at the start of
a text.  Blanks in front of a text are therefore a quiet piece, and the scan goes on behind
them as it would without them: it finds the same constructs, each as much further on as
there are blanks.
-/

namespace ContractAtlas

/-! ## Declarations further on -/

/-- The same modifier in a text with that many more characters in front. -/
def ModifierDeclaration.shift (distance : Nat) (declaration : ModifierDeclaration) :
    ModifierDeclaration :=
  { declaration with offset := declaration.offset + distance }

def FunctionDeclaration.shift (distance : Nat) (declaration : FunctionDeclaration) :
    FunctionDeclaration :=
  { declaration with offset := declaration.offset + distance }

def EventDeclaration.shift (distance : Nat) (declaration : EventDeclaration) : EventDeclaration :=
  { declaration with offset := declaration.offset + distance }

def VariableDeclaration.shift (distance : Nat) (declaration : VariableDeclaration) :
    VariableDeclaration :=
  { declaration with offset := declaration.offset + distance }

end ContractAtlas

namespace ContractAtlas.Source

open ContractAtlas.Text

variable {α β : Type} {shape : Shape α} {blanks : List Char}

/-- The same occurrence in a text with that many more characters in front. -/
def Occurrence.shift (distance : Nat) (found : Occurrence α) : Occurrence α :=
  { found with start := found.start + distance, stop := found.stop + distance }

/-! ## Shapes that skip blanks -/

/-- A shape reads nothing at a blank, and behind a blank what it reads at the start. -/
structure SkipsBlanks (shape : Shape α) : Prop where
  at_blank : ∀ {c}, isBlank c = true → ∀ before rest, shape before (c :: rest) = none
  behind_blank : ∀ {c}, isBlank c = true → ∀ text, shape (some c) text = shape none text

theorem after?_of_isBlank {c : Char} (hblank : isBlank c = true) {word : String}
    (hword : startsVisibly word = true) (rest : List Char) : after? word (c :: rest) = none := by
  obtain ⟨visible, others, hchars, hvisible⟩ := exists_of_startsVisibly hword
  have hne : visible ≠ c := by
    rintro rfl
    rw [hblank] at hvisible
    contradiction
  rw [after?, hchars, List.isPrefixOf, beq_false_of_ne hne]
  rfl

theorem skipsBlanks_of_keyword {word : String} (hword : startsVisibly word = true)
    (next : List Char → Option (α × List Char)) :
    SkipsBlanks fun before text => keyword? word before text >>= next where
  at_blank := by
    intro c hblank before rest
    rw [keyword?, after?_of_isBlank hblank hword, ite_self]
    rfl
  behind_blank := by
    intro c hblank text
    simp [keyword?, isWord_of_isBlank hblank]

theorem skipsBlanks_titleShape : SkipsBlanks titleShape :=
  skipsBlanks_of_keyword (by decide : startsVisibly "contract" = true) _

theorem skipsBlanks_versionShape : SkipsBlanks versionShape :=
  skipsBlanks_of_keyword (by decide : startsVisibly "pragma" = true) _

theorem skipsBlanks_licenseShape : SkipsBlanks licenseShape where
  at_blank := by
    intro c hblank before rest
    rw [licenseShape, after?_of_isBlank hblank (by decide)]
    rfl
  behind_blank := fun _ _ => rfl

theorem skipsBlanks_functionShape : SkipsBlanks functionShape :=
  skipsBlanks_of_keyword (by decide : startsVisibly "function" = true) _

theorem skipsBlanks_eventShape : SkipsBlanks eventShape :=
  skipsBlanks_of_keyword (by decide : startsVisibly "event" = true) _

theorem skipsBlanks_modifierShape : SkipsBlanks modifierShape :=
  skipsBlanks_of_keyword (by decide : startsVisibly "modifier" = true) _

theorem skipsBlanks_functionWordShape : SkipsBlanks functionWordShape :=
  skipsBlanks_of_keyword (by decide : startsVisibly "function" = true) _

theorem endsStatement_of_isBlank {c : Char} (hblank : isBlank c = true) :
    endsStatement c = false :=
  forall_of_blankNumbers (fun c => endsStatement c = false) (by decide) hblank

/-- A type is a mapping or starts with an identifier, and neither is a blank. -/
theorem skipsBlanks_typeFirstShape : SkipsBlanks typeFirstShape where
  at_blank := by
    intro c hblank before rest
    have hmapping : mappingVariable? (c :: rest) = none := by
      rw [mappingVariable?, after?_of_isBlank hblank (by decide)]
      rfl
    have hplain : plainVariable? (c :: rest) = none := by
      simp [plainVariable?, startsIdentifier_of_isBlank hblank]
    rw [typeFirstShape, hmapping, hplain]
    exact ite_self _
  behind_blank := by
    intro c hblank text
    simp [typeFirstShape, isQualified_of_isBlank hblank]

theorem skipsBlanks_visibilityFirstShape : SkipsBlanks visibilityFirstShape where
  at_blank := by
    intro c hblank before rest
    have hnone : storageVisibility? (c :: rest) = none := by
      rw [storageVisibility?, List.findSome?_eq_none_iff]
      intro visibility _
      have hword : startsVisibly visibility.keyword = true := by cases visibility <;> decide
      rw [after?_of_isBlank hblank hword]
      rfl
    rw [visibilityFirstShape, hnone]
    exact ite_self _
  behind_blank := by
    intro c hblank text
    simp [visibilityFirstShape, isWord_of_isBlank hblank]

/-! ## The scan goes on behind blanks -/

theorem occurrencesFrom_shift (distance : Nat) (before : Option Char) (skipped position : Nat)
    (text : List Char) : occurrencesFrom shape before skipped (position + distance) text =
      (occurrencesFrom shape before skipped position text).map (·.shift distance) := by
  induction text generalizing before skipped position with
  | nil => rfl
  | cons c rest ih =>
      have hnext : position + distance + 1 = position + 1 + distance := by omega
      cases skipped with
      | succ more => rw [occurrencesFrom, occurrencesFrom, hnext, ih]
      | zero =>
          cases hread : shape before (c :: rest) with
          | none => simp only [occurrencesFrom, hread, hnext, ih]
          | some read =>
              simp only [occurrencesFrom, hread, hnext, ih, List.map_cons, Occurrence.shift]
              congr 2
              omega

theorem SkipsBlanks.quiet (hshape : SkipsBlanks shape) (hblanks : ∀ c ∈ blanks, isBlank c = true)
    (rest : List Char) : Quiet shape blanks rest := by
  induction blanks with
  | nil => exact Quiet.nil rest
  | cons c piece ih =>
      obtain ⟨hc, hpiece⟩ := List.forall_mem_cons.mp hblanks
      exact Quiet.cons (quiet_singleton fun before => hshape.at_blank hc before _) (ih hpiece)

theorem SkipsBlanks.occurrencesFrom_behind (hshape : SkipsBlanks shape) {c : Char}
    (hblank : isBlank c = true) (position : Nat) (text : List Char) :
    occurrencesFrom shape (some c) 0 position text =
      occurrencesFrom shape none 0 position text := by
  cases text with
  | nil => rfl
  | cons d rest => rw [occurrencesFrom, occurrencesFrom, hshape.behind_blank hblank]

/-- Blanks in front of a text move its occurrences and add none. -/
theorem SkipsBlanks.occurrences_append (hshape : SkipsBlanks shape)
    (hblanks : ∀ c ∈ blanks, isBlank c = true) (text : List Char) :
    occurrences shape (blanks ++ text) =
      (occurrences shape text).map (·.shift blanks.length) := by
  rw [occurrences, hshape.quiet hblanks text none 0, occurrencesFrom_shift, occurrences]
  congr 1
  cases hlast : blanks.getLast? with
  | none => rfl
  | some c => exact hshape.occurrencesFrom_behind (hblanks c (List.mem_of_getLast? hlast)) 0 text

theorem SkipsBlanks.first?_append (hshape : SkipsBlanks shape)
    (hblanks : ∀ c ∈ blanks, isBlank c = true) (text : List Char) :
    first? shape (blanks ++ text) = first? shape text := by
  rw [first?, hshape.occurrences_append hblanks, List.head?_map, Option.map_map, first?]
  rfl

/-! ## The declarations of a source -/

theorem modifiers_append_of_isBlank (hblanks : ∀ c ∈ blanks, isBlank c = true)
    (text : List Char) :
    modifiers (blanks ++ text) = (modifiers text).map (·.shift blanks.length) := by
  simp only [modifiers, skipsBlanks_modifierShape.occurrences_append hblanks, List.map_map]
  rfl

theorem functions_append_of_isBlank (hblanks : ∀ c ∈ blanks, isBlank c = true)
    (text : List Char) :
    functions (blanks ++ text) = (functions text).map (·.shift blanks.length) := by
  simp only [functions, skipsBlanks_functionShape.occurrences_append hblanks, List.map_map]
  rfl

theorem events_append_of_isBlank (hblanks : ∀ c ∈ blanks, isBlank c = true) (text : List Char) :
    events (blanks ++ text) = (events text).map (·.shift blanks.length) := by
  simp only [events, skipsBlanks_eventShape.occurrences_append hblanks, List.map_map]
  rfl

/-! ## State variables -/

/-- The statement before a position may reach back over the blanks, but they hold no word. -/
theorem inFunctionHeader_append_of_isBlank (hblanks : ∀ c ∈ blanks, isBlank c = true)
    (text : List Char) (position : Nat) :
    inFunctionHeader (blanks ++ text) (position + blanks.length) =
      inFunctionHeader text position := by
  have hpass : blanks.reverse.takeWhile (!endsStatement ·) = blanks.reverse := by
    rw [List.takeWhile_eq_self_iff]
    intro c hc
    rw [endsStatement_of_isBlank (hblanks c (List.mem_reverse.mp hc))]
    rfl
  rw [inFunctionHeader, inFunctionHeader, Nat.add_comm, List.take_length_add_append,
    List.reverse_append, List.takeWhile_append, hpass]
  split
  next hwhole =>
    have hself : (text.take position).reverse.takeWhile (!endsStatement ·) =
        (text.take position).reverse :=
      (List.takeWhile_prefix _).eq_of_length hwhole
    rw [hself, List.reverse_append, List.reverse_reverse, List.reverse_reverse,
      skipsBlanks_functionWordShape.occurrences_append hblanks, List.isEmpty_map]
  · rfl

theorem overlaps_shift (distance : Nat) (left : Occurrence α) (right : Occurrence β) :
    (left.shift distance).overlaps (right.shift distance) = left.overlaps right := by
  simp [Occurrence.overlaps, Occurrence.shift]

theorem variableOccurrences_append_of_isBlank (hblanks : ∀ c ∈ blanks, isBlank c = true)
    (text : List Char) :
    variableOccurrences (blanks ++ text) =
      (variableOccurrences text).map (·.shift blanks.length) := by
  -- Both filters ask about places in the text, which move with the occurrences.
  have hheader : ∀ found : Occurrence VariableParts,
      inFunctionHeader (blanks ++ text) (found.shift blanks.length).start =
        inFunctionHeader text found.start := fun found =>
    inFunctionHeader_append_of_isBlank hblanks text found.start
  simp only [variableOccurrences, skipsBlanks_typeFirstShape.occurrences_append hblanks,
    skipsBlanks_visibilityFirstShape.occurrences_append hblanks, List.filter_map, List.any_map,
    Function.comp_def, hheader, overlaps_shift]
  rw [List.map_merge]
  intro left _ right _
  simp [Occurrence.shift]

theorem stateVariables_append_of_isBlank (hblanks : ∀ c ∈ blanks, isBlank c = true)
    (text : List Char) :
    stateVariables (blanks ++ text) = (stateVariables text).map (·.shift blanks.length) := by
  simp only [stateVariables, variableOccurrences_append_of_isBlank hblanks, List.map_map]
  rfl

end ContractAtlas.Source
