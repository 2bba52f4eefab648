import ContractAtlas.Proofs.Canonical.Variables
import ContractAtlas.Proofs.Keywords
import ContractAtlas.Proofs.Source.Leftmost
import ContractAtlas.Proofs.Source.Parts

/-!
# What follows the type of a state variable

Behind the type of a state variable stand its visibility, perhaps a qualifier, its name and the
end of the statement.  The qualifiers are words like any other, so a word behind the visibility
could be either.  It is a qualifier if a name follows, and the name of the variable if the end of
the statement follows, never both (`bind_namedValue?_eq_none`).  So the alternatives that are
tried one by one come to the one reading that the grammar allows (`variableTail?_eq_some_iff`).
-/

namespace ContractAtlas.Source

open ContractAtlas.Canonical ContractAtlas.Text

variable {text rest left piece : List Char}

/-! ## The grammars -/

/-- Blanks, one at least. -/
structure IsGap (gap : List Char) : Prop where
  ne_nil : gap ≠ []
  blank : ∀ c ∈ gap, isBlank c = true

/-- Word characters, one at least. -/
structure IsWordRun (name : List Char) : Prop where
  ne_nil : name ≠ []
  word : ∀ c ∈ name, isWord c = true

/-- The end of a statement, perhaps with a value in front of the semicolon. -/
inductive Ending : List Char → Option (List Char) → Prop
  | bare : Ending [';'] none
  | value {value : List Char} (hne : value ≠ []) (hvalue : ';' ∉ value) :
      Ending ('=' :: (value ++ [';'])) (some (trim value))

/-- A name, and the end of the statement. -/
inductive NamedPhrase : List Char → List Char → Option (List Char) → Prop
  | intro {name space ending : List Char} {value : Option (List Char)} (hname : IsWordRun name)
      (hspace : ∀ c ∈ space, isBlank c = true) (hending : Ending ending value) :
      NamedPhrase (name ++ (space ++ ending)) name value

/-- A qualifier with the blanks behind it, or none. -/
inductive Qualifier : List Char → Bool → Prop
  | none : Qualifier [] false
  | constant {gap : List Char} (hgap : IsGap gap) : Qualifier ("constant".toList ++ gap) true
  | immutable {gap : List Char} (hgap : IsGap gap) : Qualifier ("immutable".toList ++ gap) false

/-- What follows the type where the visibility stands behind it. -/
inductive TailPhrase : List Char → VariableTail → Prop
  | intro {gap next qualifier named : List Char} {tail : VariableTail} (hgap : IsGap gap)
      (hstored : tail.visibility ≠ .externally) (hnext : IsGap next)
      (hqualifier : Qualifier qualifier tail.isConstant)
      (hnamed : NamedPhrase named tail.name tail.initialValue) :
      TailPhrase (gap ++ (tail.visibility.keyword.toList ++ (next ++ (qualifier ++ named)))) tail

/-! ## Runs and gaps -/

/-- A text begins with one run and the stop behind it only. -/
theorem eq_of_runs_eq {test : Char → Bool} {run other : List Char}
    (hrun : ∀ c ∈ run, test c = true) (hrest : StopsAt test rest)
    (hother : ∀ c ∈ other, test c = true) (hleft : StopsAt test left)
    (heq : run ++ rest = other ++ left) : run = other ∧ rest = left := by
  obtain ⟨htake, hdrop⟩ := takeWhile_dropWhile_eq_iff.mpr ⟨hrun, hrest, rfl⟩
  obtain ⟨htake', hdrop'⟩ := takeWhile_dropWhile_eq_iff.mpr ⟨hother, hleft, heq⟩
  exact ⟨htake.symm.trans htake', hdrop.symm.trans hdrop'⟩

theorem IsGap.stopsAt {test : Char → Bool} {gap : List Char}
    (hblank : ∀ {c}, isBlank c = true → test c = false) (hgap : IsGap gap) (rest : List Char) :
    StopsAt test (gap ++ rest) := by
  obtain ⟨c, more, rfl⟩ := List.exists_cons_of_ne_nil hgap.ne_nil
  rintro _ ⟨⟩
  exact hblank (hgap.blank c List.mem_cons_self)

theorem IsGap.blanks?_append {gap : List Char} (hgap : IsGap gap) (hrest : StopsAt isBlank rest) :
    blanks? (gap ++ rest) = some rest :=
  blanks?_eq_some_iff.mpr ⟨hrest, gap, hgap.ne_nil, hgap.blank, rfl⟩

theorem exists_gap_of_blanks? (hread : blanks? text = some rest) :
    ∃ gap, IsGap gap ∧ StopsAt isBlank rest ∧ text = gap ++ rest := by
  obtain ⟨hrest, gap, hne, hblank, htext⟩ := blanks?_eq_some_iff.mp hread
  exact ⟨gap, ⟨hne, hblank⟩, hrest, htext⟩

theorem name?_eq_none (htext : StopsAt isWord text) : name? text = none := by
  have hnil : ∀ c ∈ ([] : List Char), isWord c = true := by simp
  have hrun : text.takeWhile isWord = [] := takeWhile_append_of_stopsAt hnil htext
  rw [name?, hrun]
  rfl

namespace IsWordRun

variable {name : List Char}

theorem stopsAt_isBlank (hname : IsWordRun name) (rest : List Char) :
    StopsAt isBlank (name ++ rest) := by
  obtain ⟨c, more, rfl⟩ := List.exists_cons_of_ne_nil hname.ne_nil
  have hc := hname.word c List.mem_cons_self
  rintro _ ⟨⟩
  cases hblank : isBlank c with
  | false => rfl
  | true => exact Bool.noConfusion ((isWord_of_isBlank hblank).symm.trans hc)

theorem of_isRun (hrun : IsRun name) : IsWordRun name :=
  ⟨hrun.ne_nil, fun c hc => isWord_of_isPlain (hrun.plain c hc)⟩

end IsWordRun

theorem isWordRun_constant : IsWordRun "constant".toList :=
  .of_isRun (isRun_of_mem_reservedWords (by decide))

theorem isWordRun_immutable : IsWordRun "immutable".toList :=
  .of_isRun (isRun_of_mem_reservedWords (by decide))

theorem isWordRun_keyword (visibility : Visibility) : IsWordRun visibility.keyword.toList :=
  .of_isRun (isName_keyword visibility).toIsRun

/-! ## The end of a statement -/

theorem initialValue?_eq_some_iff {value : Option (List Char)} :
    initialValue? text = some (value, rest) ↔
      ∃ ending, Ending ending value ∧ text = ending ++ rest := by
  constructor
  · intro hread
    rw [initialValue?.eq_def] at hread
    split at hread
    next more =>
      obtain ⟨rfl, rfl⟩ := Prod.mk.inj (Option.some.inj hread)
      exact ⟨_, .bare, rfl⟩
    next more =>
      simp only at hread
      split at hread
      · contradiction
      next hempty =>
        obtain ⟨behind, hmark, hpair⟩ := Option.bind_eq_some_iff.mp hread
        obtain ⟨rfl, rfl⟩ := Prod.mk.inj (Option.some.inj hpair)
        obtain ⟨hvalue, -, htext⟩ :=
          takeWhile_dropWhile_eq_iff.mp ⟨rfl, mark?_eq_some_iff.mp hmark⟩
        refine ⟨_, .value (by simpa using hempty) fun hmem => by simpa using hvalue _ hmem, ?_⟩
        rw [List.cons_append, List.append_assoc, List.singleton_append, ← htext]
    · contradiction
  · rintro ⟨_, hending, rfl⟩
    cases hending with
    | bare => rfl
    | value hne hvalue =>
        rename_i value
        have hrun : ∀ c ∈ value, decide (c ≠ ';') = true := fun c hc =>
          decide_eq_true fun heq => hvalue (heq ▸ hc)
        have hstop : StopsAt (fun c => decide (c ≠ ';')) (';' :: rest) := by simp [StopsAt]
        have hempty : value.isEmpty = false := by simpa using hne
        rw [List.cons_append, List.append_assoc, List.singleton_append]
        simp only [initialValue?, takeWhile_append_of_stopsAt hrun hstop,
          dropWhile_append_of_stopsAt hrun hstop, hempty]
        rfl

theorem Ending.stopsAt {ending : List Char} {value : Option (List Char)} {test : Char → Bool}
    (htest : test ';' = false ∧ test '=' = false) (hending : Ending ending value)
    (rest : List Char) : StopsAt test (ending ++ rest) := by
  cases hending with
  | bare =>
      rintro _ ⟨⟩
      exact htest.1
  | value hne hvalue =>
      rintro _ ⟨⟩
      exact htest.2

theorem Ending.stopsAt_isBlank {ending : List Char} {value : Option (List Char)}
    (hending : Ending ending value) (rest : List Char) : StopsAt isBlank (ending ++ rest) :=
  hending.stopsAt (by decide) rest

theorem Ending.stopsAt_isWord {ending space : List Char} {value : Option (List Char)}
    (hspace : ∀ c ∈ space, isBlank c = true) (hending : Ending ending value) (rest : List Char) :
    StopsAt isWord (space ++ (ending ++ rest)) :=
  StopsAt.append_of_isBlank isWord_of_isBlank hspace (hending.stopsAt (by decide) rest)

theorem namedValue?_eq_some_iff {name : List Char} {value : Option (List Char)} :
    namedValue? text = some ((name, value), rest) ↔
      ∃ named, NamedPhrase named name value ∧ text = named ++ rest := by
  constructor
  · intro hread
    simp only [namedValue?, Option.bind_eq_bind, Option.bind_eq_some_iff, Option.pure_def,
      Option.some.injEq, Prod.mk.injEq] at hread
    obtain ⟨⟨_, behind⟩, hname, ⟨_, left⟩, hvalue, ⟨rfl, rfl⟩, rfl⟩ := hread
    obtain ⟨hne, hword, -, rfl⟩ := name?_eq_some_iff.mp hname
    obtain ⟨ending, hending, htrim⟩ := initialValue?_eq_some_iff.mp hvalue
    obtain ⟨-, space, hspace, rfl⟩ := trimStart_eq_iff.mp htrim
    exact ⟨_, .intro ⟨hne, hword⟩ hspace hending, by simp only [List.append_assoc]⟩
  · rintro ⟨_, ⟨hname, hspace, hending⟩, rfl⟩
    rename_i space ending
    simp only [List.append_assoc, namedValue?, name?_append_of_stopsAt hname.ne_nil hname.word
      (hending.stopsAt_isWord hspace rest), Option.bind_eq_bind, Option.bind_some,
      trimStart_eq_iff.mpr ⟨hending.stopsAt_isBlank rest, space, hspace, rfl⟩,
      initialValue?_eq_some_iff.mpr ⟨ending, hending, rfl⟩, Option.pure_def]

/-! ## Qualifiers -/

theorem exists_of_qualifier? {word : String} (hread : qualifier? word text = some rest) :
    ∃ gap, IsGap gap ∧ StopsAt isBlank rest ∧ text = word.toList ++ (gap ++ rest) := by
  obtain ⟨behind, hafter, hblanks⟩ := Option.bind_eq_some_iff.mp hread
  obtain ⟨gap, hgap, hrest, rfl⟩ := exists_gap_of_blanks? hblanks
  exact ⟨gap, hgap, hrest, after?_eq_some_iff.mp hafter⟩

theorem qualifier?_append {word : String} {gap : List Char} (hgap : IsGap gap)
    (hrest : StopsAt isBlank rest) :
    qualifier? word (word.toList ++ (gap ++ rest)) = some rest := by
  rw [qualifier?, after?_append_left, Option.bind_eq_bind, Option.bind_some,
    hgap.blanks?_append hrest]

/-- A name that could be a qualifier is none if the statement ends behind it. -/
theorem bind_namedValue?_eq_none {β : Type} {word : String} {name : List Char}
    {value : Option (List Char)} (hword : IsWordRun word.toList)
    (hnamed : NamedPhrase piece name value) (rest : List Char)
    (f : (List Char × Option (List Char)) × List Char → Option β) :
    ((qualifier? word (piece ++ rest)).bind fun behind => (namedValue? behind).bind f) = none := by
  cases hread : qualifier? word (piece ++ rest) with
  | none => rfl
  | some left =>
      obtain ⟨hname, hspace, hending⟩ := hnamed
      rename_i space ending
      obtain ⟨gap, hgap, hleft, htext⟩ := exists_of_qualifier? hread
      rw [List.append_assoc, List.append_assoc] at htext
      obtain ⟨-, hbehind⟩ := eq_of_runs_eq hname.word (hending.stopsAt_isWord hspace rest)
        hword.word (hgap.stopsAt isWord_of_isBlank left) htext
      obtain ⟨-, rfl⟩ :=
        eq_of_runs_eq hspace (hending.stopsAt_isBlank rest) hgap.blank hleft hbehind
      have hnone := name?_eq_none (hending.stopsAt (by decide) rest)
      simp only [namedValue?, hnone, Option.bind_eq_bind, Option.bind_some, Option.bind_none]

theorem stopsAt_isBlank_of_namedPhrase {name : List Char} {value : Option (List Char)}
    (hnamed : NamedPhrase piece name value) (rest : List Char) :
    StopsAt isBlank (piece ++ rest) := by
  obtain ⟨hname, hspace, hending⟩ := hnamed
  rw [List.append_assoc]
  exact hname.stopsAt_isBlank _

theorem after?_constant_immutable (rest : List Char) :
    after? "constant" ("immutable".toList ++ rest) = none := by
  simp [after?]

theorem exists_of_storageVisibility?_eq {visibility : Visibility}
    (hread : storageVisibility? text = some (visibility, rest)) :
    visibility ≠ .externally ∧ text = visibility.keyword.toList ++ rest := by
  obtain ⟨hmem, htext⟩ := exists_of_storageVisibility? hread
  refine ⟨?_, htext⟩
  rintro rfl
  exact absurd hmem (by decide)

/-- Behind the visibility stand a qualifier and a name, or a name alone. -/
theorem variableTail?_eq_some_iff {tail : VariableTail} :
    variableTail? text = some (tail, rest) ↔
      ∃ piece, TailPhrase piece tail ∧ text = piece ++ rest := by
  constructor
  · intro hread
    simp only [variableTail?, Option.bind_eq_bind, Option.bind_eq_some_iff, Option.orElse_eq_some,
      Option.pure_def, Option.some.injEq, Prod.mk.injEq] at hread
    obtain ⟨place, hblanks, ⟨visibility, behind⟩, hvisibility, after, hafter, hfinish⟩ := hread
    obtain ⟨gap, hgap, -, rfl⟩ := exists_gap_of_blanks? hblanks
    obtain ⟨hstored, rfl⟩ := exists_of_storageVisibility?_eq hvisibility
    obtain ⟨next, hnext, -, rfl⟩ := exists_gap_of_blanks? hafter
    rcases hfinish with ⟨more, hqualifier, ⟨named, _⟩, hnamed, rfl, rfl⟩ |
      ⟨-, ⟨more, hqualifier, ⟨named, _⟩, hnamed, rfl, rfl⟩ | ⟨-, ⟨named, _⟩, hnamed, rfl, rfl⟩⟩
    · obtain ⟨last, hlast, -, rfl⟩ := exists_of_qualifier? hqualifier
      obtain ⟨phrase, hphrase, rfl⟩ := namedValue?_eq_some_iff.mp hnamed
      exact ⟨_, .intro hgap hstored hnext (.constant hlast) hphrase,
        by simp only [List.append_assoc]⟩
    · obtain ⟨last, hlast, -, rfl⟩ := exists_of_qualifier? hqualifier
      obtain ⟨phrase, hphrase, rfl⟩ := namedValue?_eq_some_iff.mp hnamed
      exact ⟨_, .intro hgap hstored hnext (.immutable hlast) hphrase,
        by simp only [List.append_assoc]⟩
    · obtain ⟨phrase, hphrase, rfl⟩ := namedValue?_eq_some_iff.mp hnamed
      exact ⟨_, .intro hgap hstored hnext .none hphrase,
        by simp only [List.append_assoc, List.nil_append]⟩
  · rintro ⟨_, ⟨hgap, hstored, hnext, hqualifier, hnamed⟩, rfl⟩
    rename_i gap next qualifier named
    obtain ⟨visibility, isConstant, name, value⟩ := tail
    have hvisibility : ∀ more : List Char, StopsAt isBlank (visibility.keyword.toList ++ more) :=
      (isWordRun_keyword visibility).stopsAt_isBlank
    have hstop := stopsAt_isBlank_of_namedPhrase hnamed rest
    have hread : namedValue? (named ++ rest) = some ((name, value), rest) :=
      namedValue?_eq_some_iff.mpr ⟨named, hnamed, rfl⟩
    simp only [List.append_assoc, variableTail?, hgap.blanks?_append (hvisibility _),
      Option.bind_eq_bind, Option.bind_some, storageVisibility?_keyword hstored]
    cases hqualifier with
    | none =>
        simp only [List.nil_append, hnext.blanks?_append hstop, Option.bind_some,
          bind_namedValue?_eq_none isWordRun_constant hnamed,
          bind_namedValue?_eq_none isWordRun_immutable hnamed, hread]
        rfl
    | constant hlast =>
        have hfirst := isWordRun_constant.stopsAt_isBlank
        simp only [List.append_assoc, hnext.blanks?_append (hfirst _), Option.bind_some,
          qualifier?_append hlast hstop, hread]
        rfl
    | immutable hlast =>
        have hfirst := isWordRun_immutable.stopsAt_isBlank
        have hother : ∀ more : List Char,
            qualifier? "constant" ("immutable".toList ++ more) = none :=
          fun more => by rw [qualifier?, after?_constant_immutable]; rfl
        simp only [List.append_assoc, hnext.blanks?_append (hfirst _), Option.bind_some, hother,
          Option.bind_none, qualifier?_append hlast hstop, hread]
        rfl

theorem TailPhrase.variableTail?_append {behind : List Char} {tail : VariableTail}
    (htail : TailPhrase behind tail) (rest : List Char) :
    variableTail? (behind ++ rest) = some (tail, rest) :=
  variableTail?_eq_some_iff.mpr ⟨behind, htail, rfl⟩

end ContractAtlas.Source
