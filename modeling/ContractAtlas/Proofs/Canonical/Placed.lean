import ContractAtlas.Proofs.Canonical.Words

/-!
# Scanning lines of one kind

The scan for one kind of declaration is quiet on every other line, and on each of its own
lines it finds one declaration, at the start of the line.  The occurrences of a shape are
therefore the lines of its kind, each at its place (`occurrences_placed`).
-/

namespace ContractAtlas.Canonical

open ContractAtlas.Source ContractAtlas.Text

variable {α δ : Type} {shape : Shape α}

theorem any_isWord_eq_false {before : Option Char} (hbefore : before.any isQualified = false) :
    before.any isWord = false := by
  cases before with
  | none => rfl
  | some c =>
      rw [Option.any_some, isQualified, Bool.or_assoc, Bool.or_eq_false_iff] at hbefore
      exact hbefore.1

/-- A text behind which a name may start. -/
def Bounded (front : List Char) : Prop :=
  ∀ c ∈ front.getLast?, isQualified c = false

theorem Bounded.append {left right : List Char} (hleft : Bounded left) (hright : Bounded right) :
    Bounded (left ++ right) := by
  intro c hc
  rw [List.getLast?_append] at hc
  cases hlast : right.getLast? with
  | none =>
      rw [hlast] at hc
      exact hleft c hc
  | some d =>
      rw [hlast] at hc
      exact hright c (hlast.trans hc)

theorem Bounded.flatMap {line : δ → List Char} (hline : ∀ declaration, Bounded (line declaration))
    (declarations : List δ) : Bounded (declarations.flatMap line) := by
  induction declarations with
  | nil => simp [Bounded]
  | cons declaration rest ih =>
      rw [List.flatMap_cons]
      exact (hline declaration).append ih

theorem bounded_concat {mark : Char} (hmark : mark ∈ marks) (front : List Char) :
    Bounded (front ++ [mark]) := by
  intro c hc
  rw [List.getLast?_concat] at hc
  exact Option.some.inj hc ▸ isQualified_of_mem_marks hmark

theorem bounded_variable (declaration : Variable) : Bounded declaration.line :=
  bounded_concat (by decide) declaration.statement

theorem bounded_event (event : Event) : Bounded event.line :=
  bounded_concat (by decide) event.statement

theorem bounded_modifier (modifier : Modifier) : Bounded modifier.line := by
  have hend : modifier.line = modifier.opening ++ [' ', '_', ';', ' ', '}'] ++ ['\n'] := by
    rw [Modifier.line, List.append_assoc]
    rfl
  rw [hend]
  exact bounded_concat (by decide) _

theorem bounded_function (layout : Layout) (function : Function) :
    Bounded (function.line layout) := by
  have hend : function.line layout =
      function.opening ++ (List.replicate layout.bodySpaces ' ' ++ ['}']) ++ ['\n'] := by
    rw [Function.line, Layout.body, List.append_assoc, List.append_assoc]
    rfl
  rw [hend]
  exact bounded_concat (by decide) _

theorem bounded_heading (source : Source) : Bounded source.heading := by
  have hend : source.heading = ("contract".toList ++ ' ' :: (source.name.chars ++
      (inheritanceClause source.parents ++ [' ', '{']))) ++ ['\n'] := by
    unfold Source.heading
    simp only [List.append_assoc, List.cons_append, List.nil_append]
  rw [hend]
  exact bounded_concat (by decide) _

theorem bounded_variableLines (source : Source) : Bounded source.variableLines :=
  Bounded.flatMap bounded_variable source.stateVariables

theorem bounded_eventLines (source : Source) : Bounded source.eventLines :=
  Bounded.flatMap bounded_event source.events

theorem bounded_modifierLines (source : Source) : Bounded source.modifierLines :=
  Bounded.flatMap bounded_modifier source.modifiers

/-- A shape is found once in a line, at its start, and covers `length` characters. -/
def FoundOnce (shape : Shape α) (line : List Char) (length : Nat) (value : α) : Prop :=
  ∀ before position rest, before.any isQualified = false →
    occurrencesFrom shape before 0 position (line ++ rest) =
      ⟨position, position + length, value⟩ ::
        occurrencesFrom shape (line.getLast?.or before) 0 (position + line.length) rest

/-- A piece that is read at the start of a line, with nothing found behind it. -/
theorem foundOnce_of_read {piece tail : List Char} {value : α} (hne : piece ≠ [])
    (hread : ∀ before rest, before.any isQualified = false →
      shape before (piece ++ rest) = some (value, rest))
    (htail : ∀ rest, Quiet shape tail rest) :
    FoundOnce shape (piece ++ tail) piece.length value := by
  obtain ⟨c, run, rfl⟩ := List.exists_cons_of_ne_nil hne
  intro before position rest hbefore
  have hlast : (c :: run ++ tail).getLast?.or before =
      tail.getLast?.or ((c :: run).getLast?.or before) := by
    rw [List.getLast?_append, Option.or_assoc]
  rw [List.append_assoc, List.cons_append, occurrencesFrom_of_read (hread before _ hbefore), htail,
    hlast, List.length_append, List.length_cons, Nat.add_assoc]

theorem placed_map {β γ : Type} (line : δ → List Char) (declare : Nat → δ → β) (read : β → γ)
    (position : Nat) (declarations : List δ) :
    (placed line declare position declarations).map read =
      placed line (fun position declaration => read (declare position declaration)) position
        declarations := by
  induction declarations generalizing position with
  | nil => rfl
  | cons declaration rest ih => rw [placed, List.map_cons, ih]; rfl

/-- A declaration is placed behind the lines in front of it. -/
theorem exists_of_mem_placed {β : Type} {line : δ → List Char} {declare : Nat → δ → β}
    {position : Nat} {declarations : List δ} {value : β}
    (hvalue : value ∈ placed line declare position declarations) :
    ∃ front declaration back, declarations = front ++ declaration :: back ∧
      value = declare (position + (front.flatMap line).length) declaration := by
  induction declarations generalizing position with
  | nil => exact absurd hvalue List.not_mem_nil
  | cons declaration others ih =>
      rcases List.mem_cons.mp hvalue with rfl | hvalue
      · exact ⟨[], declaration, others, rfl, rfl⟩
      · obtain ⟨front, later, back, rfl, rfl⟩ := ih hvalue
        refine ⟨declaration :: front, later, back, rfl, ?_⟩
        rw [List.flatMap_cons, List.length_append, Nat.add_assoc]

theorem occurrencesFrom_flatMap {line : δ → List Char} {length : δ → Nat} {value : δ → α}
    (hfound : ∀ declaration,
      FoundOnce shape (line declaration) (length declaration) (value declaration))
    (hbounded : ∀ declaration, Bounded (line declaration)) (declarations : List δ)
    {before : Option Char} (hbefore : before.any isQualified = false) (position : Nat)
    (rest : List Char) :
    occurrencesFrom shape before 0 position (declarations.flatMap line ++ rest) =
      placed line (fun position declaration =>
        ⟨position, position + length declaration, value declaration⟩) position declarations ++
      occurrencesFrom shape ((declarations.flatMap line).getLast?.or before) 0
        (position + (declarations.flatMap line).length) rest := by
  induction declarations generalizing before position with
  | nil => rfl
  | cons declaration others ih =>
      have hnext : ((line declaration).getLast?.or before).any isQualified = false := by
        cases hlast : (line declaration).getLast? with
        | none => exact hbefore
        | some c => exact hbounded declaration c hlast
      rw [List.flatMap_cons, List.append_assoc, hfound declaration before position _ hbefore,
        ih hnext, placed, List.getLast?_append, Option.or_assoc, List.length_append, Nat.add_assoc]
      rfl

/-- The occurrences of a shape in a text are the lines in which it is found, if it is quiet
before and behind them. -/
theorem occurrences_placed {line : δ → List Char} {length : δ → Nat} {value : δ → α}
    {front back : List Char} (declarations : List δ)
    (hfront : Quiet shape front (declarations.flatMap line ++ back)) (hbound : Bounded front)
    (hfound : ∀ declaration,
      FoundOnce shape (line declaration) (length declaration) (value declaration))
    (hbounded : ∀ declaration, Bounded (line declaration)) (hback : Quiet shape back []) :
    occurrences shape (front ++ (declarations.flatMap line ++ back)) =
      placed line (fun position declaration =>
          ⟨position, position + length declaration, value declaration⟩)
        front.length declarations := by
  have hbefore : (front.getLast?.or none).any isQualified = false := by
    cases hlast : front.getLast? with
    | none => rfl
    | some c => exact hbound c hlast
  rw [occurrences, hfront, Nat.zero_add,
    occurrencesFrom_flatMap hfound hbounded declarations hbefore, hback.occurrencesFrom_eq_nil,
    List.append_nil]

end ContractAtlas.Canonical
