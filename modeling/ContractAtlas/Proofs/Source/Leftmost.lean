import ContractAtlas.Proofs.Source.Scan

/-!
# Leftmost occurrences

A shape that reads something wherever it reads at all is found by a scan in one way: the scan
goes through its leftmost occurrences, each search starting at the end of the occurrence
before (`Consumes.leftmost_iff`), and no other list of occurrences is leftmost.

A grammar says which pieces of text form a construct and what they say, and nothing of how
they are found.  A shape recognises a grammar if it reads a piece of it wherever there is one
and no word is continued.  What is leftmost for the shape is then leftmost for the grammar
(`Recognises.standsIn_iff`).
-/

namespace ContractAtlas.Source

open ContractAtlas.Text

variable {α : Type} {shape : Shape α} {stands : Occurrence α → Prop} {text : List Char}
  {position : Nat}

/-- The occurrences that are found from a position on: the first one that starts there or
later, and then those that are found from its end on. -/
inductive Leftmost (stands : Occurrence α → Prop) : Nat → List (Occurrence α) → Prop
  | none {position : Nat} (hnone : ∀ found, stands found → found.start < position) :
      Leftmost stands position []
  | next {position : Nat} {found : Occurrence α} {others : List (Occurrence α)}
      (hstands : stands found) (hposition : position ≤ found.start)
      (hfirst : ∀ other, stands other → position ≤ other.start → found.start ≤ other.start)
      (hothers : Leftmost stands found.stop others) :
      Leftmost stands position (found :: others)

namespace Leftmost

variable {found : List (Occurrence α)}

theorem stands_of_mem (hfound : Leftmost stands position found) :
    ∀ occurrence ∈ found, stands occurrence := by
  induction hfound with
  | none => simp
  | next hstands _ _ _ ih => exact List.forall_mem_cons.mpr ⟨hstands, ih⟩

/-- If an occurrence is determined by its start, the leftmost ones are determined. -/
theorem unique
    (hstart : ∀ left right, stands left → stands right → left.start = right.start → left = right)
    {other : List (Occurrence α)} (hfound : Leftmost stands position found)
    (hother : Leftmost stands position other) : found = other := by
  induction hfound generalizing other with
  | none hnone =>
      cases hother with
      | none => rfl
      | next hstands hposition => exact absurd (hnone _ hstands) (by omega)
  | next hstands hposition hfirst hothers ih =>
      cases hother with
      | none hnone => exact absurd (hnone _ hstands) (by omega)
      | next hstands' hposition' hfirst' hothers' =>
          have hsame := Nat.le_antisymm (hfirst _ hstands' hposition')
            (hfirst' _ hstands hposition)
          obtain rfl := hstart _ _ hstands hstands' hsame
          rw [ih hothers']

/-- A search may start before a position where nothing stands. -/
theorem of_succ (hnone : ∀ occurrence, stands occurrence → occurrence.start ≠ position)
    (hfound : Leftmost stands (position + 1) found) : Leftmost stands position found := by
  cases hfound with
  | none hbehind =>
      refine .none fun occurrence hstands => ?_
      have := hbehind occurrence hstands
      have := hnone occurrence hstands
      omega
  | next hstands hposition hfirst hothers =>
      refine .next hstands (by omega) (fun other hother hstart => ?_) hothers
      have := hnone other hother
      exact hfirst other hother (by omega)

end Leftmost

/-! ## Scans for shapes -/

/-- A shape reads something wherever it reads at all, and leaves what stands behind. -/
def Consumes (shape : Shape α) : Prop :=
  ∀ ⦃before text value rest⦄, shape before text = some (value, rest) →
    ∃ piece, piece ≠ [] ∧ text = piece ++ rest

/-- A shape reads an occurrence: it reads its value at its start, and leaves what stands
behind its end. -/
def ReadsIn (shape : Shape α) (text : List Char) (found : Occurrence α) : Prop :=
  ∃ front piece rest, text = front ++ (piece ++ rest) ∧ piece ≠ [] ∧
    shape front.getLast? (piece ++ rest) = some (found.value, rest) ∧
    found.start = front.length ∧ found.stop = front.length + piece.length

theorem ReadsIn.bounds {found : Occurrence α} (hreads : ReadsIn shape text found) :
    found.start < found.stop ∧ found.stop ≤ text.length := by
  obtain ⟨front, piece, rest, rfl, hne, -, hstart, hstop⟩ := hreads
  have := List.length_pos_iff.mpr hne
  simp only [List.length_append, hstart, hstop]
  omega

/-- What is read at a position of a text is read from what stands there. -/
theorem ReadsIn.of_append {front rest : List Char} {found : Occurrence α}
    (hreads : ReadsIn shape (front ++ rest) found) (hstart : found.start = front.length) :
    ∃ left, shape front.getLast? rest = some (found.value, left) ∧
      found.stop + left.length = front.length + rest.length := by
  obtain ⟨other, piece, left, htext, -, hread, hother, hstop⟩ := hreads
  obtain ⟨rfl, rfl⟩ := List.append_inj htext (hstart.symm.trans hother)
  refine ⟨left, hread, ?_⟩
  rw [hstop, List.length_append, Nat.add_assoc]

/-- An occurrence has one end, and says one thing. -/
theorem ReadsIn.eq_of_start_eq {left right : Occurrence α} (hleft : ReadsIn shape text left)
    (hright : ReadsIn shape text right) (hstart : left.start = right.start) : left = right := by
  have hplace := hleft
  obtain ⟨front, piece, rest, rfl, -, -, hfront, -⟩ := hplace
  obtain ⟨behind, hread, hstop⟩ := hleft.of_append hfront
  obtain ⟨behind', hread', hstop'⟩ := hright.of_append (hstart.symm.trans hfront)
  rw [hread] at hread'
  obtain ⟨hvalue, rfl⟩ := Prod.mk.inj (Option.some.inj hread')
  have hend : left.stop = right.stop := Nat.add_right_cancel (hstop.trans hstop'.symm)
  cases left
  cases right
  simp only at hstart hvalue hend
  rw [hstart, hvalue, hend]

namespace Consumes

variable (hshape : Consumes shape)

include hshape

/-- The scan of the rest of a text finds what is leftmost behind the characters that are
still to be skipped. -/
theorem leftmost_occurrencesFrom (front : List Char) (skipped : Nat) (rest : List Char) :
    Leftmost (ReadsIn shape (front ++ rest)) (front.length + skipped)
      (occurrencesFrom shape front.getLast? skipped front.length rest) := by
  induction rest generalizing front skipped with
  | nil =>
      refine .none fun found hreads => ?_
      have := hreads.bounds
      rw [List.append_nil] at this
      omega
  | cons c rest ih =>
      have hnext : ∀ skipped, Leftmost (ReadsIn shape (front ++ c :: rest))
          (front.length + 1 + skipped)
          (occurrencesFrom shape (some c) skipped (front.length + 1) rest) := by
        intro skipped
        simpa using ih (front ++ [c]) skipped
      cases skipped with
      | succ more =>
          rw [occurrencesFrom, show front.length + (more + 1) = front.length + 1 + more by omega]
          exact hnext more
      | zero =>
          cases hread : shape front.getLast? (c :: rest) with
          | none =>
              simp only [occurrencesFrom, hread]
              refine Leftmost.of_succ (fun found hreads hstart => ?_) (hnext 0)
              obtain ⟨left, hleft, -⟩ := hreads.of_append hstart
              rw [hread] at hleft
              contradiction
          | some read =>
              obtain ⟨value, left⟩ := read
              obtain ⟨piece, hne, htext⟩ := hshape hread
              have hlength : rest.length + 1 - left.length = piece.length := by
                have := congrArg List.length htext
                rw [List.length_append, List.length_cons] at this
                omega
              have hpositive := List.length_pos_iff.mpr hne
              simp only [occurrencesFrom, hread, hlength]
              refine .next ?_ (by simp) (fun other _ hstart => by simpa using hstart) ?_
              · rw [htext] at hread ⊢
                exact ⟨front, piece, left, rfl, hne, hread, rfl, rfl⟩
              · have hskip := hnext (piece.length - 1)
                rwa [show front.length + 1 + (piece.length - 1) = front.length + piece.length by
                  omega] at hskip

/-- A scan finds the leftmost occurrences, and nothing else is leftmost. -/
theorem leftmost_iff {found : List (Occurrence α)} :
    Leftmost (ReadsIn shape text) 0 found ↔ found = occurrences shape text := by
  have hscan := hshape.leftmost_occurrencesFrom [] 0 text
  constructor
  · intro hfound
    exact hfound.unique (fun _ _ => ReadsIn.eq_of_start_eq) hscan
  · rintro rfl
    exact hscan

theorem readsIn_of_mem {found : Occurrence α} (hfound : found ∈ occurrences shape text) :
    ReadsIn shape text found :=
  (hshape.leftmost_iff.mpr rfl).stands_of_mem found hfound

theorem occurrences_ne_nil {found : Occurrence α} (hreads : ReadsIn shape text found) :
    occurrences shape text ≠ [] := by
  intro hnil
  cases hshape.leftmost_iff.mpr hnil.symm with
  | none hnone => exact Nat.not_lt_zero _ (hnone found hreads)

theorem first?_eq_none_iff :
    first? shape text = none ↔ ∀ found, ¬ ReadsIn shape text found := by
  have hscan := hshape.leftmost_iff.mpr (rfl : occurrences shape text = occurrences shape text)
  rw [first?, Option.map_eq_none_iff, List.head?_eq_none_iff]
  constructor
  · intro hnil found hreads
    exact hshape.occurrences_ne_nil hreads hnil
  · intro hnone
    cases hfound : occurrences shape text with
    | nil => rfl
    | cons found others =>
        rw [hfound] at hscan
        exact absurd (hscan.stands_of_mem found List.mem_cons_self) (hnone found)

/-- What is read first is read where nothing stands before. -/
theorem first?_eq_some_iff {value : α} :
    first? shape text = some value ↔ ∃ found, ReadsIn shape text found ∧ found.value = value ∧
      ∀ other, ReadsIn shape text other → found.start ≤ other.start := by
  have hscan := hshape.leftmost_iff.mpr (rfl : occurrences shape text = occurrences shape text)
  rw [first?]
  cases hfound : occurrences shape text with
  | nil =>
      have hnone : ∀ found, ¬ ReadsIn shape text found := fun found hreads =>
        hshape.occurrences_ne_nil hreads hfound
      simp [hnone]
  | cons found others =>
      rw [hfound] at hscan
      cases hscan with
      | next hstands _ hfirst _ =>
          rw [List.head?_cons, Option.map_some, Option.some_inj]
          constructor
          · rintro rfl
            exact ⟨found, hstands, rfl, fun other hother => hfirst other hother (Nat.zero_le _)⟩
          · rintro ⟨other, hother, rfl, hbefore⟩
            have hstart : found.start = other.start :=
              Nat.le_antisymm (hfirst other hother (Nat.zero_le _)) (hbefore found hstands)
            rw [hstands.eq_of_start_eq hother hstart]

end Consumes

/-! ## Grammars -/

/-- The pieces of text that form a construct, each with what it says. -/
abbrev Grammar (α : Type) := List Char → α → Prop

variable {grammar : Grammar α}

/-- A piece of a text that belongs to a grammar and does not continue a word. -/
def StandsIn (grammar : Grammar α) (text : List Char) (found : Occurrence α) : Prop :=
  ∃ front piece rest, text = front ++ (piece ++ rest) ∧ grammar piece found.value ∧
    (∀ c ∈ front.getLast?, isWord c = false) ∧
    found.start = front.length ∧ found.stop = front.length + piece.length

/-- A shape reads the pieces of a grammar, wherever they continue no word. -/
structure Recognises (shape : Shape α) (grammar : Grammar α) : Prop where
  read_iff : ∀ {before text value rest}, shape before text = some (value, rest) ↔
    (∀ c ∈ before, isWord c = false) ∧ ∃ piece, grammar piece value ∧ text = piece ++ rest
  ne_nil : ∀ {piece value}, grammar piece value → piece ≠ []

theorem Recognises.consumes (hshape : Recognises shape grammar) : Consumes shape := by
  intro before text value rest hread
  obtain ⟨-, piece, hpiece, htext⟩ := hshape.read_iff.mp hread
  exact ⟨piece, hshape.ne_nil hpiece, htext⟩

theorem Recognises.standsIn_iff (hshape : Recognises shape grammar) (text : List Char)
    (found : Occurrence α) : StandsIn grammar text found ↔ ReadsIn shape text found := by
  constructor
  · rintro ⟨front, piece, rest, rfl, hpiece, hbefore, hplace⟩
    exact ⟨front, piece, rest, rfl, hshape.ne_nil hpiece,
      hshape.read_iff.mpr ⟨hbefore, piece, hpiece, rfl⟩, hplace⟩
  · rintro ⟨front, piece, rest, rfl, -, hread, hplace⟩
    obtain ⟨hbefore, other, hother, htext⟩ := hshape.read_iff.mp hread
    obtain rfl := List.append_cancel_right htext
    exact ⟨front, piece, rest, rfl, hother, hbefore, hplace⟩

end ContractAtlas.Source
