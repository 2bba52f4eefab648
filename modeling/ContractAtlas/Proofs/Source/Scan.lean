import ContractAtlas.Proofs.Source.Growth
import ContractAtlas.Source.Variable

/-!
# Scanning piece by piece

A scan over a text is a scan over its first piece followed by a scan over the rest.  A
piece is quiet if nothing is found in it; whether it is may depend on what follows, so
every statement about a piece speaks of the text behind it too.  The parts of shapes are
read piece by piece in the same way.
-/

namespace ContractAtlas.Source

open ContractAtlas.Text

variable {α : Type} {shape : Shape α}

/-! ## Quiet pieces -/

/-- The scan finds nothing that starts in a piece and goes on behind it. -/
def Quiet (shape : Shape α) (piece rest : List Char) : Prop :=
  ∀ before position, occurrencesFrom shape before 0 position (piece ++ rest) =
    occurrencesFrom shape (piece.getLast?.or before) 0 (position + piece.length) rest

theorem Quiet.nil (rest : List Char) : Quiet shape [] rest := fun _ _ => rfl

theorem Quiet.append {left right rest : List Char} (hleft : Quiet shape left (right ++ rest))
    (hright : Quiet shape right rest) : Quiet shape (left ++ right) rest := by
  intro before position
  rw [List.append_assoc, hleft, hright, List.getLast?_append, Option.or_assoc,
    List.length_append, Nat.add_assoc]

theorem quiet_singleton {c : Char} {rest : List Char}
    (hnone : ∀ before, shape before (c :: rest) = none) : Quiet shape [c] rest := by
  intro before position
  rw [List.singleton_append, occurrencesFrom, hnone]
  rfl

theorem Quiet.cons {c : Char} {piece rest : List Char} (hc : Quiet shape [c] (piece ++ rest))
    (hpiece : Quiet shape piece rest) : Quiet shape (c :: piece) rest :=
  Quiet.append hc hpiece

theorem Quiet.flatMap {δ : Type} {line : δ → List Char} {declarations : List δ}
    (hline : ∀ declaration ∈ declarations, ∀ rest, Quiet shape (line declaration) rest)
    (rest : List Char) : Quiet shape (declarations.flatMap line) rest := by
  induction declarations with
  | nil => exact Quiet.nil rest
  | cons declaration declarations ih =>
      obtain ⟨hfirst, hothers⟩ := List.forall_mem_cons.mp hline
      simp only [List.flatMap_cons]
      exact Quiet.append (hfirst _) (ih hothers)

theorem Quiet.occurrencesFrom_eq_nil {text : List Char} (htext : Quiet shape text [])
    (before : Option Char) (position : Nat) :
    occurrencesFrom shape before 0 position text = [] := by
  have hscan := htext before position
  rwa [List.append_nil, occurrencesFrom] at hscan

/-- A quiet text has no occurrences. -/
theorem Quiet.occurrences_eq_nil {text : List Char} (htext : Quiet shape text []) :
    occurrences shape text = [] :=
  htext.occurrencesFrom_eq_nil none 0

/-! ## Pieces that are found -/

theorem getLast?_cons_or {β : Type} (a : β) (piece : List β) (before : Option β) :
    (a :: piece).getLast?.or before = piece.getLast?.or (some a) := by
  rw [← List.singleton_append, List.getLast?_append, Option.or_assoc]
  rfl

theorem occurrencesFrom_skip (before : Option Char) (position : Nat) (piece rest : List Char) :
    occurrencesFrom shape before piece.length position (piece ++ rest) =
      occurrencesFrom shape (piece.getLast?.or before) 0 (position + piece.length) rest := by
  induction piece generalizing before position with
  | nil => rfl
  | cons c piece ih =>
      rw [List.length_cons, List.cons_append, occurrencesFrom, ih, getLast?_cons_or]
      congr 1
      omega

/-- A piece that a shape reads is an occurrence, and the scan goes on behind it. -/
theorem occurrencesFrom_of_read {before : Option Char} {position : Nat} {c : Char}
    {piece rest : List Char} {value : α}
    (hread : shape before (c :: (piece ++ rest)) = some (value, rest)) :
    occurrencesFrom shape before 0 position (c :: (piece ++ rest)) =
      ⟨position, position + (piece.length + 1), value⟩ ::
        occurrencesFrom shape ((c :: piece).getLast?.or before) 0
          (position + (piece.length + 1)) rest := by
  have hlength : (piece ++ rest).length + 1 - rest.length = piece.length + 1 := by
    rw [List.length_append]
    omega
  simp only [occurrencesFrom, hread, hlength, Nat.add_sub_cancel, occurrencesFrom_skip,
    getLast?_cons_or]
  congr 2
  omega

theorem first?_of_read {c : Char} {rest left : List Char} {value : α}
    (hread : shape none (c :: rest) = some (value, left)) :
    first? shape (c :: rest) = some value := by
  simp only [first?, occurrences, occurrencesFrom, hread, List.head?_cons, Option.map_some]

theorem Quiet.first?_eq_none {text : List Char} (htext : Quiet shape text []) :
    first? shape text = none := by
  rw [first?, htext.occurrences_eq_nil]
  rfl

/-! ## Parts of shapes -/

/-- A text whose first character fails a test. -/
def StopsAt (test : Char → Bool) (rest : List Char) : Prop :=
  ∀ c ∈ rest.head?, test c = false

theorem takeWhile_append_of_stopsAt {test : Char → Bool} {run rest : List Char}
    (hrun : ∀ c ∈ run, test c = true) (hrest : StopsAt test rest) :
    (run ++ rest).takeWhile test = run := by
  rw [List.takeWhile_append_of_pos hrun]
  cases rest with
  | nil => simp
  | cons c rest => simp [hrest c rfl]

theorem dropWhile_append_of_stopsAt {test : Char → Bool} {run rest : List Char}
    (hrun : ∀ c ∈ run, test c = true) (hrest : StopsAt test rest) :
    (run ++ rest).dropWhile test = rest := by
  rw [List.dropWhile_append_of_pos hrun]
  cases rest with
  | nil => rfl
  | cons c rest => simp [hrest c rfl]

theorem trimStart_of_stopsAt {text : List Char} (htext : StopsAt isBlank text) :
    trimStart text = text := by
  have hnil : ∀ c ∈ ([] : List Char), isBlank c = true := by simp
  exact dropWhile_append_of_stopsAt hnil htext

theorem trimStart_space (text : List Char) : trimStart (' ' :: text) = trimStart text := by
  rw [trimStart, List.dropWhile_cons_of_pos (by decide), ← trimStart]

theorem keyword?_append_left {word : String} {before : Option Char}
    (hbefore : before.any isWord = false) (rest : List Char) :
    keyword? word before (word.toList ++ rest) = some rest := by
  rw [keyword?, hbefore, after?_append_left]
  rfl

theorem blanks?_space {rest : List Char} (hrest : StopsAt isBlank rest) :
    blanks? (' ' :: rest) = some rest := by
  have hspace : isBlank ' ' = true := by decide
  rw [blanks?, if_pos hspace, trimStart_of_stopsAt hrest]

theorem name?_append_of_stopsAt {name rest : List Char} (hne : name ≠ [])
    (hname : ∀ c ∈ name, isWord c = true) (hrest : StopsAt isWord rest) :
    name? (name ++ rest) = some (name, rest) := by
  have hnonempty : name.isEmpty = false := by simpa using hne
  simp only [name?, takeWhile_append_of_stopsAt hname hrest,
    dropWhile_append_of_stopsAt hname hrest, hnonempty]
  rfl

theorem enclosed?_append_of_notMem {inside : List Char} (hinside : ')' ∉ inside)
    (rest : List Char) : enclosed? ('(' :: (inside ++ ')' :: rest)) = some (inside, rest) := by
  have hrun : ∀ c ∈ inside, decide (c ≠ ')') = true := by
    intro c hc
    have hne : c ≠ ')' := fun heq => hinside (heq ▸ hc)
    simp [hne]
  have hstop : StopsAt (fun c => decide (c ≠ ')')) (')' :: rest) := by simp [StopsAt]
  simp only [enclosed?, closed?, mark?, if_true, Option.bind_eq_bind, Option.bind_some,
    takeWhile_append_of_stopsAt hrun hstop, dropWhile_append_of_stopsAt hrun hstop, Option.pure_def]

theorem enclosed?_eq_none {c : Char} {rest : List Char} (hc : c ≠ '(') :
    enclosed? (c :: rest) = none := by
  simp [enclosed?, mark?, hc]

theorem upToBody?_append_of_notMem {header : List Char}
    (hheader : ∀ c ∈ header, endsStatement c = false) (rest : List Char) :
    upToBody? (header ++ '{' :: rest) = some (header, rest) := by
  have hrun : ∀ c ∈ header, (!endsStatement c) = true := by
    intro c hc
    rw [hheader c hc]
    rfl
  have hstop : StopsAt (fun c => !endsStatement c) ('{' :: rest) := by simp [StopsAt, endsStatement]
  simp [upToBody?, mark?, takeWhile_append_of_stopsAt hrun hstop,
    dropWhile_append_of_stopsAt hrun hstop]

end ContractAtlas.Source
