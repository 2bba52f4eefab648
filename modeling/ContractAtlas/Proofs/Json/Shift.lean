import ContractAtlas.Json.Reader

/-!
# Reading JSON behind spaces

Where a reading stands matters only for the place that an error names.  Spaces in front of a
text therefore move that place and change nothing else about what is read.
-/

namespace ContractAtlas.Json

variable {spaces : List Char}

/-- The same error in a text with that many more characters in front. -/
def ReadError.shift (distance : Nat) : ReadError → ReadError
  | .malformed position => .malformed (position + distance)
  | .longNumeral => .longNumeral
  | .tooDeep => .tooDeep

namespace Reading

theorem enter_shift (distance : Nat) (frames : List Frame) (frame : Frame) (expected : Expected) :
    (enter frames frame expected).mapError (·.shift distance) = enter frames frame expected := by
  rw [enter]
  split <;> rfl

theorem takeValue_shift (distance : Nat) (frames : List Frame) (position : Nat)
    (lexeme : Lexeme) : takeValue frames (position + distance) lexeme =
      (takeValue frames position lexeme).mapError (·.shift distance) := by
  cases lexeme with
  | mark mark => cases mark <;> simp [takeValue, enter_shift] <;> rfl
  | badString offset =>
      simp only [takeValue, Nat.add_right_comm position distance offset]
      rfl
  | _ => rfl

theorem takeKey_shift (distance : Nat) (frames : List Frame) (position : Nat)
    (lexeme : Lexeme) : takeKey frames (position + distance) lexeme =
      (takeKey frames position lexeme).mapError (·.shift distance) := by
  cases lexeme with
  | string key =>
      simp only [takeKey]
      split <;> rfl
  | badString offset =>
      simp only [takeKey, Nat.add_right_comm position distance offset]
      rfl
  | _ => rfl

/-- One step moves the place of its error along. -/
theorem take_shift (distance : Nat) (reading : Reading) (position : Nat) (lexeme : Lexeme) :
    reading.take (position + distance) lexeme =
      (reading.take position lexeme).mapError (·.shift distance) := by
  rw [take.eq_def, take.eq_def]
  split
  case h_8 | h_9 => exact takeValue_shift distance _ position _
  case h_10 | h_11 => exact takeKey_shift distance _ position _
  all_goals rfl

theorem finish_shift (distance : Nat) (reading : Reading) (position : Nat) :
    reading.finish (position + distance) =
      (reading.finish position).mapError (·.shift distance) := by
  rw [finish, finish]
  split <;> rfl

theorem run_shift (distance : Nat) (reading : Reading) (skipped position : Nat)
    (text : List Char) : reading.run skipped (position + distance) text =
      (reading.run skipped position text).mapError (·.shift distance) := by
  induction text generalizing reading skipped position with
  | nil => exact finish_shift distance reading position
  | cons c rest ih =>
      have hnext : position + distance + 1 = position + 1 + distance := by omega
      cases skipped with
      | succ more => rw [run, run, hnext, ih]
      | zero =>
          simp only [run, hnext, ih, take_shift]
          split
          · rfl
          · cases reading.take position (lexeme (c :: rest)).1 <;> rfl

theorem run_append_of_isSpace (hspaces : ∀ c ∈ spaces, isSpace c = true) (reading : Reading)
    (position : Nat) (text : List Char) :
    reading.run 0 position (spaces ++ text) = reading.run 0 (position + spaces.length) text := by
  induction spaces generalizing position with
  | nil => rfl
  | cons c rest ih =>
      obtain ⟨hc, hrest⟩ := List.forall_mem_cons.mp hspaces
      rw [List.cons_append, run, if_pos hc, ih hrest, List.length_cons]
      congr 1
      omega

end Reading

/-- Spaces in front of a text move the place of an error and change nothing else. -/
theorem read_append_of_isSpace (hspaces : ∀ c ∈ spaces, isSpace c = true) (text : List Char) :
    read (spaces ++ text) = (read text).mapError (·.shift spaces.length) := by
  rw [read, Reading.run_append_of_isSpace hspaces, Reading.run_shift, read]

end ContractAtlas.Json
