import ContractAtlas.Json.Reader

/-!
# What a reading collects

The reader builds values from those that it has collected in its open arrays and objects.  So
a condition holds of whatever is read from a text, if it holds of the lexemes of the text and
is kept when an array or an object is closed (`holds_of_read`).  The condition may depend on
how many arrays and objects are open around a value; it is the number of open frames that a
step knows.
-/

namespace ContractAtlas.Json.Reading

/-- A condition on strings, and one on the values inside so many arrays and objects, that are
kept when arrays and objects are closed. -/
structure Kept (onText : Text → Prop) (onValue : Nat → Json → Prop) : Prop where
  str : ∀ {depth text}, onText text → onValue depth (.str text)
  arr : ∀ {depth items}, depth < nestingLimit →
    (∀ item ∈ items, onValue (depth + 1) item) → onValue depth (.arr items)
  obj : ∀ {depth fields}, depth < nestingLimit →
    (∀ field ∈ fields, onText field.1 ∧ onValue (depth + 1) field.2) →
      onValue depth (ofFields fields)

/-- What an open array or object has collected, inside so many of them. -/
def FrameHolds (onText : Text → Prop) (onValue : Nat → Json → Prop) (depth : Nat) :
    Frame → Prop
  | .array items => ∀ item ∈ items, onValue depth item
  | .object fields => ∀ field ∈ fields, onText field.1 ∧ onValue depth field.2
  | .field fields key =>
    (∀ field ∈ fields, onText field.1 ∧ onValue depth field.2) ∧ onText key

/-- What all open arrays and objects have collected. -/
def FramesHold (onText : Text → Prop) (onValue : Nat → Json → Prop) : List Frame → Prop
  | [] => True
  | frame :: outer =>
    outer.length < nestingLimit ∧ FrameHolds onText onValue (outer.length + 1) frame ∧
      FramesHold onText onValue outer

/-- What a reading has collected. -/
structure Holds (onText : Text → Prop) (onValue : Nat → Json → Prop) (reading : Reading) :
    Prop where
  frames : FramesHold onText onValue reading.openFrames
  result : ∀ value, reading.expected = .nothing value → onValue 0 value

/-- The values and keys that a lexeme denotes. -/
def LexemeHolds (onText : Text → Prop) (onValue : Nat → Json → Prop) : Lexeme → Prop
  | .scalar value => ∀ depth, onValue depth value
  | .string text => onText text
  | _ => True

variable {onText : Text → Prop} {onValue : Nat → Json → Prop} {frames : List Frame}
  {reading next : Reading} {position : Nat} {lexeme : Lexeme}

theorem holds_complete {value : Json} (hframes : FramesHold onText onValue frames)
    (hvalue : onValue frames.length value) : Holds onText onValue (complete frames value) := by
  cases frames with
  | nil =>
      refine ⟨trivial, fun result hresult => ?_⟩
      injection hresult with hresult
      exact hresult ▸ hvalue
  | cons frame outer =>
      obtain ⟨hroom, hframe, houter⟩ := hframes
      cases frame with
      | array items =>
          exact ⟨⟨hroom, List.forall_mem_cons.mpr ⟨hvalue, hframe⟩, houter⟩, by simp [complete]⟩
      | object fields => exact ⟨⟨hroom, hframe, houter⟩, by simp [complete]⟩
      | field fields key =>
          exact ⟨⟨hroom, List.forall_mem_cons.mpr ⟨⟨hframe.2, hvalue⟩, hframe.1⟩, houter⟩,
            by simp [complete]⟩

theorem holds_enter {frame : Frame} {expected : Expected}
    (hframes : FramesHold onText onValue frames)
    (hframe : FrameHolds onText onValue (frames.length + 1) frame)
    (hexpected : ∀ value, expected ≠ .nothing value)
    (henter : enter frames frame expected = .ok next) : Holds onText onValue next := by
  rw [enter] at henter
  split at henter
  next hroom =>
    injection henter with henter
    subst henter
    exact ⟨⟨hroom, hframe, hframes⟩, fun value hvalue => absurd hvalue (hexpected value)⟩
  next => contradiction

theorem holds_takeValue (hkept : Kept onText onValue) (hframes : FramesHold onText onValue frames)
    (hlexeme : LexemeHolds onText onValue lexeme)
    (htake : takeValue frames position lexeme = .ok next) : Holds onText onValue next := by
  cases lexeme with
  | scalar value =>
      injection htake with htake
      exact htake ▸ holds_complete hframes (hlexeme _)
  | string value =>
      injection htake with htake
      exact htake ▸ holds_complete hframes (hkept.str hlexeme)
  | mark mark =>
      cases mark with
      | openArray => exact holds_enter hframes (by simp [FrameHolds]) (by simp) htake
      | openObject => exact holds_enter hframes (by simp [FrameHolds]) (by simp) htake
      | _ => contradiction
  | _ => contradiction

theorem holds_takeKey (hframes : FramesHold onText onValue frames)
    (hlexeme : LexemeHolds onText onValue lexeme)
    (htake : takeKey frames position lexeme = .ok next) : Holds onText onValue next := by
  cases lexeme with
  | string key =>
      simp only [takeKey] at htake
      split at htake
      · obtain ⟨hroom, hfields, houter⟩ := hframes
        injection htake with htake
        subst htake
        exact ⟨⟨hroom, ⟨hfields, hlexeme⟩, houter⟩, by simp⟩
      · contradiction
  | _ => contradiction

/-- A step collects only what its lexeme denotes. -/
theorem holds_take (hkept : Kept onText onValue) (hreading : Holds onText onValue reading)
    (hlexeme : LexemeHolds onText onValue lexeme)
    (htake : reading.take position lexeme = .ok next) : Holds onText onValue next := by
  have hframes := hreading.frames
  rw [take.eq_def] at htake
  split at htake
  case h_1 items outer _ hopen | h_2 items outer _ hopen =>
    rw [hopen] at hframes
    obtain ⟨hroom, hitems, houter⟩ := hframes
    injection htake with htake
    refine htake ▸ holds_complete houter (hkept.arr hroom fun item hitem => ?_)
    exact hitems item (List.mem_reverse.mp hitem)
  case h_3 fields outer _ hopen | h_4 fields outer _ hopen =>
    rw [hopen] at hframes
    obtain ⟨hroom, hfields, houter⟩ := hframes
    injection htake with htake
    refine htake ▸ holds_complete houter (hkept.obj hroom fun field hfield => ?_)
    exact hfields field (List.mem_reverse.mp hfield)
  case h_5 hopen | h_6 hopen =>
    injection htake with htake
    rw [hopen] at hframes
    exact htake ▸ ⟨hframes, by simp⟩
  case h_7 =>
    injection htake with htake
    exact htake ▸ ⟨hframes, by simp⟩
  case h_8 | h_9 => exact holds_takeValue hkept hframes hlexeme htake
  case h_10 | h_11 => exact holds_takeKey hframes hlexeme htake
  case h_12 => contradiction

theorem holds_of_run (hkept : Kept onText onValue) {chars : List Char} {skipped : Nat}
    {value : Json} (hreading : Holds onText onValue reading)
    (hlexemes : ∀ rest, rest <:+ chars → LexemeHolds onText onValue (Json.lexeme rest).1)
    (hrun : reading.run skipped position chars = .ok value) : onValue 0 value := by
  induction chars generalizing reading skipped position with
  | nil =>
      rw [run, finish] at hrun
      split at hrun
      next result hresult =>
        injection hrun with hrun
        exact hrun ▸ hreading.result result hresult
      next => contradiction
  | cons c rest ih =>
      have hrest : ∀ more, more <:+ rest → LexemeHolds onText onValue (Json.lexeme more).1 :=
        fun more hmore => hlexemes more (hmore.trans (List.suffix_cons c rest))
      cases skipped with
      | succ more => exact ih hreading hrest hrun
      | zero =>
          rw [run] at hrun
          split at hrun
          · exact ih hreading hrest hrun
          · simp only at hrun
            split at hrun
            next next htake =>
              exact ih (holds_take hkept hreading (hlexemes _ List.suffix_rfl) htake) hrest hrun
            next => contradiction

/-- What holds of the words for values, of the numbers and of the strings holds of all
lexemes. -/
theorem lexemeHolds_of_parts {chars : List Char}
    (hnamed : ∀ entry ∈ namedValues, ∀ depth, onValue depth entry.2)
    (hnumber : ∀ number, number? chars = some number →
      LexemeHolds onText onValue number.lexeme)
    (hstring : ∀ inside text length, chars = '"' :: inside →
      stringTail [] 1 inside = .ok (text, length) → onText text) :
    LexemeHolds onText onValue (Json.lexeme chars).1 := by
  rw [Json.lexeme.eq_def]
  split
  · trivial
  · split
    next inside _ text length hread => exact hstring inside text length rfl hread
    next => trivial
  · split
    next => trivial
    next =>
      split
      next name value hfound => exact hnamed _ (List.mem_of_find?_eq_some hfound)
      next =>
        split
        next number hread => exact hnumber number hread
        next => trivial

/-- What is kept when arrays and objects are closed holds of whatever is read, if it holds of
the lexemes of the text. -/
theorem holds_of_read (hkept : Kept onText onValue) {chars : List Char} {value : Json}
    (hlexemes : ∀ rest, rest <:+ chars → LexemeHolds onText onValue (Json.lexeme rest).1)
    (hread : read chars = .ok value) : onValue 0 value := by
  have hstart : Holds onText onValue start := ⟨trivial, by simp [start]⟩
  exact holds_of_run hkept hstart hlexemes hread

end ContractAtlas.Json.Reading
