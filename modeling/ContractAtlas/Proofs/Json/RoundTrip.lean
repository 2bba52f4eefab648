import ContractAtlas.Json.Reader
import ContractAtlas.Proofs.Json.Lexeme
import ContractAtlas.Proofs.Json.Setting
import Mathlib.Data.List.Nodup

/-!
# Reading what was written

Text is read back as the value it was written for, whatever is escaped and whether there is
space behind commas and colons.  The reader goes through the text with a stack of open arrays
and objects, so the statement that carries the induction is about any stack: from a point
where a value may start, the text of a value leads to the point that is reached by completing
this value, and the rest of the text is still there.

This holds for the values whose text says all: numbers are integers within the limit of
digits, strings hold no half of a surrogate pair, and no object repeats a key.  As many
arrays and objects may be nested as the reader can keep open
(`Portable.exists_read_write`).
-/

namespace ContractAtlas.Json

open Text

/-- The values that compact text carries without loss. -/
inductive Portable : Json → Prop
  | null : Portable .null
  | bool (value : Bool) : Portable (.bool value)
  | int {value : Int}
      (hdigits : (Nat.toDigits 10 value.natAbs).length ≤ Numeral.digitLimit) :
      Portable (.int value)
  | str {text : Text} (htext : text.IsWhole) : Portable (.str text)
  | arr {items : List Json} (hitems : ∀ item ∈ items, Portable item) : Portable (.arr items)
  | obj {fields : List (Text × Json)} (hdistinct : (fields.map (·.1)).Nodup)
      (hkeys : ∀ field ∈ fields, field.1.IsWhole)
      (hvalues : ∀ field ∈ fields, Portable field.2) : Portable (.obj fields)

mutual

/-- How many arrays and objects lie around the innermost value, with the value itself. -/
def nesting : Json → Nat
  | .arr items => nestingItems items + 1
  | .obj fields => nestingFields fields + 1
  | _ => 0

def nestingItems : List Json → Nat
  | [] => 0
  | item :: rest => max (nesting item) (nestingItems rest)

def nestingFields : List (Text × Json) → Nat
  | [] => 0
  | (_, value) :: rest => max (nesting value) (nestingFields rest)

end

theorem nestingItems_le_iff {items : List Json} {limit : Nat} :
    nestingItems items ≤ limit ↔ ∀ item ∈ items, nesting item ≤ limit := by
  induction items with
  | nil => simp [nestingItems]
  | cons item rest ih => simp [nestingItems, ih]

theorem nestingFields_le_iff {fields : List (Text × Json)} {limit : Nat} :
    nestingFields fields ≤ limit ↔ ∀ field ∈ fields, nesting field.2 ≤ limit := by
  induction fields with
  | nil => simp [nestingFields]
  | cons field rest ih => simp [nestingFields, ih]

/-! ## Objects with distinct keys -/

theorem ofFields_eq_obj {fields : List (Text × Json)}
    (hdistinct : (fields.map (·.1)).Nodup) : ofFields fields = .obj fields := by
  rw [ofFields_eq_lastSet, lastSet_eq_self hdistinct]

section Record

variable {fields : List (String × Json)}

theorem nodup_keys_record (hdistinct : (fields.map (·.1)).Nodup) :
    (Json.record fields).keys.Nodup := by
  have hinjective : Function.Injective Text.ofString := fun _ _ => Text.ofString_injective
  have hkeys := List.Nodup.map hinjective hdistinct
  rw [List.map_map] at hkeys
  rwa [Json.record, keys, List.map_map]

theorem Portable.ofString (string : String) : (Json.ofString string).Portable :=
  .str ⟨string.toList, rfl⟩

/-- A record is portable if its names are distinct and its values are portable. -/
theorem Portable.record (hdistinct : (fields.map (·.1)).Nodup)
    (hvalues : ∀ field ∈ fields, field.2.Portable) : (Json.record fields).Portable := by
  refine .obj (nodup_keys_record hdistinct) (fun field hfield => ?_) fun field hfield => ?_
  · obtain ⟨entry, -, rfl⟩ := List.mem_map.mp hfield
    exact ⟨entry.1.toList, rfl⟩
  · obtain ⟨entry, hentry, rfl⟩ := List.mem_map.mp hfield
    exact hvalues entry hentry

theorem nesting_record_le_iff {limit : Nat} : (Json.record fields).nesting ≤ limit + 1 ↔
    ∀ field ∈ fields, field.2.nesting ≤ limit := by
  rw [Json.record, nesting, Nat.add_le_add_iff_right, nestingFields_le_iff, List.forall_mem_map]

end Record

/-! ## One lexeme -/

section

variable {c : Char} {chars rest : List Char}

theorem lexeme_writeInt (hrest : EndsNumeral rest) {value : Int}
    (hdigits : (Nat.toDigits 10 value.natAbs).length ≤ Numeral.digitLimit) :
    lexeme (writeInt value ++ rest) = (.scalar (.int value), (writeInt value).length) := by
  have hsigned : Numeral.signed (decide (value < 0)) value.natAbs = value := by
    by_cases hnegative : value < 0
    · simp only [Numeral.signed, hnegative, decide_true, if_true]
      omega
    · simp only [Numeral.signed, hnegative, decide_false, Bool.false_eq_true, if_false]
      omega
  have hshort : ¬ Numeral.digitLimit < (Nat.toDigits 10 value.natAbs).length :=
    Nat.not_lt.mpr hdigits
  rw [lexeme_eq_of_number? (number?_writeInt hrest value)]
  simp [NumberText.lexeme, hshort, decimalValue_toDigits, hsigned]

end

namespace Reading

section Lexemes

variable {reading next : Reading} {position : Nat} {c : Char}
  {chars rest : List Char}

theorem run_skip (reading : Reading) (position : Nat) (chars rest : List Char) :
    reading.run chars.length position (chars ++ rest) =
      reading.run 0 (position + chars.length) rest := by
  induction chars generalizing position with
  | nil => rfl
  | cons c chars ih =>
      rw [List.length_cons, List.cons_append, run, ih]
      congr 1
      omega

theorem run_gap {gap : List Char} (hgap : ∀ c ∈ gap, isSpace c = true) :
    reading.run 0 position (gap ++ rest) =
      reading.run 0 (position + gap.length) rest := by
  induction gap generalizing position with
  | nil => rfl
  | cons c gap ih =>
      obtain ⟨hc, hgap⟩ := List.forall_mem_cons.mp hgap
      rw [List.cons_append, run, if_pos hc, ih hgap, List.length_cons]
      congr 1
      omega

/-- A reading takes a lexeme and goes on behind it. -/
theorem run_lexeme (chars : List Char) {piece : Lexeme} (hspace : isSpace c = false)
    (hlexeme : lexeme (c :: (chars ++ rest)) = (piece, chars.length + 1))
    (htake : reading.take position piece = .ok next) :
    reading.run 0 position (c :: (chars ++ rest)) =
      next.run 0 (position + (chars.length + 1)) rest := by
  rw [run, hspace, hlexeme]
  simp only [Bool.false_eq_true, if_false, htake, Nat.add_sub_cancel]
  rw [run_skip]
  congr 1
  omega

/-- A mark is a lexeme of one character. -/
theorem run_mark {mark : Mark} (hmark : mark? c = some mark)
    (htake : reading.take position (.mark mark) = .ok next) :
    reading.run 0 position (c :: rest) =
      next.run 0 (position + 1) rest := by
  have hplain : isSpace c = false ∧ c ≠ '"' := by
    rw [mark?.eq_def] at hmark
    split at hmark
    case h_7 => contradiction
    all_goals decide
  obtain ⟨hspace, hquote⟩ := hplain
  have hlexeme : lexeme (c :: ([] ++ rest)) = (.mark mark, 0 + 1) := by
    rw [List.nil_append, lexeme, hmark]
    exact hquote
  exact run_lexeme [] hspace hlexeme htake

/-- Where a value may start. -/
def AwaitsValue (expected : Expected) : Prop :=
  expected = .firstItem ∨ expected = .value

theorem take_value {expected : Expected} (hexpected : AwaitsValue expected)
    (frames : List Frame) (position : Nat) {piece : Lexeme}
    (hlexeme : ∀ mark, piece ≠ .mark mark) :
    take ⟨frames, expected⟩ position piece = takeValue frames position piece := by
  rcases hexpected with rfl | rfl <;> cases piece <;> first | rfl | exact absurd rfl (hlexeme _)

theorem enter_of_lt {frames : List Frame} (hroom : frames.length < nestingLimit)
    (frame : Frame) (inside : Expected) : enter frames frame inside = .ok ⟨frame :: frames, inside⟩ :=
  if_pos hroom

end Lexemes

/-! ## Single values -/

/-- Some text in place of a value leads past the value, on any stack that leaves room for
its arrays and objects. -/
def Reads (chars : List Char) (value : Json) : Prop :=
  ∀ (frames : List Frame) (expected : Expected) (position : Nat) (rest : List Char),
    AwaitsValue expected → frames.length + value.nesting ≤ nestingLimit →
      EndsNumeral rest → run ⟨frames, expected⟩ 0 position (chars ++ rest) =
        (complete frames value).run 0 (position + chars.length) rest

variable {style : Style}

/-- A value that is a single lexeme. -/
theorem reads_of_lexeme {c : Char} {chars : List Char} {value : Json} (piece : Lexeme)
    (hspace : isSpace c = false)
    (hlexeme : ∀ rest, EndsNumeral rest →
      lexeme (c :: (chars ++ rest)) = (piece, chars.length + 1))
    (hmark : ∀ mark, piece ≠ .mark mark)
    (hvalue : ∀ frames position, takeValue frames position piece = .ok (complete frames value)) :
    Reads (c :: chars) value := by
  intro frames expected position rest hexpected _ hrest
  have htake : take ⟨frames, expected⟩ position piece =
      .ok (complete frames value) := by
    rw [take_value hexpected _ _ hmark, hvalue]
  exact run_lexeme chars hspace (hlexeme rest hrest) htake

theorem reads_word {c : Char} {chars : List Char} {value : Json} (hspace : isSpace c = false)
    (hlexeme : ∀ rest, lexeme (c :: (chars ++ rest)) = (.scalar value, chars.length + 1)) :
    Reads (c :: chars) value :=
  reads_of_lexeme (.scalar value) hspace (fun rest _ => hlexeme rest) (by simp) fun _ _ => rfl

theorem lexeme_closedString (style : Style) (chars rest : List Char) :
    lexeme ('"' :: ((chars.flatMap (writtenChar style) ++ ['"']) ++ rest)) =
      (.string (ofChars chars), (chars.flatMap (writtenChar style) ++ ['"']).length + 1) := by
  rw [List.append_assoc, List.singleton_append, lexeme_string, List.length_append]
  rfl

theorem reads_string (style : Style) (chars : List Char) :
    Reads ('"' :: (chars.flatMap (writtenChar style) ++ ['"'])) (.str (ofChars chars)) :=
  reads_of_lexeme (.string (ofChars chars)) rfl
    (fun rest _ => lexeme_closedString style chars rest) (by simp) fun _ _ => rfl

theorem reads_int {value : Int}
    (hdigits : (Nat.toDigits 10 value.natAbs).length ≤ Numeral.digitLimit) :
    Reads (writeInt value) (.int value) := by
  obtain ⟨c, chars, hchars, hspace⟩ := exists_writeInt_eq_cons value
  rw [hchars]
  refine reads_of_lexeme (.scalar (.int value)) hspace (fun rest hrest => ?_) (by simp)
    fun _ _ => rfl
  have hlexeme := lexeme_writeInt hrest hdigits
  rwa [hchars] at hlexeme

theorem endsNumeral_cons {c : Char} (hmark : (mark? c).isSome) (rest : List Char) :
    EndsNumeral (c :: rest) := by
  intro head hhead
  obtain rfl : c = head := by simpa using hhead
  rw [mark?.eq_def] at hmark
  split at hmark
  case h_7 => contradiction
  all_goals decide

/-! ## Arrays -/

/-- Items in place of an array's items lead past the array. -/
def ReadsItems (chars : List Char) (items : List Json) : Prop :=
  ∀ (done : List Json) (frames : List Frame) (expected : Expected) (position : Nat)
    (rest : List Char), AwaitsValue expected →
      frames.length + 1 + nestingItems items ≤ nestingLimit →
        run ⟨.array done :: frames, expected⟩ 0 position (chars ++ ']' :: rest) =
          (complete frames (.arr (done.reverse ++ items))).run 0
            (position + (chars.length + 1)) rest

theorem readsItems_singleton {chars : List Char} {item : Json} (hread : Reads chars item) :
    ReadsItems chars [item] := by
  intro done frames expected position rest hexpected hroom
  have hitem : item.nesting ≤ nestingItems [item] := Nat.le_max_left _ _
  have hafter : complete (.array done :: frames) item =
      ⟨.array (item :: done) :: frames, .separator⟩ := rfl
  have htake : take ⟨.array (item :: done) :: frames, .separator⟩
      (position + chars.length) (.mark .closeArray) =
        .ok (complete frames (.arr (done.reverse ++ [item]))) := by
    rw [← List.reverse_cons]
    rfl
  rw [hread _ _ _ _ hexpected (by rw [List.length_cons]; omega)
    (endsNumeral_cons rfl rest), hafter, run_mark rfl htake, Nat.add_assoc]

theorem readsItems_cons {chars more : List Char} {item next : Json} {others : List Json}
    (hgap : ∀ c ∈ style.gap, isSpace c = true) (hread : Reads chars item)
    (hmore : ReadsItems more (next :: others)) :
    ReadsItems (chars ++ ',' :: (style.gap ++ more)) (item :: next :: others) := by
  intro done frames expected position rest hexpected hroom
  have hitem : item.nesting ≤ nestingItems (item :: next :: others) := Nat.le_max_left _ _
  have hothers : nestingItems (next :: others) ≤ nestingItems (item :: next :: others) :=
    Nat.le_max_right _ _
  have hafter : complete (.array done :: frames) item =
      ⟨.array (item :: done) :: frames, .separator⟩ := rfl
  have htake : take ⟨.array (item :: done) :: frames, .separator⟩
      (position + chars.length) (.mark .comma) =
        .ok ⟨.array (item :: done) :: frames, .value⟩ := rfl
  rw [List.append_assoc, List.cons_append, List.append_assoc,
    hread _ _ _ _ hexpected (by rw [List.length_cons]; omega)
      (endsNumeral_cons rfl _),
    hafter, run_mark rfl htake, run_gap hgap,
    hmore _ _ _ _ _ (.inr rfl) (by omega), List.reverse_cons, List.append_assoc,
    List.singleton_append]
  congr 1
  simp only [List.length_append, List.length_cons]
  omega

/-- What is written for a value leads past the value. -/
def ReadsWritten (style : Style) (value : Json) : Prop :=
  ∃ chars, write style value = ofChars chars ∧ Reads chars value

theorem exists_readsItems (hgap : ∀ c ∈ style.gap, isSpace c = true) :
    ∀ {items : List Json}, items ≠ [] → (∀ item ∈ items, ReadsWritten style item) →
      ∃ chars, writeItems style items = ofChars chars ∧ ReadsItems chars items
  | [], hne, _ => absurd rfl hne
  | [item], _, hitems => by
      obtain ⟨chars, hchars, hread⟩ := hitems item List.mem_cons_self
      exact ⟨chars, by rw [writeItems, hchars], readsItems_singleton hread⟩
  | item :: next :: others, _, hitems => by
      obtain ⟨chars, hchars, hread⟩ := hitems item List.mem_cons_self
      obtain ⟨more, hmore, hreadMore⟩ := exists_readsItems hgap (List.cons_ne_nil next others)
        fun other hother => hitems other (List.mem_cons_of_mem _ hother)
      refine ⟨chars ++ ',' :: (style.gap ++ more), ?_, readsItems_cons hgap hread hreadMore⟩
      rw [writeItems, hchars, hmore, ofChars_append, ofChars_cons, ofChars_append]
      simp

/-- The text of an array leads past the array. -/
theorem readsWritten_arr (hgap : ∀ c ∈ style.gap, isSpace c = true) {items : List Json}
    (hitems : ∀ item ∈ items, ReadsWritten style item) :
    ReadsWritten style (.arr items) := by
  have henter : ∀ {frames : List Frame} {expected : Expected} {position : Nat},
      AwaitsValue expected → frames.length + nesting (.arr items) ≤ nestingLimit →
        take ⟨frames, expected⟩ position (.mark .openArray) =
          .ok ⟨.array [] :: frames, .firstItem⟩ := by
    intro frames expected position hexpected hroom
    rw [nesting] at hroom
    have hopened := enter_of_lt (show frames.length < nestingLimit by omega) (.array []) .firstItem
    rcases hexpected with rfl | rfl <;> exact hopened
  by_cases hempty : items = []
  · subst hempty
    refine ⟨['[', ']'], rfl, ?_⟩
    intro frames expected position rest hexpected hroom _
    have htake : take ⟨.array [] :: frames, .firstItem⟩ (position + 1)
        (.mark .closeArray) = .ok (complete frames (.arr [])) := rfl
    rw [List.cons_append, run_mark rfl (henter hexpected hroom), List.cons_append,
      run_mark rfl htake]
    rfl
  · obtain ⟨chars, hchars, hread⟩ := exists_readsItems hgap hempty hitems
    refine ⟨'[' :: (chars ++ [']']), ?_, ?_⟩
    · rw [write, hchars, ofChars_cons, ofChars_append]
      rfl
    · intro frames expected position rest hexpected hroom _
      have hinside : frames.length + 1 + nestingItems items ≤ nestingLimit := by
        rw [nesting] at hroom
        omega
      rw [List.cons_append, run_mark rfl (henter hexpected hroom), List.append_assoc,
        List.singleton_append, hread _ _ _ _ _ (.inl rfl) hinside, List.reverse_nil,
        List.nil_append, List.length_cons, List.length_append, List.length_singleton]
      congr 1
      omega

/-! ## Objects -/

/-- Where a key may start. -/
def AwaitsKey (expected : Expected) : Prop :=
  expected = .firstKey ∨ expected = .key

/-- The text of a key with the colon behind it. -/
def keyChars (style : Style) (key : List Char) : List Char :=
  '"' :: (key.flatMap (writtenChar style) ++ '"' :: ':' :: style.gap)

/-- A key in front of a value, with the colon between them, leads to where the value
starts. -/
theorem run_key (hgap : ∀ c ∈ style.gap, isSpace c = true) {expected : Expected}
    (hexpected : AwaitsKey expected) (key : List Char) (done : List (Text × Json))
    (frames : List Frame) (position : Nat) (rest : List Char) :
    run ⟨.object done :: frames, expected⟩ 0 position (keyChars style key ++ rest) =
      run ⟨.field done (ofChars key) :: frames, .value⟩ 0
        (position + (keyChars style key).length) rest := by
  have hkey : take ⟨.object done :: frames, expected⟩ position
      (.string (ofChars key)) = .ok ⟨.field done (ofChars key) :: frames, .colon⟩ := by
    rcases hexpected with rfl | rfl <;> rfl
  have hcolon : ∀ place, take ⟨.field done (ofChars key) :: frames, .colon⟩ place
      (.mark .colon) = .ok ⟨.field done (ofChars key) :: frames, .value⟩ := fun _ => rfl
  have htext : keyChars style key ++ rest =
      '"' :: ((key.flatMap (writtenChar style) ++ ['"']) ++ ':' :: (style.gap ++ rest)) := by
    simp [keyChars]
  rw [htext, run_lexeme (key.flatMap (writtenChar style) ++ ['"']) rfl
    (lexeme_closedString style key _) hkey, run_mark rfl (hcolon _), run_gap hgap]
  congr 1
  simp only [keyChars, List.length_append, List.length_cons, List.length_nil]
  omega

/-- Fields in place of an object's fields lead past the object. -/
def ReadsFields (chars : List Char) (fields : List (Text × Json)) : Prop :=
  ∀ (done : List (Text × Json)) (frames : List Frame) (expected : Expected) (position : Nat)
    (rest : List Char), AwaitsKey expected →
      frames.length + 1 + nestingFields fields ≤ nestingLimit →
        run ⟨.object done :: frames, expected⟩ 0 position (chars ++ '}' :: rest) =
          (complete frames (ofFields (done.reverse ++ fields))).run 0
            (position + (chars.length + 1)) rest

theorem readsFields_singleton (hgap : ∀ c ∈ style.gap, isSpace c = true) {key chars : List Char}
    {value : Json} (hread : Reads chars value) :
    ReadsFields (keyChars style key ++ chars) [(ofChars key, value)] := by
  intro done frames expected position rest hexpected hroom
  have hvalue : value.nesting ≤ nestingFields [(ofChars key, value)] := Nat.le_max_left _ _
  have hafter : complete (.field done (ofChars key) :: frames) value =
      ⟨.object ((ofChars key, value) :: done) :: frames, .separator⟩ := rfl
  have htake : ∀ place, take
      ⟨.object ((ofChars key, value) :: done) :: frames, .separator⟩ place (.mark .closeObject) =
        .ok (complete frames (ofFields (done.reverse ++ [(ofChars key, value)]))) := by
    intro place
    rw [← List.reverse_cons]
    rfl
  rw [List.append_assoc, run_key hgap hexpected,
    hread _ _ _ _ (.inr rfl) (by rw [List.length_cons]; omega)
      (endsNumeral_cons rfl rest), hafter, run_mark rfl (htake _)]
  congr 1
  rw [List.length_append]
  omega

theorem readsFields_cons (hgap : ∀ c ∈ style.gap, isSpace c = true) {key chars more : List Char}
    {value : Json} {next : Text × Json} {others : List (Text × Json)}
    (hread : Reads chars value) (hmore : ReadsFields more (next :: others)) :
    ReadsFields (keyChars style key ++ chars ++ ',' :: (style.gap ++ more))
      ((ofChars key, value) :: next :: others) := by
  intro done frames expected position rest hexpected hroom
  have hvalue : value.nesting ≤ nestingFields ((ofChars key, value) :: next :: others) :=
    Nat.le_max_left _ _
  have hothers : nestingFields (next :: others) ≤
      nestingFields ((ofChars key, value) :: next :: others) := Nat.le_max_right _ _
  have hafter : complete (.field done (ofChars key) :: frames) value =
      ⟨.object ((ofChars key, value) :: done) :: frames, .separator⟩ := rfl
  have htake : ∀ place, take
      ⟨.object ((ofChars key, value) :: done) :: frames, .separator⟩ place (.mark .comma) =
        .ok ⟨.object ((ofChars key, value) :: done) :: frames, .key⟩ := fun _ => rfl
  rw [List.append_assoc, List.append_assoc, List.cons_append, List.append_assoc,
    run_key hgap hexpected,
    hread _ _ _ _ (.inr rfl) (by rw [List.length_cons]; omega)
      (endsNumeral_cons rfl _),
    hafter, run_mark rfl (htake _), run_gap hgap,
    hmore _ _ _ _ _ (.inr rfl) (by omega), List.reverse_cons, List.append_assoc,
    List.singleton_append]
  congr 1
  simp only [List.length_append, List.length_cons]
  omega

theorem writeString_append_colon (key : List Char) (rest : Text) :
    writeString style (ofChars key) ++ .char ':' :: ofChars style.gap ++ rest =
      ofChars (keyChars style key) ++ rest := by
  rw [writeString_ofChars, keyChars]
  simp [ofChars]

theorem exists_readsFields (hgap : ∀ c ∈ style.gap, isSpace c = true) :
    ∀ {fields : List (Text × Json)}, fields ≠ [] → (∀ field ∈ fields, field.1.IsWhole) →
      (∀ field ∈ fields, ReadsWritten style field.2) →
        ∃ chars, writeFields style fields = ofChars chars ∧ ReadsFields chars fields
  | [], hne, _, _ => absurd rfl hne
  | [(key, value)], _, hkeys, hvalues => by
      obtain ⟨name, rfl⟩ : key.IsWhole := hkeys _ List.mem_cons_self
      obtain ⟨chars, hchars, hread⟩ := hvalues _ List.mem_cons_self
      refine ⟨keyChars style name ++ chars, ?_, readsFields_singleton hgap hread⟩
      rw [writeFields, hchars, ofChars_append]
      exact writeString_append_colon name _
  | (key, value) :: next :: others, _, hkeys, hvalues => by
      obtain ⟨name, rfl⟩ : key.IsWhole := hkeys _ List.mem_cons_self
      obtain ⟨chars, hchars, hread⟩ := hvalues _ List.mem_cons_self
      obtain ⟨more, hmore, hreadMore⟩ := exists_readsFields hgap (List.cons_ne_nil next others)
        (fun field hfield => hkeys field (List.mem_cons_of_mem _ hfield))
        (fun field hfield => hvalues field (List.mem_cons_of_mem _ hfield))
      refine ⟨keyChars style name ++ chars ++ ',' :: (style.gap ++ more), ?_,
        readsFields_cons hgap hread hreadMore⟩
      rw [writeFields, hchars, hmore, writeString_append_colon, ofChars_append, ofChars_append,
        ofChars_cons, ofChars_append]
      simp

/-- The text of an object leads past the object, if no key is repeated. -/
theorem readsWritten_obj (hgap : ∀ c ∈ style.gap, isSpace c = true)
    {fields : List (Text × Json)} (hdistinct : (fields.map (·.1)).Nodup)
    (hkeys : ∀ field ∈ fields, field.1.IsWhole)
    (hvalues : ∀ field ∈ fields, ReadsWritten style field.2) :
    ReadsWritten style (.obj fields) := by
  have henter : ∀ {frames : List Frame} {expected : Expected} {position : Nat},
      AwaitsValue expected → frames.length + nesting (.obj fields) ≤ nestingLimit →
        take ⟨frames, expected⟩ position (.mark .openObject) =
          .ok ⟨.object [] :: frames, .firstKey⟩ := by
    intro frames expected position hexpected hroom
    rw [nesting] at hroom
    have hopened := enter_of_lt (show frames.length < nestingLimit by omega) (.object []) .firstKey
    rcases hexpected with rfl | rfl <;> exact hopened
  by_cases hempty : fields = []
  · subst hempty
    refine ⟨['{', '}'], rfl, ?_⟩
    intro frames expected position rest hexpected hroom _
    have htake : take ⟨.object [] :: frames, .firstKey⟩ (position + 1)
        (.mark .closeObject) = .ok (complete frames (.obj [])) := rfl
    rw [List.cons_append, run_mark rfl (henter hexpected hroom), List.cons_append,
      run_mark rfl htake]
    rfl
  · obtain ⟨chars, hchars, hread⟩ := exists_readsFields hgap hempty hkeys hvalues
    refine ⟨'{' :: (chars ++ ['}']), ?_, ?_⟩
    · rw [write, hchars, ofChars_cons, ofChars_append]
      rfl
    · intro frames expected position rest hexpected hroom _
      have hinside : frames.length + 1 + nestingFields fields ≤ nestingLimit := by
        rw [nesting] at hroom
        omega
      rw [List.cons_append, run_mark rfl (henter hexpected hroom), List.append_assoc,
        List.singleton_append, hread _ _ _ _ _ (.inl rfl) hinside, List.reverse_nil,
        List.nil_append, ofFields_eq_obj hdistinct, List.length_cons, List.length_append,
        List.length_singleton]
      congr 1
      omega

end Reading

/-! ## Any value -/

open Reading in
theorem Portable.readsWritten {style : Style} {value : Json} (hportable : value.Portable)
    (hgap : ∀ c ∈ style.gap, isSpace c = true) : ReadsWritten style value := by
  induction hportable with
  | null => exact ⟨"null".toList, rfl, reads_word rfl fun rest => lexeme_null rest⟩
  | bool value =>
      cases value with
      | true => exact ⟨"true".toList, rfl, reads_word rfl fun rest => lexeme_true rest⟩
      | false => exact ⟨"false".toList, rfl, reads_word rfl fun rest => lexeme_false rest⟩
  | @int value hdigits => exact ⟨writeInt value, rfl, reads_int hdigits⟩
  | str htext =>
      obtain ⟨chars, rfl⟩ := htext
      exact ⟨_, writeString_ofChars style chars, reads_string style chars⟩
  | arr _ ih => exact readsWritten_arr hgap ih
  | obj hdistinct hkeys _ ih => exact readsWritten_obj hgap hdistinct hkeys ih

/-- The text of a value is read as this value, unless it is nested too deeply. -/
theorem Portable.exists_read_write {style : Style} {value : Json} (hportable : value.Portable)
    (hgap : ∀ c ∈ style.gap, isSpace c = true) (hnesting : value.nesting ≤ nestingLimit) :
    ∃ chars, value.write style = ofChars chars ∧ read chars = .ok value := by
  obtain ⟨chars, hchars, hread⟩ := hportable.readsWritten hgap
  refine ⟨chars, hchars, ?_⟩
  have hrun := hread [] .value 0 [] (.inr rfl) (by simpa using hnesting) (by simp [EndsNumeral])
  rw [List.append_nil] at hrun
  rw [read, Reading.start, hrun]
  rfl

/-- The compact text of a value is read as this value. -/
theorem Portable.exists_read_compact {value : Json} (hportable : value.Portable)
    (hnesting : value.nesting ≤ nestingLimit) :
    ∃ chars, value.compact = ofChars chars ∧ read chars = .ok value :=
  hportable.exists_read_write (by simp [Style.compact]) hnesting

end ContractAtlas.Json
