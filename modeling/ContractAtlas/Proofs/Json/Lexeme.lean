import ContractAtlas.Json.Lexeme
import ContractAtlas.Json.Writer
import Mathlib.Data.List.TakeWhile

/-!
# Lexemes of written values

What is written for a scalar or a string is read again as one lexeme, and the lexeme
ends where the written text ends.  A string ends with its own closing quote.  A numeral
ends only if what follows does not continue it, which no comma and no closing bracket
does.
-/

namespace ContractAtlas

namespace Text

/-- A text that holds no half of a surrogate pair. -/
def IsWhole (text : Text) : Prop :=
  ∃ chars, text = ofChars chars

@[simp]
theorem ofChars_nil : ofChars [] = [] := rfl

@[simp]
theorem ofChars_cons (c : Char) (rest : List Char) :
    ofChars (c :: rest) = .char c :: ofChars rest := rfl

theorem ofChars_append (left right : List Char) :
    ofChars (left ++ right) = ofChars left ++ ofChars right :=
  List.map_append

end Text

namespace Json

open Text

/-! ## Numerals -/

theorem isDigit_of_char_isDigit {c : Char} (hdigit : c.isDigit = true) : isDigit c = true := by
  simpa [isDigit, Char.isDigit, Char.le_def] using hdigit

theorem isDigit_of_mem_toDigits {n : Nat} {c : Char} (hc : c ∈ Nat.toDigits 10 n) :
    isDigit c = true :=
  isDigit_of_char_isDigit (Nat.isDigit_of_mem_toDigits (by decide) (by decide) hc)

/-- Only the numeral of zero starts with a zero. -/
theorem head?_toDigits_ne {n : Nat} (hpos : 0 < n) : (Nat.toDigits 10 n).head? ≠ some '0' := by
  induction n using Nat.strongRecOn with
  | ind n ih =>
      by_cases hsmall : n < 10
      · rw [Nat.toDigits_of_lt_base hsmall]
        have hdigit : ∀ d < 10, 0 < d → d.digitChar ≠ '0' := by decide
        simpa using hdigit n hsmall hpos
      · rw [Nat.toDigits_of_base_le (by decide) (by omega),
          List.head?_append, Option.or_of_isSome (by simp)]
        exact ih (n / 10) (by omega) (by omega)

theorem decimalValue_toDigits (n : Nat) : decimalValue (Nat.toDigits 10 n) = n := by
  have hfold : decimalValue (Nat.toDigits 10 n) = Nat.ofDigitChars 10 (Nat.toDigits 10 n) 0 := by
    simp only [decimalValue, Nat.ofDigitChars_eq_foldl, Nat.mul_comm]
  rw [hfold, Nat.ofDigitChars_ten_toDigits]

/-- A text that does not continue a numeral. -/
def EndsNumeral (rest : List Char) : Prop :=
  ∀ c ∈ rest.head?, isDigit c = false ∧ c ≠ '.' ∧ c ≠ 'e' ∧ c ≠ 'E'

theorem wholeDigits_toDigits {rest : List Char} (hrest : EndsNumeral rest) (n : Nat) :
    wholeDigits (Nat.toDigits 10 n ++ rest) = Nat.toDigits 10 n := by
  rcases Nat.eq_zero_or_pos n with rfl | hpos
  · rw [Nat.toDigits_zero]
    rfl
  · have hhead := head?_toDigits_ne hpos
    have htake : (Nat.toDigits 10 n ++ rest).takeWhile isDigit = Nat.toDigits 10 n := by
      rw [List.takeWhile_append_of_pos fun c hc => isDigit_of_mem_toDigits hc]
      cases rest with
      | nil => simp
      | cons c tail => simp [(hrest c rfl).1]
    cases hdigits : Nat.toDigits 10 n with
    | nil => exact absurd hdigits Nat.toDigits_ne_nil
    | cons d digits =>
        rw [hdigits] at hhead htake
        have hzero : d ≠ '0' := by simpa using hhead
        rw [List.cons_append] at htake ⊢
        rw [wholeDigits, htake]
        intro _ heq
        exact hzero (List.cons.inj heq).1

theorem fractionDigits_eq_nil {rest : List Char} (hrest : EndsNumeral rest) :
    fractionDigits rest = [] := by
  cases rest with
  | nil => rfl
  | cons c tail =>
      rw [fractionDigits]
      intro _ heq
      exact (hrest c rfl).2.1 (List.cons.inj heq).1

theorem exponentPart_eq_none {rest : List Char} (hrest : EndsNumeral rest) :
    exponentPart rest = none := by
  cases rest with
  | nil => rfl
  | cons c tail =>
      obtain ⟨-, -, hlower, hupper⟩ := hrest c rfl
      simp [exponentPart, hlower, hupper]

theorem isDigit_head_toDigits {n : Nat} {d : Char} {digits : List Char}
    (hdigits : Nat.toDigits 10 n = d :: digits) : isDigit d = true :=
  isDigit_of_mem_toDigits (hdigits ▸ List.mem_cons_self)

/-- An integer, and nothing behind it, is read as a numeral. -/
theorem number?_writeInt {rest : List Char} (hrest : EndsNumeral rest) (value : Int) :
    number? (writeInt value ++ rest) = some {
      negative := decide (value < 0)
      whole := Nat.toDigits 10 value.natAbs
      fraction := []
      exponent := none
      length := (writeInt value).length } := by
  have hwhole := wholeDigits_toDigits hrest value.natAbs
  have hdrop : (Nat.toDigits 10 value.natAbs ++ rest).drop
      (Nat.toDigits 10 value.natAbs).length = rest := List.drop_left
  have hfraction := fractionDigits_eq_nil hrest
  have hexponent := exponentPart_eq_none hrest
  by_cases hnegative : value < 0
  · simp only [writeInt, hnegative, if_true, List.cons_append, number?, hwhole, hdrop, hfraction,
      List.drop_zero, List.isEmpty_nil, hexponent, Option.map_none]
    simp [Nat.add_comm]
  · simp only [writeInt, hnegative, if_false]
    rw [number?]
    · simp [hwhole, hdrop, hfraction, hexponent]
    · intro tail heq
      cases hdigits : Nat.toDigits 10 value.natAbs with
      | nil => exact absurd hdigits Nat.toDigits_ne_nil
      | cons d digits =>
          rw [hdigits] at heq
          have hdigit := isDigit_head_toDigits hdigits
          rw [(List.cons.inj heq).1] at hdigit
          contradiction

/-- What the lexeme at the start of a text that opens neither a string nor an array nor an
object is decided by. -/
theorem lexeme_of_number? {c : Char} {tail : List Char} {number : NumberText}
    (hquote : c ≠ '"') (hmark : mark? c = none)
    (hword : (namedValues.find? fun entry => entry.1.toList.isPrefixOf (c :: tail)) = none)
    (hnumber : number? (c :: tail) = some number) :
    lexeme (c :: tail) = (number.lexeme, number.length) := by
  rw [lexeme, hmark]
  · simp only [hword, hnumber]
  · exact hquote

theorem ne_of_isDigit {c other : Char} (hdigit : isDigit c = true)
    (hother : isDigit other = false) : c ≠ other := by
  rintro rfl
  rw [hdigit] at hother
  contradiction

theorem mark?_of_isDigit {c : Char} (hdigit : isDigit c = true) : mark? c = none := by
  rw [mark?] <;> exact ne_of_isDigit hdigit (by decide)

theorem isSpace_of_isDigit {c : Char} (hdigit : isDigit c = true) : isSpace c = false := by
  have hblank : ¬ c = ' ' := ne_of_isDigit hdigit (by decide)
  have htab : ¬ c = '\t' := ne_of_isDigit hdigit (by decide)
  have hfeed : ¬ c = '\n' := ne_of_isDigit hdigit (by decide)
  have hreturn : ¬ c = '\r' := ne_of_isDigit hdigit (by decide)
  simp [isSpace, hblank, htab, hfeed, hreturn]

/-- An integer starts with its sign or a digit. -/
theorem exists_writeInt_eq_cons (value : Int) :
    ∃ c chars, writeInt value = c :: chars ∧ isSpace c = false := by
  by_cases hnegative : value < 0
  · exact ⟨'-', Nat.toDigits 10 value.natAbs, by simp [writeInt, hnegative], rfl⟩
  · cases hdigits : Nat.toDigits 10 value.natAbs with
    | nil => exact absurd hdigits Nat.toDigits_ne_nil
    | cons d digits =>
        exact ⟨d, digits, by simp [writeInt, hnegative, hdigits],
          isSpace_of_isDigit (isDigit_head_toDigits hdigits)⟩

theorem find?_namedValues_of_isDigit {c : Char} {tail : List Char} (hdigit : isDigit c = true) :
    (namedValues.find? fun entry => entry.1.toList.isPrefixOf (c :: tail)) = none := by
  have hne : ∀ other, isDigit other = false → ¬ other = c := by
    intro other hother
    exact (ne_of_isDigit hdigit hother).symm
  simp [namedValues, hne, isDigit]

theorem find?_namedValues_of_sign {c : Char} {tail : List Char} (hdigit : isDigit c = true) :
    (namedValues.find? fun entry => entry.1.toList.isPrefixOf ('-' :: c :: tail)) = none := by
  have hne : ¬ 'I' = c := (ne_of_isDigit hdigit (by decide)).symm
  simp [namedValues, hne]

theorem exists_cons_of_wholeDigits {chars : List Char}
    (hwhole : (wholeDigits chars).isEmpty = false) :
    ∃ d rest, chars = d :: rest ∧ isDigit d = true := by
  cases chars with
  | nil => contradiction
  | cons d rest =>
      refine ⟨d, rest, rfl, ?_⟩
      by_contra hdigit
      rw [wholeDigits.eq_def] at hwhole
      split at hwhole
      next heq => exact hdigit (by rw [(List.cons.inj heq).1]; decide)
      next => simp [hdigit] at hwhole

/-- A numeral starts with a digit, perhaps behind a sign. -/
theorem exists_cons_of_number? {chars : List Char} {number : NumberText}
    (hnumber : number? chars = some number) :
    ∃ d rest, isDigit d = true ∧ (chars = d :: rest ∨ chars = '-' :: d :: rest) := by
  rw [number?.eq_def] at hnumber
  split at hnumber
  next negative unsigned hsign =>
    cases hwhole : (wholeDigits unsigned).isEmpty with
    | true => simp [hwhole] at hnumber
    | false =>
        obtain ⟨d, rest, rfl, hdigit⟩ := exists_cons_of_wholeDigits hwhole
        refine ⟨d, rest, hdigit, ?_⟩
        split at hsign
        · exact .inr (by rw [(Prod.mk.inj hsign).2])
        · exact .inl (Prod.mk.inj hsign).2

theorem lexeme_eq_of_number? {chars : List Char} {number : NumberText}
    (hnumber : number? chars = some number) : lexeme chars = (number.lexeme, number.length) := by
  obtain ⟨d, rest, hdigit, rfl | rfl⟩ := exists_cons_of_number? hnumber
  · exact lexeme_of_number? (ne_of_isDigit hdigit (by decide)) (mark?_of_isDigit hdigit)
      (find?_namedValues_of_isDigit hdigit) hnumber
  · exact lexeme_of_number? (by decide) (by decide) (find?_namedValues_of_sign hdigit) hnumber

/-! ## Words -/

theorem lexeme_null (rest : List Char) :
    lexeme ("null".toList ++ rest) = (.scalar .null, 4) := by
  rfl

theorem lexeme_true (rest : List Char) :
    lexeme ("true".toList ++ rest) = (.scalar (.bool true), 4) := by
  rfl

theorem lexeme_false (rest : List Char) :
    lexeme ("false".toList ++ rest) = (.scalar (.bool false), 5) := by
  rfl

/-! ## Strings -/

/-- A character as it stands in a string. -/
def writtenChar (style : Style) (c : Char) : List Char :=
  match shortEscapeOf? c with
  | some escape => escape
  | none =>
    if c.toNat < 0x20 || (style.ascii && 0x7E < c.toNat) then escapedPoint c.toNat else [c]

theorem writePoint_char (style : Style) (c : Char) :
    writePoint style (.char c) = ofChars (writtenChar style c) := by
  simp only [writePoint, writtenChar]
  cases shortEscapeOf? c with
  | some escape => rfl
  | none =>
      simp only [apply_ite ofChars]
      rfl

/-- The inside of a string and its closing quote. -/
theorem writeString_ofChars (style : Style) (chars : List Char) :
    writeString style (ofChars chars) =
      ofChars ('"' :: (chars.flatMap (writtenChar style) ++ ['"'])) := by
  have hpoints : (ofChars chars).flatMap (writePoint style) =
      ofChars (chars.flatMap (writtenChar style)) := by
    induction chars with
    | nil => rfl
    | cons c rest ih =>
        rw [ofChars_cons, List.flatMap_cons, List.flatMap_cons, ofChars_append, ih,
          writePoint_char]
  rw [writeString, hpoints, ofChars_cons, ofChars_append]
  rfl

/-- A character as it stands in a string that is written compactly. -/
def compactChar (c : Char) : List Char :=
  match shortEscapeOf? c with
  | some escape => escape
  | none => if c.toNat < 0x20 then escapedUnit c.toNat else [c]

theorem writtenChar_compact (c : Char) : writtenChar .compact c = compactChar c := by
  simp only [writtenChar, compactChar, Style.compact, Bool.false_and, Bool.or_false,
    decide_eq_true_eq]
  cases shortEscapeOf? c with
  | some escape => rfl
  | none =>
      by_cases hcontrol : c.toNat < 0x20
      · have hbasic : c.toNat < 0x10000 := by omega
        simp [hcontrol, escapedPoint, hbasic]
      · simp [hcontrol]

theorem writePoint_compact (c : Char) :
    writePoint .compact (.char c) = ofChars (compactChar c) := by
  rw [writePoint_char, writtenChar_compact]

/-! ### Escapes -/

theorem hexDigit?_digitChar {n : Nat} (hn : n < 16) : hexDigit? n.digitChar = some n := by
  have hall : ∀ n < 16, hexDigit? n.digitChar = some n := by decide
  exact hall n hn

theorem unit?_digitChar {n : Nat} (hn : n < 0x10000) :
    unit? (n / 4096 % 16).digitChar (n / 256 % 16).digitChar (n / 16 % 16).digitChar
      (n % 16).digitChar = some n := by
  have hdigit : ∀ m, hexDigit? (m % 16).digitChar = some (m % 16) := fun m =>
    hexDigit?_digitChar (Nat.mod_lt m (by decide))
  simp only [unit?, hdigit, Option.bind_eq_bind, Option.bind_some, Option.pure_def]
  congr 1
  omega

theorem stringTail_escapedUnit (read : Text) (offset : Nat) {unit : Nat} (hunit : unit < 0x10000)
    {rest : List Char} (hrest : rest ≠ []) :
    stringTail read offset (escapedUnit unit ++ rest) =
      stringTail (CodePoint.ofUnit unit :: read) (offset + (escapedUnit unit).length) rest := by
  cases rest with
  | nil => contradiction
  | cons next rest =>
      simp only [escapedUnit, hex4, List.map_cons, List.map_nil, List.cons_append,
        List.nil_append]
      rw [stringTail, unit?_digitChar hunit]
      rfl

/-- The points that are read from the text of a character, and that are put together to this
character. -/
structure ReadsChar (written : List Char) (points : Text) (c : Char) : Prop where
  join : ∀ rest, joinSurrogates (points ++ rest) = .char c :: joinSurrogates rest
  tail : ∀ read offset rest, rest ≠ [] → stringTail read offset (written ++ rest) =
    stringTail (points.reverse ++ read) (offset + written.length) rest

theorem joinSurrogates_char (c : Char) (rest : Text) :
    joinSurrogates (.char c :: rest) = .char c :: joinSurrogates rest := by
  rw [joinSurrogates]
  simp

theorem readsChar_shortEscape {c : Char} {escape : List Char}
    (hshort : shortEscapeOf? c = some escape) : ReadsChar escape [.char c] c where
  join := joinSurrogates_char c
  tail := by
    intro read offset rest hrest
    rw [shortEscapeOf?.eq_def] at hshort
    split at hshort
    case h_8 => contradiction
    all_goals
      obtain rfl := Option.some.inj hshort
      simp [stringTail, shortEscape?]

/-- A character that is no half of a surrogate pair is read from its own number. -/
theorem readsChar_escapedUnit {c : Char} (hbasic : c.toNat < 0x10000) :
    ReadsChar (escapedUnit c.toNat) [.char c] c where
  join := joinSurrogates_char c
  tail := by
    intro read offset rest hrest
    have hunit : CodePoint.ofUnit c.toNat = .char c := by
      have hrange : ¬ (0xD800 ≤ c.toNat ∧ c.toNat < 0xE000) := by
        rcases c.valid with hlow | hhigh
        · exact fun hrange => absurd hrange.1 (Nat.not_le.mpr hlow)
        · exact fun hrange => absurd hrange.2 (Nat.not_lt.mpr hhigh.1)
      rw [CodePoint.ofUnit, dif_neg hrange, Char.ofNat_toNat]
    rw [stringTail_escapedUnit read offset hbasic hrest, hunit]
    rfl

theorem ofUnit_half {n : Nat} (hn : n < 2048) :
    CodePoint.ofUnit (0xD800 + n) = .half ⟨n, hn⟩ := by
  rw [CodePoint.ofUnit, dif_pos (by omega)]
  simp

/-- Any other character is read from the two halves that its number is split into. -/
theorem exists_readsChar_pair {c : Char} (hpair : 0x10000 ≤ c.toNat) :
    ∃ points, ReadsChar (escapedUnit (0xD800 + (c.toNat - 0x10000) / 0x400) ++
      escapedUnit (0xDC00 + (c.toNat - 0x10000) % 0x400)) points c := by
  have hbound : c.toNat < 0x110000 := by
    rcases c.valid with hlow | hhigh
    · exact Nat.lt_trans hlow (by decide)
    · exact hhigh.2
  have hopening : (c.toNat - 0x10000) / 0x400 < 0x400 := by omega
  have hhalf : (c.toNat - 0x10000) / 0x400 < 0x800 := by omega
  have hclosing : 0x400 + (c.toNat - 0x10000) % 0x400 < 0x800 := by omega
  have hrest : 0xDC00 + (c.toNat - 0x10000) % 0x400 =
      0xD800 + (0x400 + (c.toNat - 0x10000) % 0x400) := by omega
  refine ⟨[.half ⟨_, hhalf⟩, .half ⟨_, hclosing⟩],
    fun rest => ?_, fun read offset rest hne => ?_⟩
  · have hjoined : 0x10000 + (c.toNat - 0x10000) / 0x400 * 1024 +
        (0x400 + (c.toNat - 0x10000) % 0x400 - 1024) = c.toNat := by omega
    simp only [List.cons_append, List.nil_append]
    rw [joinSurrogates, if_pos ⟨by simpa using hopening, by simp⟩, CodePoint.joined, hjoined,
      Char.ofNat_toNat]
  · rw [List.append_assoc, stringTail_escapedUnit read offset (by omega) (by simp [escapedUnit]),
      hrest, stringTail_escapedUnit _ _ (by omega) hne, ofUnit_half hhalf, ofUnit_half hclosing,
      List.length_append, Nat.add_assoc]
    rfl

theorem exists_readsChar (style : Style) (c : Char) :
    ∃ points, ReadsChar (writtenChar style c) points c := by
  rw [writtenChar]
  cases hshort : shortEscapeOf? c with
  | some escape => exact ⟨_, readsChar_shortEscape hshort⟩
  | none =>
      simp only
      split
      next hescaped =>
        rw [escapedPoint]
        split
        next hbasic => exact ⟨_, readsChar_escapedUnit hbasic⟩
        next hpair => exact exists_readsChar_pair (Nat.not_lt.mp hpair)
      next hprintable =>
        refine ⟨[.char c], joinSurrogates_char c, fun read offset rest hrest => ?_⟩
        have hquote : c ≠ '"' := by
          rintro rfl
          contradiction
        have hescape : c ≠ '\\' := by
          rintro rfl
          contradiction
        have hcontrol : ¬ c.toNat < 0x20 := fun hcontrol => hprintable (by simp [hcontrol])
        rw [List.singleton_append, stringTail, if_neg hcontrol]
        · rfl
        · exact hquote
        all_goals simp [hescape]

/-- The points that are read from the inside of a string are put together to the string. -/
theorem exists_stringTail (style : Style) (chars : List Char) :
    ∃ points, joinSurrogates points = ofChars chars ∧ ∀ read offset rest,
      stringTail read offset (chars.flatMap (writtenChar style) ++ '"' :: rest) =
        .ok (joinSurrogates (read.reverse ++ points),
          offset + (chars.flatMap (writtenChar style)).length + 1) := by
  induction chars with
  | nil => exact ⟨[], rfl, fun read offset rest => by simp [stringTail]⟩
  | cons c chars ih =>
      obtain ⟨points, hjoin, htail⟩ := ih
      obtain ⟨first, hfirst⟩ := exists_readsChar style c
      refine ⟨first ++ points, by rw [hfirst.join, hjoin, ofChars_cons], ?_⟩
      intro read offset rest
      rw [List.flatMap_cons, List.append_assoc, hfirst.tail _ _ _ (by simp), htail,
        List.length_append, List.reverse_append, List.reverse_reverse, List.append_assoc,
        Nat.add_assoc offset]

theorem lexeme_string (style : Style) (chars rest : List Char) :
    lexeme ('"' :: (chars.flatMap (writtenChar style) ++ '"' :: rest)) =
      (.string (ofChars chars), (chars.flatMap (writtenChar style)).length + 2) := by
  obtain ⟨points, hjoin, htail⟩ := exists_stringTail style chars
  rw [lexeme, htail, List.reverse_nil, List.nil_append, hjoin]
  simp only [Prod.mk.injEq, true_and]
  omega

end Json

end ContractAtlas
