import ContractAtlas.Proofs.Json.Lexeme
import Mathlib.Data.List.Forall2

/-!
# How a string is spelled

The inside of a string is a row of pieces, one for each of its characters: the character
itself, a backslash with a letter, or a backslash with the number of the character.  Two
numbers may stand for one character together.

The compact text of a string spells most characters in the same way as the string that
was read: it differs only where a number was written, or a solidus behind a backslash.
Hence a word without quotes, backslashes and solidi that occurs in the compact text also
occurs in the text that was read, unless one of its characters was written as a number
there (`infix_of_infix_writeString`).  The letter of a short escape may be the beginning of
such a word, so that a tab that was written as a number can lead to a word beginning
with `t`.
-/

namespace ContractAtlas.Json

open Text

/-! ## Characters that are written as numbers -/

/-- The character whose number stands behind a backslash, if this is one. -/
def numbered? : List Char → Option Char
  | 'u' :: a :: b :: c :: d :: _ =>
    match (unit? a b c d).map CodePoint.ofUnit with
    | some (.char value) => some value
    | _ => none
  | _ => none

/-- The characters that a text writes as numbers.  A backslash behind a backslash that
starts an escape starts none itself. -/
def numberedChars (escaped : Bool) : List Char → List Char
  | [] => []
  | c :: rest =>
    if c = '\\' then
      if escaped then numberedChars false rest
      else (numbered? rest).toList ++ numberedChars true rest
    else numberedChars false rest

/-- A text writes a character as a number. -/
def Numbers (chars : List Char) (c : Char) : Prop :=
  c ∈ numberedChars false chars

instance (chars : List Char) (c : Char) : Decidable (Numbers chars c) :=
  inferInstanceAs (Decidable (c ∈ numberedChars false chars))

theorem numberedChars_cons {c : Char} (hc : c ≠ '\\') (escaped : Bool) (rest : List Char) :
    numberedChars escaped (c :: rest) = numberedChars false rest := by
  rw [numberedChars, if_neg hc]

theorem numbers_of_escape {c d : Char} {rest : List Char} (hrest : Numbers rest c) :
    Numbers ('\\' :: d :: rest) c := by
  rw [Numbers, numberedChars]
  apply List.mem_append_right
  by_cases hd : d = '\\'
  · rw [hd]
    exact hrest
  · rwa [numberedChars_cons hd]

/-- Behind a character that is no backslash nothing depends on what was before. -/
theorem numbers_of_append {c d : Char} (hd : d ≠ '\\') {rest : List Char}
    (hrest : Numbers rest c) (before : List Char) : Numbers (before ++ d :: rest) c := by
  suffices hany : ∀ escaped, c ∈ numberedChars escaped (before ++ d :: rest) from hany false
  induction before with
  | nil =>
      intro escaped
      rwa [List.nil_append, numberedChars_cons hd]
  | cons other before ih =>
      intro escaped
      rw [List.cons_append, numberedChars]
      split
      · split
        · exact ih false
        · exact List.mem_append_right _ (ih true)
      · exact ih false

theorem ne_backslash_of_hexDigit? {c : Char} {value : Nat} (hvalue : hexDigit? c = some value) :
    c ≠ '\\' := by
  rintro rfl
  contradiction

theorem hexDigits_of_unit? {a b c d : Char} {unit : Nat} (hunit : unit? a b c d = some unit) :
    ∀ digit ∈ [a, b, c, d], digit ≠ '\\' := by
  simp only [unit?, Option.pure_def, Option.bind_eq_bind, Option.bind_eq_some_iff] at hunit
  obtain ⟨_, ha, _, hb, _, hc, _, hd, -⟩ := hunit
  intro digit hdigit
  simp only [List.mem_cons, List.not_mem_nil, or_false] at hdigit
  rcases hdigit with rfl | rfl | rfl | rfl
  · exact ne_backslash_of_hexDigit? ha
  · exact ne_backslash_of_hexDigit? hb
  · exact ne_backslash_of_hexDigit? hc
  · exact ne_backslash_of_hexDigit? hd

section Unit

variable {a b c d : Char} {unit : Nat} {rest : List Char}

theorem numbers_unit (hunit : unit? a b c d = some unit) {value : Char}
    (hvalue : CodePoint.ofUnit unit = .char value) :
    Numbers ('\\' :: 'u' :: a :: b :: c :: d :: rest) value := by
  have hnumbered : numbered? ('u' :: a :: b :: c :: d :: rest) = some value := by
    simp [numbered?, hunit, hvalue]
  rw [Numbers, numberedChars, hnumbered]
  exact List.mem_append_left _ (by simp)

theorem numbers_of_unit (hunit : unit? a b c d = some unit) {value : Char}
    (hrest : Numbers rest value) : Numbers ('\\' :: 'u' :: a :: b :: c :: d :: rest) value := by
  apply numbers_of_escape
  have hdigits := hexDigits_of_unit? hunit
  simp only [List.forall_mem_cons] at hdigits
  obtain ⟨ha, hb, hc, hd, -⟩ := hdigits
  rwa [Numbers, numberedChars_cons ha, numberedChars_cons hb, numberedChars_cons hc,
    numberedChars_cons hd]

end Unit

/-! ## The pieces of a string -/

/-- What stands for a code point inside a string.  Nothing is said about how a half of a
surrogate pair is written; all other numbers stand for characters of the given kind. -/
inductive Spelling (numbered : Char → Prop) : List Char → CodePoint → Prop
  | plain {c : Char} (hquote : c ≠ '"') (hescape : c ≠ '\\') (hprintable : ¬ c.toNat < 0x20) :
      Spelling numbered [c] (.char c)
  | short {c char : Char} (hshort : shortEscape? c = some char) :
      Spelling numbered ['\\', c] (.char char)
  | number {piece : List Char} {c : Char} (hnumbered : numbered c) :
      Spelling numbered piece (.char c)
  | half (piece : List Char) (offset : Fin 2048) : Spelling numbered piece (.half offset)
  | pair (piece : List Char) {opening : Fin 2048} (closing : Fin 2048)
      (hopening : opening.val < 1024) :
      Spelling numbered piece (.char (CodePoint.joined opening closing))

/-- What stands for a text inside a string, followed by the closing quote. -/
inductive Spells (numbered : Char → Prop) : List Char → Text → Prop
  | close (after : List Char) : Spells numbered ('"' :: after) []
  | cons {piece chars : List Char} {point : CodePoint} {text : Text}
      (hpoint : Spelling numbered piece point) (htext : Spells numbered chars text) :
      Spells numbered (piece ++ chars) (point :: text)

variable {numbered : Char → Prop}

theorem Spelling.ofUnit (unit : Nat) (piece : List Char)
    (hnumbered : ∀ c, CodePoint.ofUnit unit = .char c → numbered c) :
    Spelling numbered piece (CodePoint.ofUnit unit) := by
  cases hpoint : CodePoint.ofUnit unit with
  | char c => exact .number (hnumbered c hpoint)
  | half offset => exact .half piece offset

/-- A string that is read to its end is a row of pieces. -/
theorem exists_spells_of_stringTail {read : Text} {offset : Nat} {chars : List Char} {text : Text}
    {length : Nat} (hread : stringTail read offset chars = .ok (text, length))
    (hnumbered : ∀ c, Numbers chars c → numbered c) :
    ∃ points, Spells numbered chars points ∧ text = joinSurrogates (read.reverse ++ points) := by
  induction read, offset, chars using stringTail.induct with
  | case2 read offset after =>
      rw [stringTail] at hread
      injection hread with hread
      injection hread with htext
      exact ⟨[], .close after, by rw [List.append_nil, htext]⟩
  | case3 read offset a b c d next rest unit hunit ih =>
      rw [stringTail, hunit] at hread
      obtain ⟨points, hspells, rfl⟩ := ih hread fun value hvalue =>
        hnumbered value (numbers_of_unit hunit hvalue)
      refine ⟨_, .cons (.ofUnit unit ['\\', 'u', a, b, c, d] ?_) hspells, by simp⟩
      exact fun value hvalue => hnumbered value (numbers_unit hunit hvalue)
  | case6 read offset c rest hunit hletter char hshort ih =>
      rw [stringTail, hshort] at hread
      · obtain ⟨points, hspells, rfl⟩ := ih hread fun value hvalue =>
          hnumbered value (numbers_of_escape hvalue)
        exact ⟨_, .cons (.short hshort) hspells, by simp⟩
      all_goals assumption
  | case10 read offset c rest hquote hunit hnumber hescape hend hprintable ih =>
      have hbackslash : c ≠ '\\' := by
        rintro rfl
        cases rest with
        | nil => exact hend rfl rfl
        | cons other rest => exact hescape other rest rfl rfl
      rw [stringTail, if_neg hprintable] at hread
      · obtain ⟨points, hspells, rfl⟩ := ih hread fun value hvalue =>
          hnumbered value (numbers_of_append hbackslash hvalue [])
        exact ⟨_, .cons (.plain hquote hbackslash hprintable) hspells, by simp⟩
      all_goals assumption
  | case1 | case4 | case5 | case7 | case8 | case9 =>
      rw [stringTail] at hread <;> simp_all

theorem toNat_joined {opening : Fin 2048} (hopening : opening.val < 1024) (closing : Fin 2048) :
    0x10000 ≤ (CodePoint.joined opening closing).toNat := by
  have hvalid : (0x10000 + opening.val * 1024 + (closing.val - 1024)).isValidChar := by
    right
    omega
  rw [CodePoint.joined, Char.ofNat, dif_pos hvalid]
  change 0x10000 ≤ 0x10000 + opening.val * 1024 + (closing.val - 1024)
  omega

theorem Spells.joinSurrogates {chars : List Char} {points : Text}
    (hspells : Spells numbered chars points) : Spells numbered chars (joinSurrogates points) := by
  induction points using Text.joinSurrogates.induct generalizing chars with
  | case1 opening closing points hpair ih =>
      obtain _ | @⟨first, _, _, _, _, hspells⟩ := hspells
      obtain _ | @⟨second, _, _, _, _, hspells⟩ := hspells
      rw [Text.joinSurrogates, if_pos hpair, ← List.append_assoc]
      exact .cons (.pair _ closing hpair.1) (ih hspells)
  | case2 opening closing points hpair ih =>
      obtain _ | ⟨hpoint, hspells⟩ := hspells
      rw [Text.joinSurrogates, if_neg hpair]
      exact .cons hpoint (ih hspells)
  | case3 point points hpair ih =>
      obtain _ | ⟨hpoint, hspells⟩ := hspells
      rw [Text.joinSurrogates]
      · exact .cons hpoint (ih hspells)
      · exact hpair
  | case4 => exact hspells

/-- A string is read from its spelling, at any place of a text. -/
theorem spells_of_stringTail {before rest : List Char} {offset : Nat} {text : Text} {length : Nat}
    (hread : stringTail [] offset rest = .ok (text, length)) :
    Spells (Numbers (before ++ '"' :: rest)) rest text := by
  have hquote : '"' ≠ '\\' := by decide
  obtain ⟨points, hspells, rfl⟩ := exists_spells_of_stringTail hread
    fun c hc => numbers_of_append hquote hc before
  exact hspells.joinSurrogates

/-! ## Compact text -/

/-- Compact text spells a character as it is, or behind a backslash. -/
theorem compactChar_eq (c : Char) :
    compactChar c = [c] ∨ ∃ more, compactChar c = '\\' :: more := by
  rw [compactChar]
  cases hshort : shortEscapeOf? c with
  | none =>
      by_cases hcontrol : c.toNat < 0x20
      · exact .inr ⟨'u' :: hex4 c.toNat, if_pos hcontrol⟩
      · exact .inl (if_neg hcontrol)
  | some escape =>
      rw [shortEscapeOf?.eq_def] at hshort
      split at hshort
      case h_8 => contradiction
      all_goals exact .inr ⟨_, (Option.some.inj hshort).symm⟩

/-- The characters of an escape by number. -/
def unitChars : List Char :=
  "\\u0123456789abcdef".toList

theorem escapedUnit_subset (unit : Nat) : escapedUnit unit ⊆ unitChars := by
  have hdigit : ∀ n < 16, n.digitChar ∈ unitChars := by decide
  have hdigits : ∀ n, (n % 16).digitChar ∈ unitChars := fun n =>
    hdigit (n % 16) (Nat.mod_lt n (by decide))
  have hescape : '\\' ∈ unitChars ∧ 'u' ∈ unitChars := by decide
  simp [escapedUnit, hex4, hdigits, hescape]

/-- The characters of all escapes in compact text. -/
def escapeChars : List Char :=
  unitChars ++ "\"nrt".toList

/-- Compact text adds nothing but the characters of escapes. -/
theorem eq_or_mem_escapeChars {c char : Char} (hc : c ∈ compactChar char) :
    c = char ∨ c ∈ escapeChars := by
  rw [compactChar] at hc
  cases hshort : shortEscapeOf? char with
  | none =>
      rw [hshort] at hc
      simp only at hc
      split at hc
      · exact .inr (List.mem_append_left _ (escapedUnit_subset _ hc))
      · exact .inl (List.mem_singleton.mp hc)
  | some escape =>
      have hsubset : escape ⊆ escapeChars := by
        rw [shortEscapeOf?.eq_def] at hshort
        split at hshort
        case h_8 => contradiction
        all_goals
          obtain rfl := Option.some.inj hshort
          decide
      rw [hshort] at hc
      exact .inr (hsubset hc)

theorem compactChar_of_printable {c : Char} (hquote : c ≠ '"') (hescape : c ≠ '\\')
    (hprintable : ¬ c.toNat < 0x20) : compactChar c = [c] := by
  have hshort : shortEscapeOf? c = none := by
    rw [shortEscapeOf?.eq_def]
    split
    case h_8 => rfl
    all_goals contradiction
  rw [compactChar, hshort]
  exact if_neg hprintable

/-- Compact text keeps every short escape but that of the solidus. -/
theorem compactChar_of_shortEscape? {c char : Char} (hshort : shortEscape? c = some char) :
    char = '/' ∨ compactChar char = ['\\', c] := by
  rw [shortEscape?.eq_def] at hshort
  split at hshort
  case h_9 => contradiction
  all_goals
    obtain rfl := Option.some.inj hshort
    first | exact .inl rfl | exact .inr rfl

theorem writePoint_half (offset : Fin 2048) :
    writePoint .compact (.half offset) = [.half offset] := rfl

theorem writePoint_compact_ne_nil (point : CodePoint) : writePoint .compact point ≠ [] := by
  cases point with
  | char c =>
      rw [writePoint_compact]
      rcases compactChar_eq c with hcompact | ⟨tail, hcompact⟩ <;> rw [hcompact] <;> simp
  | half offset => simp [writePoint_half]

/-- A word of characters that are never escaped, within the first plane. -/
def IsBareWord (word : List Char) : Prop :=
  ∀ c ∈ word, c ≠ '"' ∧ c ≠ '\\' ∧ c ≠ '/' ∧ c.toNat < 0x10000

/-- Where the compact text of a character starts with a letter of a word, this letter was
read. -/
theorem Spelling.eq_of_writePoint_eq_cons {piece : List Char} {point : CodePoint} {c : Char}
    {more : Text} (hpoint : Spelling numbered piece point) (hc : IsBareWord [c])
    (hnumbered : ¬ numbered c) (hwrite : writePoint .compact point = .char c :: more) :
    piece = [c] ∧ more = [] := by
  obtain ⟨hquote, hescape, hsolidus, hplane⟩ := hc c (by simp)
  have hself : ∀ {char}, point = .char char → char = c ∧ more = [] := by
    rintro char rfl
    rw [writePoint_compact] at hwrite
    rcases compactChar_eq char with hcompact | ⟨tail, hcompact⟩
    · simpa [hcompact, eq_comm] using hwrite
    · rw [hcompact, ofChars_cons] at hwrite
      injection hwrite with hhead
      injection hhead with hhead
      exact absurd hhead.symm hescape
  cases hpoint with
  | plain =>
      obtain ⟨rfl, rfl⟩ := hself rfl
      exact ⟨rfl, rfl⟩
  | short hshort =>
      obtain ⟨rfl, rfl⟩ := hself rfl
      rcases compactChar_of_shortEscape? hshort with hchar | hcompact
      · exact absurd hchar hsolidus
      · rw [writePoint_compact, hcompact, ofChars_cons] at hwrite
        injection hwrite with hhead
        injection hhead with hhead
        exact absurd hhead.symm hescape
  | number hchar =>
      obtain ⟨rfl, rfl⟩ := hself rfl
      exact absurd hchar hnumbered
  | half => simp [writePoint_half] at hwrite
  | pair _ closing hopening =>
      obtain ⟨rfl, rfl⟩ := hself rfl
      have hfar := toNat_joined hopening closing
      omega

/-- A word at the start of compact text is at the start of what was read. -/
theorem Spells.prefix_of_prefix {chars word : List Char} {text : Text}
    (hspells : Spells numbered chars text) (hbare : IsBareWord word)
    (hnumbered : ∀ c ∈ word, ¬ numbered c)
    (hword : ofChars word <+: text.flatMap (writePoint .compact)) : word <+: chars := by
  induction hspells generalizing word with
  | close after =>
      cases word with
      | nil => exact List.nil_prefix
      | cons c word => simp at hword
  | @cons piece chars point text hpoint hspells ih =>
      cases word with
      | nil => exact List.nil_prefix
      | cons c word =>
          obtain ⟨hc, hrest⟩ := List.forall_mem_cons.mp hbare
          obtain ⟨hunnumbered, hrestNumbered⟩ := List.forall_mem_cons.mp hnumbered
          rw [ofChars_cons, List.flatMap_cons] at hword
          cases hwrite : writePoint .compact point with
          | nil => exact absurd hwrite (writePoint_compact_ne_nil point)
          | cons first more =>
              rw [hwrite, List.cons_append, List.cons_prefix_cons] at hword
              obtain ⟨rfl, hword⟩ := hword
              obtain ⟨rfl, rfl⟩ :=
                hpoint.eq_of_writePoint_eq_cons (by simpa [IsBareWord] using hc) hunnumbered hwrite
              exact List.cons_prefix_cons.mpr ⟨rfl, ih hrest hrestNumbered hword⟩

/-- A character inside the compact text of a point was read as it is, or behind a
backslash. -/
theorem Spelling.eq_of_mem_writePoint {piece : List Char} {point : CodePoint} {c : Char}
    (hpoint : Spelling numbered piece point) (hc : IsBareWord [c])
    (hnumbered : ∀ char, numbered char → c ∉ compactChar char)
    (hmem : .char c ∈ writePoint .compact point) :
    writePoint .compact point = [.char c] ∨
      piece = ['\\', c] ∧ writePoint .compact point = ofChars ['\\', c] := by
  obtain ⟨hquote, hescape, hsolidus, hplane⟩ := hc c (by simp)
  have hread : ∀ {char}, point = .char char → c ∈ compactChar char := by
    rintro char rfl
    rw [writePoint_compact] at hmem
    simpa [ofChars] using hmem
  have hsingle : ∀ {char}, point = .char char → compactChar char = [char] →
      writePoint .compact point = [.char c] := by
    rintro char rfl hcompact
    have hchar := hread rfl
    rw [hcompact, List.mem_singleton] at hchar
    rw [writePoint_compact, hcompact, hchar]
    rfl
  cases hpoint with
  | plain hquote hescape hprintable =>
      exact .inl (hsingle rfl (compactChar_of_printable hquote hescape hprintable))
  | @short letter char hshort =>
      rcases compactChar_of_shortEscape? hshort with rfl | hcompact
      · exact .inl (hsingle rfl rfl)
      · have hletter := hread rfl
        rw [hcompact] at hletter
        obtain rfl : c = letter := by simpa [hescape] using hletter
        exact .inr ⟨rfl, by rw [writePoint_compact, hcompact]⟩
  | number hchar => exact absurd (hread rfl) (hnumbered _ hchar)
  | half => simp [writePoint_half] at hmem
  | pair _ closing hopening =>
      have hfar := toNat_joined hopening closing
      refine .inl (hsingle rfl (compactChar_of_printable ?_ ?_ (by omega)))
      · intro heq
        rw [heq] at hfar
        exact absurd hfar (by decide)
      · intro heq
        rw [heq] at hfar
        exact absurd hfar (by decide)

/-- A part of two lists together is a part of the second, or it starts within the first. -/
theorem infix_append_cases {α : Type} {part left right : List α} (hpart : part <:+: left ++ right) :
    part <:+: right ∨ ∃ tail, tail ≠ [] ∧ tail <:+ left ∧ part <+: tail ++ right := by
  induction left with
  | nil => exact .inl hpart
  | cons a left ih =>
      rw [List.cons_append, List.infix_cons_iff] at hpart
      rcases hpart with hpart | hpart
      · exact .inr ⟨a :: left, List.cons_ne_nil _ _, List.suffix_rfl, hpart⟩
      · exact (ih hpart).imp_right fun ⟨tail, hne, htail, hpart⟩ =>
          ⟨tail, hne, htail.trans (List.suffix_cons a left), hpart⟩

/-- A word in compact text is in what was read. -/
theorem Spells.infix_of_infix {chars word : List Char} {text : Text}
    (hspells : Spells numbered chars text) (hbare : IsBareWord word)
    (hnumbered : ∀ c ∈ word, ¬ numbered c)
    (hfirst : ∀ c ∈ word.head?, ∀ char, numbered char → c ∉ compactChar char)
    (hword : ofChars word <:+: text.flatMap (writePoint .compact)) : word <:+: chars := by
  cases word with
  | nil => exact List.nil_infix
  | cons c word =>
      obtain ⟨hc, hrest⟩ := List.forall_mem_cons.mp hbare
      have hnumberedRest := (List.forall_mem_cons.mp hnumbered).2
      induction hspells with
      | close after => simp at hword
      | @cons piece chars point text hpoint hspells ih =>
          rw [List.flatMap_cons] at hword
          rcases infix_append_cases hword with hword | ⟨tail, hne, htail, hword⟩
          · exact (ih hword).trans (List.suffix_append piece chars).isInfix
          obtain ⟨first, tail, rfl⟩ := List.exists_cons_of_ne_nil hne
          rw [ofChars_cons, List.cons_append, List.cons_prefix_cons] at hword
          obtain ⟨rfl, hword⟩ := hword
          have hmem := htail.subset List.mem_cons_self
          rcases hpoint.eq_of_mem_writePoint (by simpa [IsBareWord] using hc) (hfirst c rfl) hmem
            with hwrite | ⟨rfl, hwrite⟩
          · have hwhole : ofChars (c :: word) <+:
                (point :: text).flatMap (writePoint .compact) := by
              rw [hwrite] at htail
              obtain rfl : tail = [] := by simpa using htail.length_le
              rw [List.flatMap_cons, hwrite]
              exact List.cons_prefix_cons.mpr ⟨rfl, hword⟩
            exact (Spells.prefix_of_prefix (.cons hpoint hspells) hbare hnumbered hwhole).isInfix
          · have hbehind : tail = [] := by
              have hescape : c ≠ '\\' := hc.2.1
              simpa [hwrite, List.suffix_cons_iff, hescape] using htail
            rw [hbehind, List.nil_append] at hword
            have hprefix := hspells.prefix_of_prefix hrest hnumberedRest hword
            exact (List.cons_prefix_cons.mpr ⟨rfl, hprefix⟩).isInfix.trans
              (List.suffix_cons '\\' _).isInfix

end ContractAtlas.Json
