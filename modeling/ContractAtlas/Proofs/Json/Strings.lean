import ContractAtlas.Proofs.Json.Collecting
import ContractAtlas.Proofs.Json.Setting
import ContractAtlas.Proofs.Json.Spelling

/-!
# Strings inside values

Whatever is read from a text, its strings and the keys of its objects stand in the text
(`allStrings_of_read`).

In the other direction a word that is no part of a number or of `null`, `true` and
`false` and holds no punctuation occurs in a written value only inside a string or a key.
-/

namespace ContractAtlas.Json

open Text

/-- Every string of a value satisfies a condition, and so does every key. -/
inductive AllStrings (holds : Text → Prop) : Json → Prop
  | null : AllStrings holds .null
  | bool (value : Bool) : AllStrings holds (.bool value)
  | int (value : Int) : AllStrings holds (.int value)
  | float (value : Binary64) : AllStrings holds (.float value)
  | str {text : Text} (htext : holds text) : AllStrings holds (.str text)
  | arr {items : List Json} (hitems : ∀ item ∈ items, AllStrings holds item) :
      AllStrings holds (.arr items)
  | obj {fields : List (Text × Json)} (hkeys : ∀ field ∈ fields, holds field.1)
      (hvalues : ∀ field ∈ fields, AllStrings holds field.2) : AllStrings holds (.obj fields)

/-- Induction over values: what holds for an array or an object if it holds for all parts of
it, and for every other value, holds for all values. -/
@[elab_as_elim]
theorem partInduction {motive : Json → Prop} (null : motive .null)
    (bool : ∀ value, motive (.bool value)) (int : ∀ value, motive (.int value))
    (float : ∀ value, motive (.float value)) (str : ∀ text, motive (.str text))
    (arr : ∀ items, (∀ item ∈ items, motive item) → motive (.arr items))
    (obj : ∀ fields, (∀ field ∈ fields, motive field.2) → motive (.obj fields)) :
    ∀ value, motive value
  | .null => null
  | .bool value => bool value
  | .int value => int value
  | .float value => float value
  | .str text => str text
  | .arr items => arr items fun item _ => partInduction null bool int float str arr obj item
  | .obj fields => obj fields fun field hfield =>
      have : sizeOf field.2 < 1 + sizeOf fields := by
        have := List.sizeOf_lt_of_mem hfield
        obtain ⟨key, value⟩ := field
        simp only [Prod.mk.sizeOf_spec] at *
        omega
      partInduction null bool int float str arr obj field.2

variable {holds : Text → Prop}

theorem AllStrings.of_mem {items : List Json} (harr : AllStrings holds (.arr items)) {item : Json}
    (hitem : item ∈ items) : AllStrings holds item := by
  cases harr with
  | arr hitems => exact hitems item hitem

theorem AllStrings.field? {value : Json} (hvalue : AllStrings holds value) {name : String}
    {found : Json} (hfound : value.field? name = some found) : AllStrings holds found := by
  cases hvalue with
  | obj hkeys hvalues =>
      obtain ⟨field, hfield, rfl⟩ := Option.map_eq_some_iff.mp hfound
      exact hvalues field (List.mem_of_find?_eq_some hfield)
  | _ => contradiction

theorem AllStrings.mono {other : Text → Prop} (hmono : ∀ text, holds text → other text)
    {value : Json} (hvalue : AllStrings holds value) : AllStrings other value := by
  induction hvalue with
  | null => exact .null
  | bool value => exact .bool value
  | int value => exact .int value
  | float value => exact .float value
  | str htext => exact .str (hmono _ htext)
  | arr _ ih => exact .arr ih
  | obj hkeys _ ih => exact .obj (fun field hfield => hmono _ (hkeys field hfield)) ih

/-! ## Reading -/

/-- Of repeated keys only values are lost. -/
theorem allStrings_ofFields {fields : List (Text × Json)}
    (hfields : ∀ field ∈ fields, holds field.1 ∧ AllStrings holds field.2) :
    AllStrings holds (ofFields fields) := by
  have hall : ∀ field ∈ lastSet fields, holds field.1 ∧ AllStrings holds field.2 :=
    fun field hfield => hfields field (mem_of_mem_lastSet hfield)
  rw [ofFields_eq_lastSet]
  exact .obj (fun field hfield => (hall field hfield).1) fun field hfield => (hall field hfield).2

theorem kept_allStrings (holds : Text → Prop) :
    Reading.Kept holds fun _ => AllStrings holds where
  str := .str
  arr _ := .arr
  obj _ := allStrings_ofFields

/-- A string stands inside a text, spelled in one of the ways there are. -/
def WrittenIn (chars : List Char) (text : Text) : Prop :=
  ∃ rest, rest <:+ chars ∧ Spells (Numbers chars) rest text

namespace Reading

theorem lexemeHolds_number (number : NumberText) :
    LexemeHolds holds (fun _ => AllStrings holds) number.lexeme := by
  rw [NumberText.lexeme]
  split
  · split
    · trivial
    · exact fun _ => .int _
  · exact fun _ => .float _

theorem lexemeHolds_lexeme {chars rest : List Char} (hrest : rest <:+ chars) :
    LexemeHolds (WrittenIn chars) (fun _ => AllStrings (WrittenIn chars)) (lexeme rest).1 := by
  have hnamed : ∀ entry ∈ namedValues, AllStrings (WrittenIn chars) entry.2 := by
    simp only [namedValues, List.forall_mem_cons]
    exact ⟨.null, .bool _, .bool _, .float _, .float _, .float _, by simp⟩
  obtain ⟨before, rfl⟩ := hrest
  apply lexemeHolds_of_parts
  · intro entry hentry _
    exact hnamed entry hentry
  · intro number _
    exact lexemeHolds_number number
  · rintro inside text length rfl hread
    exact ⟨inside, (List.suffix_cons _ _).trans (List.suffix_append before _),
      spells_of_stringTail hread⟩

end Reading

/-- The strings and keys of what is read from a text stand in the text. -/
theorem allStrings_of_read {chars : List Char} {value : Json} (hread : read chars = .ok value) :
    AllStrings (WrittenIn chars) value :=
  Reading.holds_of_read (kept_allStrings _) (fun _ => Reading.lexemeHolds_lexeme) hread

/-! ## Writing -/

/-- The characters of numbers and of the words for values. -/
def scalarChars : List Char :=
  "0123456789+-.enultrufasNIity".toList

theorem mem_scalarChars_of_isDigit {c : Char} (hdigit : isDigit c = true) : c ∈ scalarChars := by
  have hall : ∀ n < 58, 48 ≤ n → Char.ofNat n ∈ scalarChars := by decide
  rw [isDigit, Bool.and_eq_true, decide_eq_true_eq, decide_eq_true_eq] at hdigit
  have hc := hall c.toNat (Nat.lt_succ_of_le hdigit.2) hdigit.1
  rwa [Char.ofNat_toNat] at hc

theorem toDigits_subset (n : Nat) : Nat.toDigits 10 n ⊆ scalarChars :=
  fun _ hc => mem_scalarChars_of_isDigit (isDigit_of_mem_toDigits hc)

theorem writeInt_subset (value : Int) : writeInt value ⊆ scalarChars := by
  rw [writeInt]
  split
  · exact List.cons_subset.mpr ⟨by decide, toDigits_subset _⟩
  · exact toDigits_subset _

section Binary64

open Binary64

variable {digits : List Char} (hdigits : digits ⊆ scalarChars) (point : Int)

include hdigits

theorem positionalText_subset : positionalText digits point ⊆ scalarChars := by
  have hzeros : ∀ n, List.replicate n '0' ⊆ scalarChars := fun n =>
    List.replicate_subset.mpr (.inr (by decide))
  have hpoint : ['.'] ⊆ scalarChars := by decide
  have hzero : ['0'] ⊆ scalarChars := by decide
  rw [positionalText]
  split
  · exact List.append_subset.mpr
      ⟨List.append_subset.mpr ⟨by decide, hzeros _⟩, hdigits⟩
  · have htake := List.Subset.trans (List.take_subset point.toNat digits) hdigits
    have hdrop := List.Subset.trans (List.drop_subset point.toNat digits) hdigits
    simp only [List.append_subset]
    refine ⟨⟨⟨htake, hzeros _⟩, hpoint⟩, ?_⟩
    split
    · exact hzero
    · exact hdrop

theorem scientificText_subset : scientificText digits point ⊆ scalarChars := by
  have htake := List.Subset.trans (List.take_subset 1 digits) hdigits
  have hdrop := List.Subset.trans (List.drop_subset 1 digits) hdigits
  have hzeros : ∀ n, List.replicate n '0' ⊆ scalarChars := fun n =>
    List.replicate_subset.mpr (.inr (by decide))
  simp only [scientificText, List.append_subset]
  refine ⟨⟨⟨⟨htake, ?_⟩, ?_⟩, hzeros _⟩, toDigits_subset _⟩
  · split
    · exact List.nil_subset _
    · exact List.cons_subset.mpr ⟨by decide, hdrop⟩
  · split <;> decide

end Binary64

theorem floatText_subset (value : Binary64) : value.text spelling ⊆ scalarChars := by
  have hsign : ∀ negative : Bool, (if negative then ['-'] else []) ⊆ scalarChars := by decide
  cases value with
  | nan => decide
  | infinite negative => exact List.append_subset.mpr ⟨hsign negative, by decide⟩
  | finite negative mantissa exponent =>
      have hdigits : ((Binary64.shortest mantissa exponent).significand).1 ⊆ scalarChars := by
        rw [Binary64.Decimal.significand, List.reverse_subset]
        exact List.Subset.trans (List.dropWhile_subset _)
          (List.reverse_subset.mpr (toDigits_subset _))
      rw [Binary64.text]
      split
      · exact List.append_subset.mpr ⟨hsign negative, by decide⟩
      · refine List.append_subset.mpr ⟨hsign negative, ?_⟩
        split
        · exact positionalText_subset hdigits _
        · exact scientificText_subset hdigits _

/-- A word that occurs in a written value only inside a string. -/
structure IsNameLike (word : List Char) : Prop where
  bare : IsBareWord word
  unmarked : ∀ c ∈ word, mark? c = none
  notScalar : ∃ c ∈ word, c ∉ scalarChars

section Mark

variable {α : Type} {part left right : List α} {mark : α}

theorem prefix_of_prefix_append_cons (hmark : mark ∉ part)
    (hpart : part <+: left ++ mark :: right) : part <+: left := by
  rcases List.prefix_or_prefix_of_prefix hpart (List.prefix_append left (mark :: right)) with
    hleft | ⟨rest, rfl⟩
  · exact hleft
  · rw [List.prefix_append_right_inj] at hpart
    cases rest with
    | nil => simp
    | cons a rest =>
        rw [List.cons_prefix_cons] at hpart
        exact absurd (List.mem_append_right left (hpart.1 ▸ List.mem_cons_self)) hmark

/-- A part that does not hold a mark lies on one side of it. -/
theorem infix_append_cons (hmark : mark ∉ part) (hpart : part <:+: left ++ mark :: right) :
    part <:+: left ∨ part <:+: right := by
  rcases infix_append_cases hpart with hpart | ⟨tail, -, htail, hpart⟩
  · rcases List.infix_cons_iff.mp hpart with hpart | hpart
    · have hnil : part <+: [] ++ mark :: right := hpart
      exact .inl ((prefix_of_prefix_append_cons hmark hnil).isInfix.trans List.nil_infix)
    · exact .inr hpart
  · exact .inl ((prefix_of_prefix_append_cons hmark hpart).isInfix.trans htail.isInfix)

end Mark

/-- A word that cannot stand between strings: it has no quote, and some character of it is
neither a mark nor part of a number or of a word for a value. -/
structure IsLoud (word : List Char) : Prop where
  unquoted : '"' ∉ word
  loud : ∃ c ∈ word, c ∉ scalarChars ∧ mark? c = none

instance (word : List Char) : Decidable (IsLoud word) :=
  decidable_of_iff
    ('"' ∉ word ∧ word.any (fun c => decide (c ∉ scalarChars ∧ mark? c = none)) = true)
    ⟨fun ⟨unquoted, loud⟩ => ⟨unquoted, by simpa using loud⟩,
      fun ⟨unquoted, loud⟩ => ⟨unquoted, by simpa using loud⟩⟩

theorem IsNameLike.isLoud {word : List Char} (hword : IsNameLike word) : IsLoud word where
  unquoted := fun hquote => (hword.bare '"' hquote).1 rfl
  loud := by
    obtain ⟨c, hc, hscalar⟩ := hword.notScalar
    exact ⟨c, hc, hscalar, hword.unmarked c hc⟩

/-- What may stand between strings. -/
def IsQuiet (text : Text) : Prop :=
  ∀ point ∈ text, ∃ c, point = .char c ∧ (c ∈ scalarChars ∨ (mark? c).isSome = true)

theorem isQuiet_nil : IsQuiet [] := by simp [IsQuiet]

theorem IsQuiet.append {left right : Text} (hleft : IsQuiet left) (hright : IsQuiet right) :
    IsQuiet (left ++ right) :=
  List.forall_mem_append.mpr ⟨hleft, hright⟩

theorem isQuiet_scalar {chars : List Char} (hchars : chars ⊆ scalarChars) :
    IsQuiet (ofChars chars) := by
  intro point hpoint
  obtain ⟨c, hc, rfl⟩ := List.mem_map.mp hpoint
  exact ⟨c, rfl, .inl (hchars hc)⟩

theorem isQuiet_mark {c : Char} (hc : (mark? c).isSome = true) : IsQuiet [.char c] := by
  intro point hpoint
  exact ⟨c, List.mem_singleton.mp hpoint, .inr hc⟩

theorem mem_ofChars {c : Char} {chars : List Char} :
    CodePoint.char c ∈ ofChars chars ↔ c ∈ chars := by
  simp [ofChars]

/-- A text between whose quotes a word does not occur in compact text. -/
def Lacks (word : List Char) (text : Text) : Prop :=
  ¬ ofChars word <:+: text.flatMap (writePoint .compact)

instance (word : List Char) (text : Text) : Decidable (Lacks word text) :=
  inferInstanceAs (Decidable (¬ _))

/-- A text that has no part in the occurrences of a word around it, but for what may stand
between strings. -/
def Hides (word : List Char) (text : Text) : Prop :=
  ∀ before after, IsQuiet before → ofChars word <:+: before ++ text ++ after →
    ∃ kept, IsQuiet kept ∧ ofChars word <:+: kept ++ after

theorem IsQuiet.hides {text : Text} (htext : IsQuiet text) (word : List Char) : Hides word text :=
  fun before _ hbefore hinside => ⟨before ++ text, hbefore.append htext, hinside⟩

theorem Hides.append {word : List Char} {left right : Text} (hleft : Hides word left)
    (hright : Hides word right) : Hides word (left ++ right) := by
  intro before after hbefore hinside
  rw [← List.append_assoc, List.append_assoc (before ++ left)] at hinside
  obtain ⟨kept, hkept, hinside⟩ := hleft before (right ++ after) hbefore hinside
  rw [← List.append_assoc] at hinside
  exact hright kept after hkept hinside

theorem Hides.enclosed {word : List Char} {inner : Text} {opening closing : Char}
    (hopening : (mark? opening).isSome = true) (hclosing : (mark? closing).isSome = true)
    (hinner : Hides word inner) : Hides word (.char opening :: inner ++ [.char closing]) :=
  (((isQuiet_mark hopening).hides word).append hinner).append ((isQuiet_mark hclosing).hides word)

/-- A field as it stands among others. -/
def writeField (field : Text × Json) : Text :=
  writeString .compact field.1 ++ ([.char ':'] ++ write .compact field.2)

theorem writeFields_singleton (field : Text × Json) :
    writeFields .compact [field] = writeField field := by
  simp [writeFields, writeField, Style.compact]

theorem writeFields_cons (field next : Text × Json) (rest : List (Text × Json)) :
    writeFields .compact (field :: next :: rest) =
      writeField field ++ ([.char ','] ++ writeFields .compact (next :: rest)) := by
  simp [writeFields, writeField, Style.compact]

theorem writeItems_cons (item next : Json) (rest : List Json) :
    writeItems .compact (item :: next :: rest) =
      write .compact item ++ ([.char ','] ++ writeItems .compact (next :: rest)) := by
  simp [writeItems, Style.compact]

theorem hides_writeItems {word : List Char} : ∀ {items : List Json},
    (∀ item ∈ items, Hides word (write .compact item)) → Hides word (writeItems .compact items)
  | [], _ => isQuiet_nil.hides word
  | [item], hitems => by
      rw [writeItems]
      exact hitems item List.mem_cons_self
  | item :: next :: rest, hitems => by
      rw [writeItems_cons]
      refine (hitems item List.mem_cons_self).append (.append ((isQuiet_mark rfl).hides word) ?_)
      exact hides_writeItems fun other hother => hitems other (List.mem_cons_of_mem _ hother)

theorem hides_writeFields {word : List Char} : ∀ {fields : List (Text × Json)},
    (∀ field ∈ fields, Hides word (writeField field)) → Hides word (writeFields .compact fields)
  | [], _ => isQuiet_nil.hides word
  | [field], hfields => by
      rw [writeFields_singleton]
      exact hfields field List.mem_cons_self
  | field :: next :: rest, hfields => by
      rw [writeFields_cons]
      refine (hfields field List.mem_cons_self).append (.append ((isQuiet_mark rfl).hides word) ?_)
      exact hides_writeFields fun other hother => hfields other (List.mem_cons_of_mem _ hother)

section Write

variable {word : List Char} (hword : IsLoud word)

include hword

theorem IsLoud.not_infix_quiet {text : Text} (htext : IsQuiet text) :
    ¬ ofChars word <:+: text := by
  intro hinside
  obtain ⟨c, hc, hscalar, hmark⟩ := hword.loud
  obtain ⟨other, heq, hother⟩ := htext _ (hinside.subset (mem_ofChars.mpr hc))
  injection heq with heq
  subst heq
  rcases hother with hother | hother
  · exact hscalar hother
  · rw [hmark] at hother
    contradiction

/-- A string hides what does not occur between its quotes. -/
theorem hides_writeString {text : Text} (htext : Lacks word text) :
    Hides word (writeString .compact text) := by
  intro before after hbefore hinside
  have hquote : CodePoint.char '"' ∉ ofChars word := fun hmem =>
    hword.unquoted (mem_ofChars.mp hmem)
  have hsplit : before ++ writeString .compact text ++ after = before ++ .char '"' ::
      (text.flatMap (writePoint .compact) ++ .char '"' :: after) := by
    simp [writeString]
  rw [hsplit] at hinside
  rcases infix_append_cons hquote hinside with houtside | hinside
  · exact absurd houtside (hword.not_infix_quiet hbefore)
  rcases infix_append_cons hquote hinside with hbetween | hafter
  · exact absurd hbetween htext
  · exact ⟨[], isQuiet_nil, hafter⟩

theorem AllStrings.hides {value : Json} (hvalue : AllStrings (Lacks word) value) :
    Hides word (write .compact value) := by
  induction hvalue with
  | null => exact (isQuiet_scalar (by decide)).hides word
  | bool value => cases value <;> exact (isQuiet_scalar (by decide)).hides word
  | int value => exact (isQuiet_scalar (writeInt_subset value)).hides word
  | float value => exact (isQuiet_scalar (floatText_subset value)).hides word
  | str htext => exact hides_writeString hword htext
  | arr _ ih => exact (hides_writeItems ih).enclosed rfl rfl
  | obj hkeys _ ih =>
      refine (hides_writeFields fun field hfield => ?_).enclosed rfl rfl
      exact (hides_writeString hword (hkeys field hfield)).append
        (.append ((isQuiet_mark rfl).hides word) (ih field hfield))

/-- A word in a written value is in one of its strings and keys. -/
theorem AllStrings.not_infix_compact {value : Json} (hvalue : AllStrings (Lacks word) value) :
    ¬ ofChars word <:+: value.compact := by
  intro hinside
  have henclosed : ofChars word <:+: [] ++ write .compact value ++ [] := by
    simpa [compact] using hinside
  obtain ⟨kept, hkept, hinside⟩ := hvalue.hides hword [] [] isQuiet_nil henclosed
  rw [List.append_nil] at hinside
  exact hword.not_infix_quiet hkept hinside

end Write

/-! ## The strings of a written value -/

theorem infix_writeItems {item : Json} : ∀ {items : List Json}, item ∈ items →
    write .compact item <:+: writeItems .compact items
  | [only], hitem => by
      obtain rfl := List.mem_singleton.mp hitem
      rw [writeItems]
  | first :: next :: rest, hitem => by
      rw [writeItems_cons]
      rcases List.mem_cons.mp hitem with rfl | hitem
      · exact (List.prefix_append _ _).isInfix
      · exact (infix_writeItems hitem).trans
          ((List.suffix_append _ _).trans (List.suffix_append _ _)).isInfix

theorem infix_writeFields {field : Text × Json} : ∀ {fields : List (Text × Json)},
    field ∈ fields → writeField field <:+: writeFields .compact fields
  | [only], hfield => by
      obtain rfl := List.mem_singleton.mp hfield
      rw [writeFields_singleton]
  | first :: next :: rest, hfield => by
      rw [writeFields_cons]
      rcases List.mem_cons.mp hfield with rfl | hfield
      · exact (List.prefix_append _ _).isInfix
      · exact (infix_writeFields hfield).trans
          ((List.suffix_append _ _).trans (List.suffix_append _ _)).isInfix

theorem infix_enclosed (opening closing : CodePoint) (inner : Text) :
    inner <:+: opening :: inner ++ [closing] :=
  ⟨[opening], [closing], by simp⟩

theorem allStrings_lacks {word : List Char} (value : Json)
    (hnot : ¬ ofChars word <:+: value.compact) : AllStrings (Lacks word) value := by
  induction value using partInduction with
  | null => exact .null
  | bool value => exact .bool value
  | int value => exact .int value
  | float value => exact .float value
  | str text => exact .str fun hinside => hnot (hinside.trans (infix_enclosed _ _ _))
  | arr items ih =>
      refine .arr fun item hitem => ih item hitem fun hinside => hnot (hinside.trans ?_)
      exact (infix_writeItems hitem).trans (infix_enclosed _ _ _)
  | obj fields ih =>
      have hwritten : ∀ field ∈ fields, writeField field <:+: (Json.obj fields).compact :=
        fun field hfield => (infix_writeFields hfield).trans (infix_enclosed _ _ _)
      refine .obj (fun field hfield hinside => ?_) fun field hfield =>
        ih field hfield fun hinside => ?_
      · have hkey : field.1.flatMap (writePoint .compact) <:+: writeField field :=
          (infix_enclosed _ _ _).trans (List.prefix_append _ _).isInfix
        exact hnot (hinside.trans (hkey.trans (hwritten field hfield)))
      · have hvalue : field.2.compact <:+: writeField field :=
          ((List.suffix_append _ _).trans (List.suffix_append _ _)).isInfix
        exact hnot (hinside.trans (hvalue.trans (hwritten field hfield)))

section Loud

variable {word : List Char} (hword : IsLoud word)

include hword

/-- A word occurs in a written value exactly if it occurs in one of its strings and keys. -/
theorem infix_compact_iff {value : Json} :
    ofChars word <:+: value.compact ↔ ¬ AllStrings (Lacks word) value :=
  ⟨fun hinside hvalue => hvalue.not_infix_compact hword hinside,
    fun hvalue => by_contra fun hnot => hvalue (allStrings_lacks value hnot)⟩

theorem infix_compact_str_iff {text : Text} :
    ofChars word <:+: (Json.str text).compact ↔ ¬ Lacks word text := by
  rw [infix_compact_iff hword, not_iff_not]
  exact ⟨fun | .str htext => htext, .str⟩

theorem not_infix_compact_bool (value : Bool) : ¬ ofChars word <:+: (Json.bool value).compact :=
  (AllStrings.bool value).not_infix_compact hword

theorem infix_compact_arr_iff {items : List Json} : ofChars word <:+: (Json.arr items).compact ↔
    ∃ item ∈ items, ofChars word <:+: item.compact := by
  have harr : AllStrings (Lacks word) (.arr items) ↔
      ∀ item ∈ items, AllStrings (Lacks word) item :=
    ⟨fun hitems item hitem => hitems.of_mem hitem, .arr⟩
  simp only [infix_compact_iff hword, harr, not_forall, exists_prop]

theorem infix_compact_obj_iff {fields : List (Text × Json)} :
    ofChars word <:+: (Json.obj fields).compact ↔
      ∃ field ∈ fields, ¬ Lacks word field.1 ∨ ofChars word <:+: field.2.compact := by
  have hobj : AllStrings (Lacks word) (.obj fields) ↔
      ∀ field ∈ fields, Lacks word field.1 ∧ AllStrings (Lacks word) field.2 := by
    constructor
    · rintro (_ | _ | _ | _ | _ | _ | ⟨hkeys, hvalues⟩) field hfield
      exact ⟨hkeys field hfield, hvalues field hfield⟩
    · intro hfields
      exact .obj (fun field hfield => (hfields field hfield).1)
        fun field hfield => (hfields field hfield).2
  simp only [infix_compact_iff hword, hobj, not_forall, not_and_or, exists_prop]

end Loud

/-- A word in the compact text of what was read from a text is in the text, if none of its
characters is written as a number there. -/
theorem AllStrings.infix_of_infix_compact {word chars : List Char} (hword : IsNameLike word)
    {value : Json} (hvalue : AllStrings (WrittenIn chars) value)
    (hnumbered : ∀ c ∈ word, ¬ Numbers chars c)
    (hfirst : ∀ c ∈ word.head?, ∀ char, Numbers chars char → c ∉ compactChar char)
    (hinside : ofChars word <:+: value.compact) : word <:+: chars := by
  by_contra houtside
  have hlacks : ∀ text, WrittenIn chars text → Lacks word text := by
    rintro text ⟨rest, hrest, hspells⟩ hshown
    exact houtside ((hspells.infix_of_infix hword.bare hnumbered hfirst hshown).trans hrest.isInfix)
  exact AllStrings.not_infix_compact hword.isLoud (hvalue.mono hlacks) hinside

end ContractAtlas.Json
