import ContractAtlas.Schema.Decoder
import Mathlib.Tactic.SplitIfs

/-!
# What decoders accept

A decoder accepts a value or finds fault with it.  Whether it accepts a record depends on its
fields alone, and every field is judged for itself: a record of several readings is accepted
exactly if all of them are (`Checked.isValid_seq_iff`).  The kinds of values that single
fields can have are described here without a decoder, booleans among them, which are read
generously (`BooleanLike`).
-/

namespace ContractAtlas

theorem Text.chars?_eq_some_iff {text : Text} {chars : List Char} :
    chars? text = some chars ↔ text = ofChars chars := by
  constructor
  · intro hchars
    induction text generalizing chars with
    | nil =>
        obtain rfl := Option.some.inj hchars
        rfl
    | cons point rest ih =>
        cases point with
        | half offset => simp [chars?] at hchars
        | char c =>
            simp only [chars?, List.mapM_cons, Option.bind_eq_bind, Option.bind_some,
              Option.bind_eq_some_iff, Option.pure_def, Option.some.injEq] at hchars ih
            obtain ⟨more, hmore, rfl⟩ := hchars
            rw [ih hmore, ofChars, ofChars, List.map_cons]
  · rintro rfl
    exact chars?_ofChars chars

theorem Text.string?_eq_some_iff {text : Text} {string : String} :
    text.string? = some string ↔ text = ofString string := by
  rw [string?, Option.map_eq_some_iff]
  constructor
  · rintro ⟨chars, hchars, rfl⟩
    rw [ofString, String.toList_ofList, chars?_eq_some_iff.mp hchars]
  · rintro rfl
    exact ⟨string.toList, chars?_ofChars _, String.ofList_toList⟩

theorem Json.string?_eq_some_iff {value : Json} {string : String} :
    value.string? = some string ↔ value = .ofString string := by
  cases value <;> simp [string?, ofString, Text.string?_eq_some_iff]

/-! ## Zero and one as floating-point numbers -/

namespace Binary64

/-- Whether a number is zero or one. -/
def IsBit : Binary64 → Prop
  | .finite negative mantissa exponent =>
    mantissa = 0 ∨ negative = false ∧ mantissa * twoTo exponent = twoTo (-exponent)
  | _ => False

theorem twoTo_pos (exponent : Int) : 0 < twoTo exponent :=
  Nat.pow_pos (by decide)

theorem twoTo_of_nonpos {exponent : Int} (hexponent : exponent ≤ 0) : twoTo exponent = 1 := by
  rw [twoTo, Int.toNat_of_nonpos hexponent]

theorem isIntegral_finite_iff {negative : Bool} {mantissa : Nat} {exponent : Int} :
    (finite negative mantissa exponent).isIntegral = true ↔
      twoTo (-exponent) ∣ mantissa * twoTo exponent := by
  rw [isIntegral, Bool.or_eq_true, decide_eq_true_iff, beq_iff_eq]
  rcases Int.le_total 0 exponent with hexponent | hexponent
  · simp [hexponent, twoTo_of_nonpos (Int.neg_nonpos_of_nonneg hexponent)]
  · rw [twoTo_of_nonpos hexponent, Nat.mul_one, Nat.dvd_iff_mod_eq_zero, or_iff_right_iff_imp]
    intro hnonneg
    rw [twoTo_of_nonpos (Int.neg_nonpos_of_nonneg hnonneg), Nat.mod_one]

/-- A number is zero or one exactly if it is an integer and cut to zero or one. -/
theorem isBit_iff {value : Binary64} :
    value.IsBit ↔ value.isIntegral = true ∧ ∃ whole, value.truncate? = some whole ∧
      (whole = 0 ∨ whole = 1) := by
  cases value with
  | infinite negative => simp [IsBit, isIntegral]
  | nan => simp [IsBit, isIntegral]
  | finite negative mantissa exponent =>
      rw [isIntegral_finite_iff]
      have hunit := twoTo_pos exponent
      have hpart := twoTo_pos (-exponent)
      simp only [IsBit, truncate?, Option.some.injEq, exists_eq_left']
      constructor
      · rintro (rfl | ⟨rfl, hone⟩)
        · simp
        · simp [hone, Nat.div_self hpart]
      · rintro ⟨⟨magnitude, hmagnitude⟩, hwhole⟩
        rw [hmagnitude, Nat.mul_div_cancel_left _ hpart] at hwhole
        rcases hwhole with hzero | hone
        · have : magnitude = 0 := by split at hzero <;> omega
          subst this
          exact .inl ((Nat.mul_eq_zero.mp hmagnitude).resolve_right (Nat.ne_of_gt hunit))
        · split at hone
          · omega
          next hpositive =>
            have : magnitude = 1 := by omega
            subst this
            exact .inr ⟨by simpa using hpositive, by simpa using hmagnitude⟩

end Binary64

/-! ## Decoders that accept -/

namespace Schema

variable {α β : Type}

namespace Checked

theorem map_eq_valid_iff {f : α → β} {checked : Checked α} {result : β} :
    f <$> checked = .valid result ↔ ∃ value, checked = .valid value ∧ f value = result := by
  change Checked.apply (.valid f) checked = .valid result ↔ _
  cases checked with
  | valid value => simp [apply]
  | invalid issues => simp [apply]

theorem seq_eq_valid_iff {checked : Checked (α → β)} {argument : Checked α} {result : β} :
    checked <*> argument = .valid result ↔
      ∃ f value, checked = .valid f ∧ argument = .valid value ∧ f value = result := by
  change Checked.apply checked argument = .valid result ↔ _
  cases checked with
  | valid f =>
      cases argument with
      | valid value => simp [apply]
      | invalid issues => simp [apply]
  | invalid issues =>
      cases argument with
      | valid value => simp [apply]
      | invalid more => simp [apply]

theorem within_eq_valid_iff {checked : Checked α} {step : Step} {result : α} :
    checked.within step = .valid result ↔ checked = .valid result := by
  cases checked <;> simp [within]

/-- Whether a value has the expected form. -/
def IsValid (checked : Checked α) : Prop :=
  ∃ value, checked = .valid value

@[simp]
theorem isValid_valid (value : α) : (valid value).IsValid := ⟨value, rfl⟩

@[simp]
theorem not_isValid_invalid (issues : List Issue) : ¬ (invalid issues : Checked α).IsValid := by
  rintro ⟨_, ⟨⟩⟩

@[simp]
theorem not_isValid_fault (fault : Fault) : ¬ (Checked.fault fault : Checked α).IsValid :=
  not_isValid_invalid _

@[simp]
theorem isValid_map_iff {f : α → β} {checked : Checked α} :
    (f <$> checked).IsValid ↔ checked.IsValid := by
  simp only [IsValid, map_eq_valid_iff]
  constructor
  · rintro ⟨_, value, hchecked, -⟩
    exact ⟨value, hchecked⟩
  · rintro ⟨value, hchecked⟩
    exact ⟨f value, value, hchecked, rfl⟩

@[simp]
theorem isValid_seq_iff {checked : Checked (α → β)} {argument : Checked α} :
    (checked <*> argument).IsValid ↔ checked.IsValid ∧ argument.IsValid := by
  simp only [IsValid, seq_eq_valid_iff]
  constructor
  · rintro ⟨_, f, value, hchecked, hargument, -⟩
    exact ⟨⟨f, hchecked⟩, ⟨value, hargument⟩⟩
  · rintro ⟨⟨f, hchecked⟩, ⟨value, hargument⟩⟩
    exact ⟨f value, f, value, hchecked, hargument, rfl⟩

@[simp]
theorem isValid_within_iff {step : Step} {checked : Checked α} :
    (checked.within step).IsValid ↔ checked.IsValid :=
  exists_congr fun _ => within_eq_valid_iff

theorem isValid_items_iff {position : Nat} {values : List (Checked α)} :
    (items position values).IsValid ↔ ∀ value ∈ values, value.IsValid := by
  induction values generalizing position with
  | nil => simp [items]
  | cons value rest ih => simp [items, ih]

end Checked

theorem isValid_nullable_iff {decoder : Decoder α} {value : Json} :
    (nullable decoder value).IsValid ↔ value = .null ∨ (decoder value).IsValid := by
  cases value <;> simp [nullable]

theorem isValid_arrayOf_iff {otherwise : Fault} {decoder : Decoder α} {value : Json} :
    (arrayOf otherwise decoder value).IsValid ↔
      ∃ items, value = .arr items ∧ ∀ item ∈ items, (decoder item).IsValid := by
  cases value <;> simp [arrayOf, Checked.isValid_items_iff]

theorem isValid_object_iff {otherwise : Fault} {decoder : Decoder α} {value : Json} :
    (object otherwise decoder value).IsValid ↔
      (∃ fields, value = .obj fields) ∧ (decoder value).IsValid := by
  cases value <;> simp [object]

theorem isValid_numberFlag_iff {value : Int} :
    (numberFlag value).IsValid ↔ value = 0 ∨ value = 1 := by
  rw [numberFlag]
  split_ifs <;> simp_all

theorem isValid_wordFlag_iff {word : String} :
    (wordFlag word).IsValid ↔ word.toLower ∈ trueWords ∨ word.toLower ∈ falseWords := by
  rw [wordFlag]
  split_ifs <;> simp_all

/-! ## Kinds of values -/

/-- A value that can be taken for a boolean. -/
inductive BooleanLike : Json → Prop
  | bool (value : Bool) : BooleanLike (.bool value)
  | int {value : Int} (hbit : value = 0 ∨ value = 1) : BooleanLike (.int value)
  | float {value : Binary64} (hbit : value.IsBit) : BooleanLike (.float value)
  | word {text : Text} {word : String} (hchars : text.string? = some word)
      (hword : word.toLower ∈ trueWords ∨ word.toLower ∈ falseWords) : BooleanLike (.str text)

def IsText (value : Json) : Prop :=
  ∃ text, value = .str text

/-- A field that is absent or null, or whose value is of a kind. -/
def FieldIs (name : String) (kind : Json → Prop) (entry : Json) : Prop :=
  ∀ value, entry.field? name = some value → value = .null ∨ kind value

theorem isValid_flag_iff {value : Json} : (flag value).IsValid ↔ BooleanLike value := by
  cases value with
  | null | arr | obj => exact ⟨fun h => absurd h (Checked.not_isValid_fault _), nofun⟩
  | bool value => exact ⟨fun _ => .bool value, fun _ => Checked.isValid_valid value⟩
  | int value =>
      rw [flag, isValid_numberFlag_iff]
      exact ⟨.int, fun | .int hbit => hbit⟩
  | float value =>
      have hfloat : BooleanLike (.float value) ↔ value.IsBit :=
        ⟨fun | .float hbit => hbit, .float⟩
      rw [hfloat, Binary64.isBit_iff, flag]
      cases value.truncate? with
      | none => simp
      | some whole =>
          simp only [Option.some.injEq, exists_eq_left']
          split
          next hinteger => simp_all [isValid_numberFlag_iff]
          next hother =>
            -- The least word is the only integer that is left out, and it is no boolean.
            simp only [Checked.not_isValid_fault, false_iff, not_and]
            rintro hintegral (rfl | rfl) <;> simp [hintegral, wordBound] at hother
  | str text =>
      rw [flag]
      cases hchars : text.string? with
      | none =>
          refine ⟨fun hvalid => absurd hvalid (Checked.not_isValid_fault _), ?_⟩
          rintro ⟨⟩
          simp_all
      | some word =>
          rw [isValid_wordFlag_iff]
          refine ⟨.word hchars, ?_⟩
          rintro ⟨⟩
          simp_all

theorem isValid_text_iff {value : Json} : (text value).IsValid ↔ IsText value := by
  cases value <;> simp [text, IsText]

/-- An optional field is read exactly if it is absent, null or of the kind that is read. -/
theorem isValid_optional_nullable_iff {decoder : Decoder α} {kind : Json → Prop}
    (hkind : ∀ {value}, (decoder value).IsValid ↔ kind value) {name : String} {entry : Json} :
    (optional name none (nullable decoder) entry).IsValid ↔ FieldIs name kind entry := by
  rw [Schema.optional, FieldIs]
  cases hfield : entry.field? name with
  | none => simp
  | some value => simp [isValid_nullable_iff, hkind]

theorem required_eq_valid_iff {decoder : Decoder α} {name : String} {entry : Json} {result : α} :
    required name decoder entry = .valid result ↔
      ∃ value, entry.field? name = some value ∧ decoder value = .valid result := by
  rw [required, Checked.within_eq_valid_iff]
  cases entry.field? name with
  | none => simp [Checked.fault]
  | some value => simp

end Schema

end ContractAtlas
