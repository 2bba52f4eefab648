import ContractAtlas.Contract.Decoding
import ContractAtlas.Contract.Encoding

/-!
# What is written is read back

A record is written field by field and read field by field.  Reading a field of a written
record finds the value that was written there, and every decoder accepts what was written
for it.  The only form that can be refused is a sequence that has to have an item.
-/

namespace ContractAtlas

theorem Text.shown_ofString (string : String) : Text.shown (Text.ofString string) = string := by
  simp [Text.shown, Text.ofString, Text.ofChars, Function.comp_def]

theorem Json.field?_record_cons (name key : String) (value : Json)
    (fields : List (String × Json)) : (Json.record ((key, value) :: fields)).field? name =
      if key = name then some value else (Json.record fields).field? name := by
  by_cases hkey : key = name
  · simp [Json.record, Json.field?, hkey]
  · have hne : Text.ofString key ≠ Text.ofString name := fun heq =>
      hkey (Text.ofString_injective heq)
    simp [Json.record, Json.field?, hkey, hne]

namespace Schema

variable {α β : Type} {decoder : Decoder α} {value : Json} {result : α}

namespace Checked

@[simp]
theorem map_valid (f : α → β) (value : α) : f <$> Checked.valid value = .valid (f value) := rfl

@[simp]
theorem seq_valid (f : α → β) (value : α) :
    Checked.valid f <*> Checked.valid value = .valid (f value) := rfl

@[simp]
theorem within_valid (step : Step) (value : α) :
    (Checked.valid value).within step = .valid value := rfl

theorem items_map_valid (values : List α) (position : Nat) :
    items position (values.map Checked.valid) = .valid values := by
  induction values generalizing position with
  | nil => rfl
  | cons value rest ih =>
      rw [List.map_cons, items, ih]
      rfl

end Checked

/-! ## Single values -/

@[simp]
theorem text_ofString (string : String) : text (.ofString string) = .valid string := by
  rw [Json.ofString, text, Text.shown_ofString]

@[simp]
theorem flag_bool (value : Bool) : flag (.bool value) = .valid value := rfl

theorem keyword_ofString {alternatives : List String} {ofKeyword? : String → Option α}
    {word : String} (hword : ofKeyword? word = some result) :
    keyword alternatives ofKeyword? (.ofString word) = .valid result := by
  simp [keyword, Json.ofString, Json.string?, hword]

@[simp]
theorem nullable_text_ofOption (string : Option String) :
    nullable text (.ofOption .ofString string) = .valid string := by
  cases string with
  | none => rfl
  | some string => exact congrArg (some <$> ·) (text_ofString string)

@[simp]
theorem nullable_flag_ofOption (value : Option Bool) :
    nullable flag (.ofOption .bool value) = .valid value := by
  cases value <;> rfl

/-! ## Sequences -/

theorem sequence_map {write : α → Json} {values : List α}
    (hvalues : ∀ value ∈ values, decoder (write value) = .valid value) :
    sequence decoder (.arr (values.map write)) = .valid values := by
  have hread : (values.map write).map decoder = values.map Checked.valid := by
    rw [List.map_map]
    exact List.map_congr_left hvalues
  rw [sequence, arrayOf, hread, Checked.items_map_valid]

theorem sequence_ofRecords [ToJson α] {values : List α}
    (hvalues : ∀ value ∈ values, decoder (toJson value) = .valid value) :
    sequence decoder (.ofRecords values) = .valid values :=
  sequence_map hvalues

@[simp]
theorem strings_ofStrings (values : List String) : strings (.ofStrings values) = .valid values :=
  sequence_map fun value _ => text_ofString value

theorem nonEmpty_of_valid {decoder : Decoder (List α)} {values : List α}
    (hvalues : decoder value = .valid values) (hne : values ≠ []) :
    nonEmpty decoder value = .valid values := by
  rw [nonEmpty, hvalues]
  cases values with
  | nil => contradiction
  | cons first rest => rfl

/-! ## Fields -/

@[simp]
theorem object_record (otherwise : Fault) (fields : List (String × Json)) :
    object otherwise decoder (.record fields) = decoder (.record fields) := rfl

end Schema

end ContractAtlas
