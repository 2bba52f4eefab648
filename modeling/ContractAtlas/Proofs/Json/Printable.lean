import ContractAtlas.Proofs.Json.Strings
import ContractAtlas.Text.Word

/-!
# Printable text

A value that is written plainly is a line of printable ASCII characters, whatever its strings
hold: quotes, backslashes and control characters are escaped in every style, and the plain one
escapes everything else beyond a tilde, halves of surrogate pairs among it.
-/

namespace ContractAtlas.Json

open Text

/-- A character from the space to the tilde. -/
def IsPrintable (c : Char) : Prop :=
  0x20 ≤ c.toNat ∧ c.toNat ≤ 0x7E

instance (c : Char) : Decidable (IsPrintable c) :=
  inferInstanceAs (Decidable (_ ∧ _))

/-- A text of printable characters. -/
def AllPrintable (text : Text) : Prop :=
  ∀ point ∈ text, ∃ c, point = .char c ∧ IsPrintable c

theorem allPrintable_nil : AllPrintable [] := by simp [AllPrintable]

theorem allPrintable_append_iff {left right : Text} :
    AllPrintable (left ++ right) ↔ AllPrintable left ∧ AllPrintable right :=
  List.forall_mem_append

theorem allPrintable_cons {c : Char} {rest : Text} (hc : IsPrintable c)
    (hrest : AllPrintable rest) : AllPrintable (.char c :: rest) :=
  List.forall_mem_cons.mpr ⟨⟨c, rfl, hc⟩, hrest⟩

theorem allPrintable_ofChars {chars : List Char} (hchars : ∀ c ∈ chars, IsPrintable c) :
    AllPrintable (ofChars chars) := by
  intro point hpoint
  obtain ⟨c, hc, rfl⟩ := List.mem_map.mp hpoint
  exact ⟨c, rfl, hchars c hc⟩

theorem allPrintable_scalar {chars : List Char} (hchars : chars ⊆ scalarChars) :
    AllPrintable (ofChars chars) := by
  have hall : ∀ c ∈ scalarChars, IsPrintable c := forall_mem_of_all (by decide)
  exact allPrintable_ofChars fun c hc => hall c (hchars hc)

theorem AllPrintable.enclosed {inner : Text} {opening closing : Char}
    (hopening : IsPrintable opening) (hclosing : IsPrintable closing)
    (hinner : AllPrintable inner) : AllPrintable (.char opening :: inner ++ [.char closing]) :=
  allPrintable_append_iff.mpr ⟨allPrintable_cons hopening hinner,
    allPrintable_cons hclosing allPrintable_nil⟩

/-! ## Strings -/

theorem isPrintable_of_mem_escapedUnit {unit : Nat} : ∀ c ∈ escapedUnit unit, IsPrintable c := by
  have hdigit : ∀ n < 16, IsPrintable n.digitChar := by decide
  have hdigits : ∀ n, IsPrintable (n % 16).digitChar := fun n =>
    hdigit (n % 16) (Nat.mod_lt n (by decide))
  simp only [escapedUnit, hex4, List.map_cons, List.map_nil, List.forall_mem_cons, hdigits]
  exact ⟨by decide, by decide, trivial, trivial, trivial, trivial, by simp⟩

theorem allPrintable_escapedPoint (number : Nat) :
    AllPrintable (ofChars (escapedPoint number)) := by
  apply allPrintable_ofChars
  rw [escapedPoint]
  split
  · exact isPrintable_of_mem_escapedUnit
  · exact List.forall_mem_append.mpr
      ⟨isPrintable_of_mem_escapedUnit, isPrintable_of_mem_escapedUnit⟩

theorem isPrintable_of_shortEscapeOf? {c : Char} {escape : List Char}
    (hshort : shortEscapeOf? c = some escape) : ∀ c ∈ escape, IsPrintable c := by
  rw [shortEscapeOf?.eq_def] at hshort
  split at hshort
  case h_8 => contradiction
  all_goals
    obtain rfl := Option.some.inj hshort
    exact forall_mem_of_all (by decide)

theorem allPrintable_writePoint (point : CodePoint) : AllPrintable (writePoint .plain point) := by
  cases point with
  | half offset => exact allPrintable_escapedPoint _
  | char c =>
      simp only [writePoint, Style.plain, Bool.true_and]
      cases hshort : shortEscapeOf? c with
      | some escape => exact allPrintable_ofChars (isPrintable_of_shortEscapeOf? hshort)
      | none =>
          simp only
          split
          · exact allPrintable_escapedPoint _
          next hprintable =>
            have hc : IsPrintable c := by simpa [IsPrintable, Nat.not_lt] using hprintable
            exact allPrintable_cons hc allPrintable_nil

theorem allPrintable_writeString (text : Text) : AllPrintable (writeString .plain text) := by
  refine AllPrintable.enclosed (by decide) (by decide) fun point hpoint => ?_
  obtain ⟨other, -, hpoint⟩ := List.mem_flatMap.mp hpoint
  exact allPrintable_writePoint other point hpoint

/-! ## Values -/

theorem allPrintable_gap {c : Char} (hc : IsPrintable c) :
    AllPrintable (.char c :: ofChars Style.plain.gap) :=
  allPrintable_cons hc (allPrintable_cons (by decide) allPrintable_nil)

theorem allPrintable_writeItems : ∀ {items : List Json},
    (∀ item ∈ items, AllPrintable (write .plain item)) → AllPrintable (writeItems .plain items)
  | [], _ => allPrintable_nil
  | [item], hitems => by
      rw [writeItems]
      exact hitems item List.mem_cons_self
  | item :: next :: rest, hitems => by
      have hrest := allPrintable_writeItems fun other (hother : other ∈ next :: rest) =>
        hitems other (List.mem_cons_of_mem _ hother)
      rw [writeItems, allPrintable_append_iff, allPrintable_append_iff]
      exact ⟨⟨hitems item List.mem_cons_self, allPrintable_gap (by decide)⟩, hrest⟩

theorem allPrintable_writeFields : ∀ {fields : List (Text × Json)},
    (∀ field ∈ fields, AllPrintable (write .plain field.2)) →
      AllPrintable (writeFields .plain fields)
  | [], _ => allPrintable_nil
  | [(key, value)], hfields => by
      simp only [writeFields, allPrintable_append_iff]
      exact ⟨⟨allPrintable_writeString key, allPrintable_gap (by decide)⟩,
        hfields _ List.mem_cons_self⟩
  | (key, value) :: next :: rest, hfields => by
      have hrest := allPrintable_writeFields fun other (hother : other ∈ next :: rest) =>
        hfields other (List.mem_cons_of_mem _ hother)
      simp only [writeFields, allPrintable_append_iff]
      exact ⟨⟨⟨⟨allPrintable_writeString key, allPrintable_gap (by decide)⟩,
        hfields _ List.mem_cons_self⟩, allPrintable_gap (by decide)⟩, hrest⟩

theorem allPrintable_write (value : Json) : AllPrintable (write .plain value) := by
  induction value using partInduction with
  | null => exact allPrintable_scalar (by decide)
  | bool value => cases value <;> exact allPrintable_scalar (by decide)
  | int value => exact allPrintable_scalar (writeInt_subset value)
  | float value => exact allPrintable_scalar (floatText_subset value)
  | str text => exact allPrintable_writeString text
  | arr items ih => exact .enclosed (by decide) (by decide) (allPrintable_writeItems ih)
  | obj fields ih => exact .enclosed (by decide) (by decide) (allPrintable_writeFields ih)

theorem AllPrintable.exists_chars {text : Text} (htext : AllPrintable text) :
    ∃ chars, text = ofChars chars ∧ ∀ c ∈ chars, IsPrintable c := by
  induction text with
  | nil => exact ⟨[], rfl, by simp⟩
  | cons point rest ih =>
      obtain ⟨⟨c, rfl, hc⟩, hrest⟩ := List.forall_mem_cons.mp htext
      obtain ⟨chars, rfl, hchars⟩ := ih hrest
      exact ⟨c :: chars, rfl, List.forall_mem_cons.mpr ⟨hc, hchars⟩⟩

/-- What is written plainly is shown as it is. -/
theorem write_plain (value : Json) :
    write .plain value = ofChars value.plain.toList ∧ ∀ c ∈ value.plain.toList, IsPrintable c := by
  obtain ⟨chars, hwritten, hchars⟩ := (allPrintable_write value).exists_chars
  have hplain : value.plain.toList = chars := by
    rw [plain, hwritten]
    simp [shown, ofChars, Function.comp_def]
  rw [hplain]
  exact ⟨hwritten, hchars⟩

end ContractAtlas.Json
