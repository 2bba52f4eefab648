import ContractAtlas.Proofs.Json.RoundTrip
import ContractAtlas.Proofs.Json.Strings
import Mathlib.Algebra.Group.Nat.Defs

/-!
# Values that can be written

A value is written unless it is nested too deeply or one of its integers has too many digits
(`checkWithin_eq_ok_iff`).  As long as it is not nested too deeply, its integers alone decide
(`check_of_nesting_le`).

The reader has the same two limits.  So everything that is read can be written
(`check_of_read`), and so can all parts of it.
-/

namespace ContractAtlas.Json

mutual

/-- The integers that a value holds. -/
def integers : Json → List Int
  | .int value => [value]
  | .arr items => integersOfItems items
  | .obj fields => integersOfFields fields
  | _ => []

def integersOfItems : List Json → List Int
  | [] => []
  | item :: rest => integers item ++ integersOfItems rest

def integersOfFields : List (Text × Json) → List Int
  | [] => []
  | (_, value) :: rest => integers value ++ integersOfFields rest

end

/-- An integer that is written with few enough digits. -/
def IsShort (n : Int) : Prop :=
  (Nat.toDigits 10 n.natAbs).length ≤ Numeral.digitLimit

theorem isShort_iff {n : Int} : IsShort n ↔ n.natAbs < 10 ^ Numeral.digitLimit :=
  Nat.length_toDigits_le_iff (by decide) (by decide)

instance (n : Int) : Decidable (IsShort n) :=
  inferInstanceAs (Decidable (_ ≤ _))

section Parts

variable {items : List Json} {fields : List (Text × Json)} {room : Nat} {fault : WriteFault}

theorem mem_integersOfItems {n : Int} :
    n ∈ integersOfItems items ↔ ∃ item ∈ items, n ∈ item.integers := by
  induction items with
  | nil => simp [integersOfItems]
  | cons item rest ih => simp [integersOfItems, ih]

theorem mem_integersOfFields {n : Int} :
    n ∈ integersOfFields fields ↔ ∃ field ∈ fields, n ∈ field.2.integers := by
  induction fields with
  | nil => simp [integersOfFields]
  | cons field rest ih => simp [integersOfFields, ih]

theorem checkItems_eq_ok_iff :
    checkItems room items = .ok () ↔ ∀ item ∈ items, item.checkWithin room = .ok () := by
  induction items with
  | nil => simp [checkItems]
  | cons item rest ih =>
      rw [checkItems, List.forall_mem_cons, ← ih]
      cases item.checkWithin room <;> simp

theorem checkFields_eq_ok_iff :
    checkFields room fields = .ok () ↔ ∀ field ∈ fields, field.2.checkWithin room = .ok () := by
  induction fields with
  | nil => simp [checkFields]
  | cons field rest ih =>
      rw [checkFields, List.forall_mem_cons, ← ih]
      cases field.2.checkWithin room <;> simp

/-- The fault of several values is that of one of them. -/
theorem exists_of_checkItems (hcheck : checkItems room items = .error fault) :
    ∃ item ∈ items, item.checkWithin room = .error fault := by
  induction items with
  | nil => contradiction
  | cons item rest ih =>
      rw [checkItems] at hcheck
      split at hcheck
      · obtain ⟨other, hother, hfault⟩ := ih hcheck
        exact ⟨other, List.mem_cons_of_mem _ hother, hfault⟩
      next hfault => exact ⟨item, List.mem_cons_self, hfault.trans hcheck⟩

theorem exists_of_checkFields (hcheck : checkFields room fields = .error fault) :
    ∃ field ∈ fields, field.2.checkWithin room = .error fault := by
  induction fields with
  | nil => contradiction
  | cons field rest ih =>
      rw [checkFields] at hcheck
      split at hcheck
      · obtain ⟨other, hother, hfault⟩ := ih hcheck
        exact ⟨other, List.mem_cons_of_mem _ hother, hfault⟩
      next hfault => exact ⟨field, List.mem_cons_self, hfault.trans hcheck⟩

end Parts

/-! ## What the check finds -/

/-- There is no fault in a value exactly if it is not nested too deeply and none of its
integers is too long. -/
theorem checkWithin_eq_ok_iff {value : Json} {room : Nat} :
    value.checkWithin room = .ok () ↔ value.nesting ≤ room ∧ ∀ n ∈ value.integers, IsShort n := by
  induction value using partInduction generalizing room with
  | null | bool _ | float _ | str _ => simp [checkWithin, nesting, integers]
  | int value => simp [checkWithin, nesting, integers, IsShort]
  | arr items ih =>
      cases room with
      | zero => simp [checkWithin, nesting]
      | succ inside =>
          rw [checkWithin, checkItems_eq_ok_iff, nesting, Nat.add_le_add_iff_right,
            nestingItems_le_iff, integers]
          simp only [mem_integersOfItems]
          constructor
          · intro hchecked
            have hitems := fun item hitem => (ih item hitem).mp (hchecked item hitem)
            refine ⟨fun item hitem => (hitems item hitem).1, ?_⟩
            rintro n ⟨item, hitem, hn⟩
            exact (hitems item hitem).2 n hn
          · rintro ⟨hnesting, hshort⟩ item hitem
            exact (ih item hitem).mpr ⟨hnesting item hitem, fun n hn => hshort n ⟨item, hitem, hn⟩⟩
  | obj fields ih =>
      cases room with
      | zero => simp [checkWithin, nesting]
      | succ inside =>
          rw [checkWithin, checkFields_eq_ok_iff, nesting, Nat.add_le_add_iff_right,
            nestingFields_le_iff, integers]
          simp only [mem_integersOfFields]
          constructor
          · intro hchecked
            have hfields := fun field hfield => (ih field hfield).mp (hchecked field hfield)
            refine ⟨fun field hfield => (hfields field hfield).1, ?_⟩
            rintro n ⟨field, hfield, hn⟩
            exact (hfields field hfield).2 n hn
          · rintro ⟨hnesting, hshort⟩ field hfield
            exact (ih field hfield).mpr
              ⟨hnesting field hfield, fun n hn => hshort n ⟨field, hfield, hn⟩⟩

/-- Only what is nested too deeply is found to be so. -/
theorem lt_nesting_of_checkWithin {value : Json} {room : Nat}
    (hcheck : value.checkWithin room = .error .tooDeep) : room < value.nesting := by
  induction value using partInduction generalizing room with
  | null | bool _ | float _ | str _ => contradiction
  | int value =>
      rw [checkWithin] at hcheck
      split at hcheck <;> contradiction
  | arr items ih =>
      cases room with
      | zero => simp [nesting]
      | succ inside =>
          obtain ⟨item, hitem, hfault⟩ := exists_of_checkItems hcheck
          have hinside := ih item hitem hfault
          have hbelow := nestingItems_le_iff.mp le_rfl item hitem
          rw [nesting]
          omega
  | obj fields ih =>
      cases room with
      | zero => simp [nesting]
      | succ inside =>
          obtain ⟨field, hfield, hfault⟩ := exists_of_checkFields hcheck
          have hinside := ih field hfield hfault
          have hbelow := nestingFields_le_iff.mp le_rfl field hfield
          rw [nesting]
          omega

/-- Of a value that is not nested too deeply its integers decide. -/
theorem check_of_nesting_le {value : Json} (hnesting : value.nesting ≤ nestingLimit) :
    value.check =
      if ∀ n ∈ value.integers, IsShort n then .ok () else .error .longInteger := by
  split
  next hshort => exact checkWithin_eq_ok_iff.mpr ⟨hnesting, hshort⟩
  next hlong =>
    cases hcheck : value.check with
    | ok _ => exact absurd (checkWithin_eq_ok_iff.mp hcheck).2 hlong
    | error fault =>
        cases fault with
        | longInteger => rfl
        | tooDeep => exact absurd (lt_nesting_of_checkWithin hcheck) (Nat.not_lt.mpr hnesting)

theorem written_of_check {value : Json} (hcheck : value.check = .ok ()) (style : Style) :
    value.written style = .ok (value.write style) := by
  rw [written, hcheck]
  rfl

/-- What can be written in some place can be written in every place with more room. -/
theorem checkWithin_mono {value : Json} {less more : Nat} (hle : less ≤ more)
    (hcheck : value.checkWithin less = .ok ()) : value.checkWithin more = .ok () := by
  obtain ⟨hnesting, hshort⟩ := checkWithin_eq_ok_iff.mp hcheck
  exact checkWithin_eq_ok_iff.mpr ⟨hnesting.trans hle, hshort⟩

/-- Every item of a list that can be written can be written by itself. -/
theorem check_of_mem {items : List Json} (hcheck : (Json.arr items).check = .ok ()) {item : Json}
    (hitem : item ∈ items) : item.check = .ok () := by
  have hitems : ∀ item ∈ items, item.checkWithin (nestingLimit - 1) = .ok () :=
    checkItems_eq_ok_iff.mp hcheck
  exact checkWithin_mono (Nat.sub_le _ _) (hitems item hitem)

theorem check_of_field? {value found : Json} {name : String} (hcheck : value.check = .ok ())
    (hfound : value.field? name = some found) : found.check = .ok () := by
  cases value with
  | obj fields =>
      obtain ⟨field, hfield, rfl⟩ := Option.map_eq_some_iff.mp hfound
      have hfields : ∀ field ∈ fields, field.2.checkWithin (nestingLimit - 1) = .ok () :=
        checkFields_eq_ok_iff.mp hcheck
      exact checkWithin_mono (Nat.sub_le _ _) (hfields field (List.mem_of_find?_eq_some hfield))
  | _ => simp [field?] at hfound

/-- A value that can be written as a part of another one. -/
structure FitsInside (value : Json) : Prop where
  nesting : value.nesting < nestingLimit
  short : ∀ n ∈ value.integers, IsShort n

instance (value : Json) : Decidable value.FitsInside :=
  decidable_of_iff (value.nesting < nestingLimit ∧ ∀ n ∈ value.integers, IsShort n)
    ⟨fun ⟨hnesting, hshort⟩ => ⟨hnesting, hshort⟩, fun hfits => ⟨hfits.nesting, hfits.short⟩⟩

theorem check_record_eq_ok_iff {fields : List (String × Json)} :
    (Json.record fields).check = .ok () ↔ ∀ field ∈ fields, field.2.FitsInside := by
  have hfits : ∀ value : Json,
      value.checkWithin (nestingLimit - 1) = .ok () ↔ value.FitsInside := fun value => by
    rw [checkWithin_eq_ok_iff, Nat.le_sub_one_iff_lt (by decide)]
    exact ⟨fun ⟨hnesting, hshort⟩ => ⟨hnesting, hshort⟩, fun hfits => ⟨hfits.nesting, hfits.short⟩⟩
  have hfields : (Json.record fields).check = .ok () ↔
      ∀ field ∈ fields, field.2.checkWithin (nestingLimit - 1) = .ok () :=
    checkFields_eq_ok_iff.trans List.forall_mem_map
  simp only [hfields, hfits]

/-- The values that text carries without loss, provided that they can be written. -/
inductive Carried : Json → Prop
  | null : Carried .null
  | bool (value : Bool) : Carried (.bool value)
  | int (value : Int) : Carried (.int value)
  | str {text : Text} (htext : text.IsWhole) : Carried (.str text)
  | arr {items : List Json} (hitems : ∀ item ∈ items, Carried item) : Carried (.arr items)
  | obj {fields : List (Text × Json)} (hdistinct : (fields.map (·.1)).Nodup)
      (hkeys : ∀ field ∈ fields, field.1.IsWhole)
      (hvalues : ∀ field ∈ fields, Carried field.2) : Carried (.obj fields)

theorem Carried.ofString (string : String) : (Json.ofString string).Carried :=
  .str ⟨string.toList, rfl⟩

theorem Carried.portable {value : Json} (hcarried : value.Carried)
    (hshort : ∀ n ∈ value.integers, IsShort n) : value.Portable := by
  induction hcarried with
  | null => exact .null
  | bool value => exact .bool value
  | int value => exact .int (hshort value (by simp [integers]))
  | str htext => exact .str htext
  | arr _ ih =>
      refine .arr fun item hitem => ih item hitem fun n hn => hshort n ?_
      exact mem_integersOfItems.mpr ⟨item, hitem, hn⟩
  | obj hdistinct hkeys _ ih =>
      refine .obj hdistinct hkeys fun field hfield => ih field hfield fun n hn => hshort n ?_
      exact mem_integersOfFields.mpr ⟨field, hfield, hn⟩

/-! ## What is read -/

theorem decimalValue_lt {digits : List Char} (hdigits : ∀ c ∈ digits, isDigit c = true) :
    decimalValue digits < 10 ^ digits.length := by
  suffices hfold : ∀ value, digits.foldl (fun value c => value * 10 + (c.toNat - '0'.toNat)) value <
      (value + 1) * 10 ^ digits.length by
    simpa [decimalValue] using hfold 0
  induction digits with
  | nil => simp
  | cons c rest ih =>
      intro value
      obtain ⟨hc, hrest⟩ := List.forall_mem_cons.mp hdigits
      have hdigit : c.toNat - '0'.toNat < 10 := by
        rw [isDigit, Bool.and_eq_true, decide_eq_true_eq, decide_eq_true_eq] at hc
        have hnine : c.toNat ≤ '9'.toNat := hc.2
        have hvalues : '9'.toNat = 57 ∧ '0'.toNat = 48 := by decide
        omega
      calc (c :: rest).foldl _ value
          < (value * 10 + (c.toNat - '0'.toNat) + 1) * 10 ^ rest.length := ih hrest _
        _ ≤ (value + 1) * 10 * 10 ^ rest.length := Nat.mul_le_mul_right _ (by omega)
        _ = (value + 1) * 10 ^ (c :: rest).length := by
          rw [List.length_cons, Nat.pow_succ, Nat.mul_assoc, Nat.mul_comm 10]

theorem isDigit_of_mem_wholeDigits {chars : List Char} {c : Char} (hc : c ∈ wholeDigits chars) :
    isDigit c = true := by
  rw [wholeDigits.eq_def] at hc
  split at hc
  · rw [List.mem_singleton.mp hc]
    rfl
  · exact List.mem_takeWhile_imp hc

theorem isDigit_of_mem_whole {chars : List Char} {number : NumberText}
    (hnumber : number? chars = some number) {c : Char} (hc : c ∈ number.whole) :
    isDigit c = true := by
  rw [number?.eq_def] at hnumber
  split at hnumber
  next unsigned _ =>
    cases hwhole : (wholeDigits unsigned).isEmpty with
    | true => simp [hwhole] at hnumber
    | false =>
        simp only [hwhole, Bool.false_eq_true, if_false, Option.some.injEq] at hnumber
        exact isDigit_of_mem_wholeDigits (by rwa [← hnumber] at hc)

namespace Reading

/-- A value that can be written inside so many arrays and objects. -/
def IsWritableAt (depth : Nat) (value : Json) : Prop :=
  value.checkWithin (nestingLimit - depth) = .ok ()

theorem kept_isWritableAt : Kept (fun _ => True) IsWritableAt where
  str _ := rfl
  arr := by
    intro depth items hroom hitems
    obtain ⟨inside, hinside⟩ := Nat.exists_eq_add_of_lt hroom
    have hmore : nestingLimit - depth = nestingLimit - (depth + 1) + 1 := by omega
    rw [IsWritableAt, hmore]
    exact checkItems_eq_ok_iff.mpr hitems
  obj := by
    intro depth fields hroom hfields
    have hmore : nestingLimit - depth = nestingLimit - (depth + 1) + 1 := by omega
    rw [IsWritableAt, hmore, ofFields_eq_lastSet]
    exact checkFields_eq_ok_iff.mpr fun field hfield =>
      (hfields field (mem_of_mem_lastSet hfield)).2

theorem lexemeHolds_number_isWritableAt {chars : List Char} {number : NumberText}
    (hnumber : number? chars = some number) :
    LexemeHolds (fun _ => True) IsWritableAt number.lexeme := by
  rw [NumberText.lexeme]
  split
  · split
    · trivial
    next hfits =>
      intro depth
      have hvalue : decimalValue number.whole < 10 ^ number.whole.length :=
        decimalValue_lt fun c hc => isDigit_of_mem_whole hnumber hc
      have habs : (Numeral.signed number.negative (decimalValue number.whole)).natAbs =
          decimalValue number.whole := by
        cases number.negative <;> simp [Numeral.signed]
      have hshort : IsShort (Numeral.signed number.negative (decimalValue number.whole)) := by
        rw [isShort_iff, habs]
        exact hvalue.trans_le (Nat.pow_le_pow_right (by decide) (Nat.not_lt.mp hfits))
      rw [IsWritableAt, checkWithin]
      exact if_pos hshort
  · exact fun _ => rfl

theorem lexemeHolds_isWritableAt (chars : List Char) :
    LexemeHolds (fun _ => True) IsWritableAt (lexeme chars).1 := by
  apply lexemeHolds_of_parts
  · simp only [namedValues, List.forall_mem_cons]
    exact ⟨fun _ => rfl, fun _ => rfl, fun _ => rfl, fun _ => rfl, fun _ => rfl, fun _ => rfl,
      by simp⟩
  · intro number hnumber
    exact lexemeHolds_number_isWritableAt hnumber
  · intros
    trivial

end Reading

/-- Everything that is read can be written. -/
theorem check_of_read {chars : List Char} {value : Json} (hread : read chars = .ok value) :
    value.check = .ok () :=
  Reading.holds_of_read Reading.kept_isWritableAt
    (fun rest _ => Reading.lexemeHolds_isWritableAt rest) hread

end ContractAtlas.Json
