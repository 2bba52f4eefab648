import ContractAtlas.Text.Encoding
import Mathlib.Tactic.Common

/-!
# Text that is sent as it is

Text is sent in UTF-8, without a mark.  It is decoded again if it starts with two ASCII
characters, as JSON text does whose first value is an object with fields: no mark starts with the
first of them, and neither of them is a zero, so the encoding is found to be UTF-8
(`decode?_toUTF8`).
-/

namespace ContractAtlas.Text

/-- A character that is sent as one byte, which is no zero. -/
def IsAscii (c : Char) : Prop :=
  0 < c.toNat ∧ c.toNat < 0x80

instance (c : Char) : Decidable (IsAscii c) :=
  inferInstanceAs (Decidable (_ ∧ _))

variable {c first second : Char} {bytes : List UInt8} {rest : List Char}

theorem utf8EncodeChar_of_isAscii (hc : IsAscii c) :
    String.utf8EncodeChar c = [UInt8.ofNat c.toNat] := by
  have hle : c.val.toNat ≤ 127 := Nat.le_of_lt_succ hc.2
  rw [String.utf8EncodeChar.eq_def]
  exact if_pos hle

theorem toNat_ofNat_of_isAscii (hc : IsAscii c) : (UInt8.ofNat c.toNat).toNat = c.toNat := by
  rw [UInt8.toNat_ofNat']
  exact Nat.mod_eq_of_lt (Nat.lt_trans hc.2 (by decide))

/-- No mark starts with an ASCII character. -/
theorem find?_marks_eq_none (hfirst : IsAscii first) :
    Encoding.marks.find? (fun (mark, _) =>
      mark.isPrefixOf (UInt8.ofNat first.toNat :: bytes)) = none := by
  have hne : ∀ n : UInt8, n.toNat = 0 ∨ 0x80 ≤ n.toNat → (n == UInt8.ofNat first.toNat) = false := by
    intro n hn
    refine beq_eq_false_iff_ne.mpr fun heq => ?_
    rw [heq, toNat_ofNat_of_isAscii hfirst] at hn
    have hbounds : 0 < first.toNat ∧ first.toNat < 0x80 := hfirst
    omega
  simp [Encoding.marks, List.find?, List.isPrefixOf, hne]

theorem unmarked_eq_utf8 (hfirst : IsAscii first) (hsecond : IsAscii second) :
    Encoding.unmarked (UInt8.ofNat first.toNat :: UInt8.ofNat second.toNat :: bytes) = .utf8 := by
  have hne : ∀ {c}, IsAscii c → (UInt8.ofNat c.toNat == 0) = false := by
    intro c hc
    refine beq_eq_false_iff_ne.mpr fun heq => ?_
    have hzero := congrArg UInt8.toNat heq
    rw [toNat_ofNat_of_isAscii hc] at hzero
    exact Nat.ne_of_gt hc.1 hzero
  rw [Encoding.unmarked, List.map_cons, List.map_cons, hne hfirst, hne hsecond]

theorem isEmpty_toUTF8 (text : String) : text.toUTF8.isEmpty = text.isEmpty := rfl

theorem fromUTF8?_toUTF8 (text : String) : String.fromUTF8? text.toUTF8 = some text := by
  rw [String.fromUTF8?, String.toUTF8, dif_pos text.isValidUTF8]
  rfl

/-- Text that starts with two ASCII characters is decoded as it was. -/
theorem decode?_toUTF8 (hfirst : IsAscii first) (hsecond : IsAscii second) :
    decode? (String.ofList (first :: second :: rest)).toUTF8 = some (first :: second :: rest) := by
  have hbytes : (String.ofList (first :: second :: rest)).toUTF8.data.toList =
      UInt8.ofNat first.toNat :: UInt8.ofNat second.toNat ::
        rest.flatMap String.utf8EncodeChar := by
    rw [String.toUTF8, String.toByteArray_ofList, List.utf8Encode, List.toList_data_toByteArray,
      List.flatMap_cons, List.flatMap_cons, utf8EncodeChar_of_isAscii hfirst,
      utf8EncodeChar_of_isAscii hsecond]
    rfl
  rw [decode?, hbytes, find?_marks_eq_none hfirst]
  simp only [unmarked_eq_utf8 hfirst hsecond, Encoding.decode?, fromUTF8?_toUTF8, Option.map_some,
    String.toList_ofList]

end ContractAtlas.Text
