import ContractAtlas.Proofs.Diagram.FunctionNodes

/-!
# What a written identity selects

An identity is spelled like that of a function if decimal digits follow its first word.  The
node of a function has one spelling, the one without leading zeros in ASCII digits, but the
number is read from any other as well.  So a spelling selects the function that its number
counts to, whether there is a node of this identity or not, and it is refused if the number is
beyond the last function.  A spelling with too many digits is neither: its number is not read.
Everything that is spelled in another way is refused (`select_cases`).
-/

namespace ContractAtlas

/-- Decimal digits of any script behind the word for a function, and the number that they
denote. -/
structure Spelled (id : String) (digits : List Char) (index : Nat) : Prop where
  text : id.toList = "function-".toList ++ digits
  ne_nil : digits ≠ []
  value : Text.digitsValue? digits = some index

theorem Text.exists_digitsValue?_iff {digits : List Char} :
    (∃ value, digitsValue? digits = some value) ↔
      ∀ c ∈ digits, (digitValue? c).isSome = true := by
  suffices hfold : ∀ start, (∃ value, digits.foldlM (fun value c =>
      (digitValue? c).map (value * 10 + ·)) start = some value) ↔
        ∀ c ∈ digits, (digitValue? c).isSome = true from hfold 0
  induction digits with
  | nil => simp
  | cons c rest ih =>
      intro start
      rw [List.foldlM_cons, List.forall_mem_cons]
      cases digitValue? c with
      | none => simp
      | some digit => simpa using ih (start * 10 + digit)

theorem functionDigits?_eq_some_iff {id : String} {digits : List Char} :
    functionDigits? id = some digits ↔ ∃ index, Spelled id digits index := by
  have hvalue : digits.any (fun c => (Text.digitValue? c).isNone) = false ↔
      ∃ index, Text.digitsValue? digits = some index := by
    simp [Text.exists_digitsValue?_iff, Option.isSome_iff_ne_none]
  have hlength : "function-".length = "function-".toList.length := rfl
  rw [functionDigits?]
  by_cases hstart : "function-".toList.isPrefixOf id.toList = true
  · obtain ⟨behind, hbehind⟩ := List.isPrefixOf_iff_prefix.mp hstart
    have hdrop : id.toList.drop "function-".length = behind := by
      rw [← hbehind, hlength, List.drop_left]
    simp only [hstart, if_true, hdrop]
    constructor
    · intro hdigits
      split at hdigits
      · contradiction
      next hshaped =>
        obtain rfl := Option.some.inj hdigits
        rw [Bool.or_eq_true, not_or, Bool.not_eq_true, Bool.not_eq_true, hvalue] at hshaped
        obtain ⟨hne, index, hindex⟩ := hshaped
        exact ⟨index, hbehind.symm, List.isEmpty_eq_false_iff.mp hne, hindex⟩
    · rintro ⟨index, htext, hne, hindex⟩
      obtain rfl : behind = digits := List.append_cancel_left (hbehind.trans htext)
      have hempty : behind.isEmpty = false := List.isEmpty_eq_false_iff.mpr hne
      rw [hempty, hvalue.mpr ⟨index, hindex⟩]
      simp
  · rw [if_neg hstart]
    constructor
    · intro hnone
      contradiction
    · rintro ⟨index, htext, -, -⟩
      exact absurd (List.isPrefixOf_iff_prefix.mpr ⟨digits, htext.symm⟩) hstart

namespace Spelled

variable {contract : Contract} {id : String} {digits other : List Char} {index place : Nat}

theorem digits_eq (hspelled : Spelled id digits index) (hother : Spelled id other place) :
    digits = other :=
  List.append_cancel_left (hspelled.text.symm.trans hother.text)

theorem index_eq (hspelled : Spelled id digits index) (hother : Spelled id other place) :
    index = place := by
  obtain rfl := hspelled.digits_eq hother
  exact Option.some.inj (hspelled.value.symm.trans hother.value)

theorem functionDigits? (hspelled : Spelled id digits index) :
    functionDigits? id = some digits :=
  functionDigits?_eq_some_iff.mpr ⟨index, hspelled⟩

theorem ofDigits (hspelled : Spelled id digits index) : Numeral.ofDigits digits =
    if Numeral.digitLimit < digits.length then .error (.tooLong digits.length) else .ok index := by
  have hempty : digits.isEmpty = false := List.isEmpty_eq_false_iff.mpr hspelled.ne_nil
  rw [Numeral.ofDigits, hempty, hspelled.value]
  rfl

/-- The identity of a node is a spelling of its index. -/
theorem node (index : Nat) :
    Spelled (NodeId.function index).text (Nat.toDigits 10 index) index where
  text := toList_text_function index
  ne_nil := Nat.toDigits_ne_nil
  value := Text.digitsValue?_toDigits index

end Spelled

namespace Contract

variable {contract : Contract} {id : String}

/-- The three things that can become of an identity. -/
theorem select_cases (contract : Contract) (id : String) :
    (∃ digits index, Spelled id digits index ∧ Numeral.digitLimit < digits.length ∧
        contract.select id = .error (.numeralTooLong digits.length)) ∨
      (∃ digits index function, Spelled id digits index ∧ digits.length ≤ Numeral.digitLimit ∧
        contract.functions[index]? = some function ∧ contract.select id = .ok function) ∨
      ((∀ digits index, Spelled id digits index →
          digits.length ≤ Numeral.digitLimit ∧ contract.functions.length ≤ index) ∧
        contract.select id = .error (.notFound id)) := by
  by_cases hspelled : ∃ digits index, Spelled id digits index
  · obtain ⟨digits, index, hspelled⟩ := hspelled
    simp only [select, hspelled.functionDigits?, hspelled.ofDigits]
    by_cases hlong : Numeral.digitLimit < digits.length
    · exact .inl ⟨digits, index, hspelled, hlong, by simp only [hlong, if_true]⟩
    · simp only [hlong, if_false]
      right
      cases hfound : contract.functions[index]? with
      | some function =>
          exact .inl ⟨digits, index, function, hspelled, Nat.not_lt.mp hlong, hfound, rfl⟩
      | none =>
          refine .inr ⟨fun other place hother => ?_, rfl⟩
          rw [← hspelled.digits_eq hother, ← hspelled.index_eq hother]
          exact ⟨Nat.not_lt.mp hlong, List.getElem?_eq_none_iff.mp hfound⟩
  · have hnone : functionDigits? id = none := by
      rw [Option.eq_none_iff_forall_ne_some]
      exact fun digits hdigits => hspelled ⟨digits, functionDigits?_eq_some_iff.mp hdigits⟩
    rw [select, hnone]
    refine .inr (.inr ⟨fun digits index hother => ?_, rfl⟩)
    exact absurd ⟨digits, index, hother⟩ hspelled

theorem select_eq_ok_iff {function : FunctionRecord} :
    contract.select id = .ok function ↔ ∃ digits index, Spelled id digits index ∧
      digits.length ≤ Numeral.digitLimit ∧ contract.functions[index]? = some function := by
  rcases contract.select_cases id with ⟨digits, index, hspelled, hlong, hselect⟩ |
    ⟨digits, index, found, hspelled, hshort, hfound, hselect⟩ | ⟨hnone, hselect⟩ <;> rw [hselect]
  · refine iff_of_false (by simp) ?_
    rintro ⟨other, place, hother, hshort, -⟩
    rw [← hspelled.digits_eq hother] at hshort
    omega
  · constructor
    · rintro ⟨⟩
      exact ⟨digits, index, hspelled, hshort, hfound⟩
    · rintro ⟨other, place, hother, -, hfunction⟩
      rw [← hspelled.index_eq hother, hfound] at hfunction
      rw [Option.some.inj hfunction]
  · refine iff_of_false (by simp) ?_
    rintro ⟨digits, index, hspelled, -, hfunction⟩
    obtain ⟨hindex, -⟩ := List.getElem?_eq_some_iff.mp hfunction
    have hbeyond := (hnone digits index hspelled).2
    omega

theorem select_eq_tooLong_iff {count : Nat} :
    contract.select id = .error (.numeralTooLong count) ↔ ∃ digits index,
      Spelled id digits index ∧ digits.length = count ∧ Numeral.digitLimit < count := by
  rcases contract.select_cases id with ⟨digits, index, hspelled, hlong, hselect⟩ |
    ⟨digits, index, found, hspelled, hshort, hfound, hselect⟩ | ⟨hnone, hselect⟩ <;> rw [hselect]
  · constructor
    · rintro ⟨⟩
      exact ⟨digits, index, hspelled, rfl, hlong⟩
    · rintro ⟨other, place, hother, rfl, -⟩
      rw [hspelled.digits_eq hother]
  · refine iff_of_false (by simp) ?_
    rintro ⟨other, place, hother, rfl, hlong⟩
    rw [← hspelled.digits_eq hother] at hlong
    omega
  · refine iff_of_false (by simp) ?_
    rintro ⟨digits, index, hspelled, rfl, hlong⟩
    have hshort := (hnone digits index hspelled).1
    omega

/-- An identity is refused, and the refusal tells it, unless it is a spelling with too many
digits or that of a function. -/
theorem select_eq_notFound_iff {told : String} :
    contract.select id = .error (.notFound told) ↔ told = id ∧ ∀ digits index,
      Spelled id digits index →
        digits.length ≤ Numeral.digitLimit ∧ contract.functions.length ≤ index := by
  rcases contract.select_cases id with ⟨digits, index, hspelled, hlong, hselect⟩ |
    ⟨digits, index, found, hspelled, hshort, hfound, hselect⟩ | ⟨hnone, hselect⟩ <;> rw [hselect]
  · refine iff_of_false (by simp) ?_
    rintro ⟨-, hall⟩
    have hshort := (hall digits index hspelled).1
    omega
  · refine iff_of_false (by simp) ?_
    rintro ⟨-, hall⟩
    obtain ⟨hindex, -⟩ := List.getElem?_eq_some_iff.mp hfound
    have hbeyond := (hall digits index hspelled).2
    omega
  · simp only [Except.error.injEq, SelectionError.notFound.injEq]
    exact ⟨fun htold => ⟨htold.symm, hnone⟩, fun htold => htold.1.symm⟩

end Contract

end ContractAtlas
