import ContractAtlas.Contract
import ContractAtlas.Proofs.Json.RoundTrip

/-!
# Interface lists as text and as values

An interface list may be given as text or as a list of values that were read before.
Both lead to the same extraction if the text is the compact one, because that text is
read as the values it was written for.  The limit on nesting is far below what the reader
can keep open.
-/

namespace ContractAtlas

namespace Json

variable {entries : List Json}

theorem exists_compact_arr_eq_cons (entries : List Json) :
    ∃ rest, (arr entries).compact = .char '[' :: rest := by
  rw [compact, write]
  exact ⟨_, rfl⟩

/-- An interface list whose entries are carried by compact text, nested in at most 299
levels each. -/
theorem exists_read_compact_arr (hportable : ∀ entry ∈ entries, entry.Portable)
    (hnesting : ∀ entry ∈ entries, entry.nesting < 300) :
    ∃ text : String, Text.ofString text = (arr entries).compact ∧
      Text.allBlank text.toList = false ∧ read text.toList = .ok (arr entries) := by
  have hitems : nestingItems entries ≤ 299 := nestingItems_le_iff.mpr fun entry hentry =>
    Nat.le_of_lt_succ (hnesting entry hentry)
  have hroom : (arr entries).nesting ≤ nestingLimit := by
    rw [nesting, nestingLimit]
    omega
  obtain ⟨chars, hchars, hread⟩ := (Portable.arr hportable).exists_read_compact hroom
  obtain ⟨rest, hrest⟩ := exists_compact_arr_eq_cons entries
  have hblank : Text.allBlank chars = false := by
    cases chars with
    | nil =>
        rw [hrest] at hchars
        contradiction
    | cons c tail =>
        rw [hrest] at hchars
        obtain rfl : '[' = c := by
          injection hchars with hpoint
          injection hpoint
        rfl
  refine ⟨String.ofList chars, ?_, ?_, ?_⟩
  · rw [Text.ofString, String.toList_ofList, hchars]
  · rw [String.toList_ofList, hblank]
  · rw [String.toList_ofList, hread]

end Json

/-- A text that is read as a list is an interface list. -/
theorem Extraction.ofText_of_read_arr {text : String} {entries : List Json}
    (hblank : Text.allBlank text.toList = false)
    (hread : Json.read text.toList = .ok (.arr entries)) :
    ofText text = .ok (ofEntries (Text.ofString text) entries none) := by
  have hprobe : Probe.ofText text = .interface entries none := by
    rw [Probe.ofText, hread]
  rw [ofText, hblank, hprobe]
  rfl

/-- The compact text of an interface list and the list itself are extracted and analysed
alike. -/
theorem Contract.ofText_compact {entries : List Json}
    (hportable : ∀ entry ∈ entries, entry.Portable)
    (hnesting : ∀ entry ∈ entries, entry.nesting < 300) :
    ∃ text : String, Text.ofString text = (Json.arr entries).compact ∧
      Extraction.ofText text = .ok (Extraction.ofInterface entries) ∧
      ofText text = .ok (ofInterface entries) := by
  obtain ⟨text, htext, hblank, hread⟩ := Json.exists_read_compact_arr hportable hnesting
  have hextract : Extraction.ofText text = .ok (Extraction.ofInterface entries) := by
    rw [Extraction.ofText_of_read_arr hblank hread, htext, Extraction.ofInterface]
  refine ⟨text, htext, hextract, ?_⟩
  rw [ofText, hextract]
  rfl

/-- A function whose parameter is named with a quote, a backslash, a control character and
letters beyond ASCII, among values of every portable kind. -/
def escapedEntries : List Json := [
  .record [
    ("type", .ofString "function"),
    ("name", .ofString "übertrag\"\\\n\x01/𝔵"),
    ("inputs", .arr [.record [("name", .ofString ""), ("type", .ofString "uint256")]]),
    ("outputs", .arr []),
    ("constant", .null),
    ("payable", .bool true),
    ("", .record []),
    ("gas", .arr [.int (-10), .int 0, .int 340282366920938463463374607431768211456])],
  .bool false, .arr [.arr []]]

theorem portable_escapedEntries : ∀ entry ∈ escapedEntries, entry.Portable := by
  have hint : ∀ value ∈ [-10, 0, 340282366920938463463374607431768211456],
      (Nat.toDigits 10 (Int.natAbs value)).length ≤ Numeral.digitLimit := by decide +kernel
  have hgas : (Json.arr [.int (-10), .int 0,
      .int 340282366920938463463374607431768211456]).Portable := by
    refine .arr fun item hitem => ?_
    simp only [List.mem_cons, List.not_mem_nil, or_false] at hitem
    rcases hitem with rfl | rfl | rfl <;> exact .int (hint _ (by simp))
  have hinput : (Json.record [("name", .ofString ""), ("type", .ofString "uint256")]).Portable := by
    refine .record (by decide) ?_
    simp [Json.Portable.ofString]
  have hempty : (Json.arr []).Portable := .arr (by simp)
  simp only [escapedEntries, List.forall_mem_cons]
  refine ⟨.record (by decide) ?_, .bool _, .arr (by simp [hempty]), by simp⟩
  simp only [List.forall_mem_cons]
  exact ⟨.ofString _, .ofString _, .arr (by simp [hinput]), hempty, .null, .bool _,
    .record (by simp) (by simp), hgas, by simp⟩

theorem ofText_compact_escapedEntries :
    (Extraction.ofInterface escapedEntries).functions.map
        (fun function => (function.name, function.inputs, function.mutability)) =
      [("übertrag\"\\\n\x01/𝔵", [⟨"", "uint256", none⟩], .payable)] ∧
    ∃ text : String, Text.ofString text = (Json.arr escapedEntries).compact ∧
      Extraction.ofText text = .ok (Extraction.ofInterface escapedEntries) ∧
      Contract.ofText text = .ok (Contract.ofInterface escapedEntries) :=
  ⟨by decide +kernel,
    Contract.ofText_compact portable_escapedEntries (by decide +kernel)⟩

end ContractAtlas
