import ContractAtlas.Proofs.Extraction
import ContractAtlas.Proofs.Json.Strings
import ContractAtlas.Proofs.Source.Recognition

/-!
# The license of a source

A license is announced by a comment: two strokes, perhaps blanks, and a certain word.  The first
such comment counts, if anything but line feeds stands behind it, and the license is the rest
of the line on which the next visible character stands (`Extraction.holdsLicense_of_ofSource`).

That is the line of the comment itself, if there is something to see on it behind the word.
Otherwise the license is taken from a later line, or it is empty
(`Extraction.not_onOwnLine_unnamedLicense`).
-/

namespace ContractAtlas

namespace Source

open ContractAtlas.Text

/-- The word that announces a license. -/
def licenseWord : String :=
  "SPDX-License-Identifier:"

/-! ## Lines -/

section Line

variable {text line rest : List Char}

def firstLine (text : List Char) : List Char :=
  text.takeWhile (· ≠ '\n')

/-- The text from its first line feed on. -/
def laterLines (text : List Char) : List Char :=
  text.dropWhile (· ≠ '\n')

theorem lines_eq_iff : firstLine text = line ∧ laterLines text = rest ↔
    '\n' ∉ line ∧ (∀ c ∈ rest.head?, c = '\n') ∧ text = line ++ rest := by
  have hline : (∀ c ∈ line, decide (c ≠ '\n') = true) ↔ '\n' ∉ line := by
    simp only [decide_eq_true_eq]
    exact ⟨fun hall hmem => hall _ hmem rfl, fun hnot c hc heq => hnot (heq ▸ hc)⟩
  have hrest : StopsAt (fun c => decide (c ≠ '\n')) rest ↔ ∀ c ∈ rest.head?, c = '\n' := by
    simp only [StopsAt, decide_eq_false_iff_not, not_not]
  rw [← hline, ← hrest]
  exact takeWhile_dropWhile_eq_iff

theorem ne_lineFeed_of_not_isBlank {c : Char} (hc : isBlank c = false) : c ≠ '\n' := by
  rintro rfl
  revert hc
  decide

end Line

/-- The rest of the line on which the first visible character stands, without the blanks
behind it. -/
def identifier (behind : List Char) : List Char :=
  trimEnd (firstLine (trimStart behind))

theorem exists_identifier_append (behind : List Char) : ∃ skipped space,
    behind = skipped ++ (identifier behind ++ (space ++ laterLines (trimStart behind))) ∧
      (∀ c ∈ skipped, isBlank c = true) ∧ (∀ c ∈ space, isBlank c = true) ∧
      '\n' ∉ identifier behind ++ space := by
  obtain ⟨-, skipped, hskipped, hbehind⟩ :=
    trimStart_eq_iff.mp (Eq.refl (trimStart behind))
  obtain ⟨hfree, -, hbody⟩ :=
    lines_eq_iff.mp ⟨Eq.refl (firstLine (trimStart behind)), rfl⟩
  obtain ⟨space, hspace, hline⟩ := exists_eq_trimEnd_append (firstLine (trimStart behind))
  refine ⟨skipped, space, ?_, hskipped, hspace, ?_⟩
  · rw [identifier, ← List.append_assoc (trimEnd _), ← hline, ← hbody]
    exact hbehind
  · rw [identifier, ← hline]
    exact hfree

theorem trim_identifier (behind : List Char) : trim (identifier behind) = identifier behind := by
  obtain ⟨-, -, hbody⟩ := lines_eq_iff.mp ⟨Eq.refl (firstLine (trimStart behind)), rfl⟩
  have hvisible : StopsAt isBlank (trimStart behind) := stopsAt_dropWhile isBlank behind
  rw [hbody] at hvisible
  exact trim_trimEnd hvisible.of_append

theorem identifier_eq_nil_iff {behind : List Char} :
    identifier behind = [] ↔ ∀ c ∈ behind, isBlank c = true := by
  constructor
  · intro hnil
    obtain ⟨hvisible, skipped, hskipped, hbehind⟩ :=
      trimStart_eq_iff.mp (Eq.refl (trimStart behind))
    cases hbody : trimStart behind with
    | nil =>
        rw [hbehind, hbody, List.append_nil]
        exact hskipped
    | cons c body =>
        have hc : isBlank c = false := hvisible c (by rw [hbody]; rfl)
        have hfirst : c ∈ firstLine (c :: body) := by
          rw [firstLine, List.takeWhile_cons_of_pos (by simpa using ne_lineFeed_of_not_isBlank hc)]
          exact List.mem_cons_self
        obtain ⟨space, hspace, hline⟩ := exists_eq_trimEnd_append (firstLine (trimStart behind))
        rw [← identifier, hnil, List.nil_append, hbody] at hline
        have hblank : isBlank c = true := hspace c (hline ▸ hfirst)
        rw [hc] at hblank
        contradiction
  · intro hblank
    have hnil : trimStart behind = [] := trimStart_eq_iff.mpr
      ⟨fun _ hc => by contradiction, behind, hblank, (List.append_nil _).symm⟩
    rw [identifier, hnil]
    rfl

/-- An identifier is determined by what stands around it. -/
theorem identifier_eq {behind skipped license space rest : List Char}
    (hbehind : behind = skipped ++ (license ++ (space ++ rest)))
    (hskipped : ∀ c ∈ skipped, isBlank c = true) (hspace : ∀ c ∈ space, isBlank c = true)
    (hline : '\n' ∉ license ++ space) (hrest : ∀ c ∈ rest.head?, c = '\n')
    (htrim : trim license = license) (hne : license ≠ []) : identifier behind = license := by
  have hvisible : StopsAt isBlank license := htrim ▸ stopsAt_trim license
  have hstart : trimStart behind = license ++ (space ++ rest) := by
    refine trimStart_eq_iff.mpr ⟨?_, skipped, hskipped, hbehind⟩
    obtain ⟨c, more, rfl⟩ := List.exists_cons_of_ne_nil hne
    exact hvisible
  have hfirst : firstLine (trimStart behind) = license ++ space := by
    rw [hstart, ← List.append_assoc]
    exact (lines_eq_iff.mpr ⟨hline, hrest, rfl⟩).1
  calc
    identifier behind = trimEnd (license ++ space) := by rw [identifier, hfirst]
    _ = trimEnd (trim license) := by rw [trimEnd_append_of_isBlank hspace, htrim]
    _ = license := by rw [trim, trimEnd_trimEnd, ← trim, htrim]

/-! ## Announcements -/

/-- A comment in a text that announces a license: what stands in front of it, the blanks
between the strokes and the word, and what stands behind the word. -/
structure LicenseNote (text : List Char) where
  front : List Char
  gap : List Char
  behind : List Char
  text_eq : text = front ++ ("//".toList ++ (gap ++ (licenseWord.toList ++ behind)))
  blank_gap : ∀ c ∈ gap, isBlank c = true
  exists_behind : ∃ c ∈ behind, c ≠ '\n'

/-- Where only blanks are left there is no line to read, and nothing is read just as well. -/
theorem licenseShape_eq (before : Option Char) (text : List Char) :
    licenseShape before text =
      ((after? "//" text).bind fun rest => after? licenseWord (trimStart rest)).bind fun behind =>
        if behind.any (· ≠ '\n') then
          some (String.ofList (identifier behind), laterLines (trimStart behind))
        else none := by
  rw [licenseShape, Option.bind_assoc]
  refine Option.bind_congr fun rest _ => Option.bind_congr fun behind _ => ?_
  cases hbody : trimStart behind with
  | nil =>
      have hnil : identifier behind = [] := by
        rw [identifier, hbody]
        rfl
      rw [hnil]
      rfl
  | cons c body =>
      obtain ⟨hvisible, space, -, htext⟩ := trimStart_eq_iff.mp hbody
      have hany : behind.any (· ≠ '\n') = true := by
        rw [htext, List.any_append, List.any_cons, decide_eq_true
          (ne_lineFeed_of_not_isBlank (hvisible c rfl))]
        simp
      rw [identifier, hbody]
      exact (if_pos hany).symm

theorem licenseShape_eq_some_iff {before : Option Char} {text rest : List Char}
    {license : String} :
    licenseShape before text = some (license, rest) ↔ ∃ gap behind,
      text = "//".toList ++ (gap ++ (licenseWord.toList ++ behind)) ∧
        (∀ c ∈ gap, isBlank c = true) ∧ (∃ c ∈ behind, c ≠ '\n') ∧
        license = String.ofList (identifier behind) ∧
        rest = laterLines (trimStart behind) := by
  have hword : startsVisibly licenseWord = true := by decide
  simp only [licenseShape_eq, Option.bind_eq_some_iff, after?_eq_some_iff,
    after?_trimStart_eq_some_iff hword, Option.ite_none_right_eq_some, List.any_eq_true,
    decide_eq_true_eq, Option.some.injEq, Prod.mk.injEq]
  constructor
  · rintro ⟨behind, ⟨_, rfl, gap, hgap, rfl⟩, hbehind, rfl, rfl⟩
    exact ⟨gap, behind, rfl, hgap, hbehind, rfl, rfl⟩
  · rintro ⟨gap, behind, rfl, hgap, hbehind, rfl, rfl⟩
    exact ⟨behind, ⟨_, rfl, gap, hgap, rfl⟩, hbehind, rfl, rfl⟩

theorem consumes_licenseShape : Consumes licenseShape := by
  intro before text license rest hread
  obtain ⟨gap, behind, rfl, -, -, -, rfl⟩ := licenseShape_eq_some_iff.mp hread
  obtain ⟨skipped, space, hbehind, -, -, -⟩ := exists_identifier_append behind
  refine ⟨"//".toList ++ (gap ++ (licenseWord.toList ++
    (skipped ++ (identifier behind ++ space)))), by simp, ?_⟩
  conv_lhs => rw [hbehind]
  simp only [List.append_assoc]

section

variable {text : List Char}

/-- What is read is read behind an announcement. -/
theorem exists_note_of_readsIn {found : Occurrence String}
    (hreads : ReadsIn licenseShape text found) : ∃ note : LicenseNote text,
      note.front.length = found.start ∧ found.value = String.ofList (identifier note.behind) := by
  obtain ⟨front, piece, rest, rfl, -, hread, hstart, -⟩ := hreads
  obtain ⟨gap, behind, htext, hgap, hbehind, hvalue, -⟩ := licenseShape_eq_some_iff.mp hread
  exact ⟨⟨front, gap, behind, by rw [htext], hgap, hbehind⟩, hstart.symm, hvalue⟩

/-- Every announcement is read. -/
theorem LicenseNote.exists_readsIn (note : LicenseNote text) : ∃ found : Occurrence String,
    ReadsIn licenseShape text found ∧ found.start = note.front.length ∧
      found.value = String.ofList (identifier note.behind) := by
  have hread : licenseShape note.front.getLast?
      ("//".toList ++ (note.gap ++ (licenseWord.toList ++ note.behind))) =
        some (String.ofList (identifier note.behind), laterLines (trimStart note.behind)) :=
    licenseShape_eq_some_iff.mpr
      ⟨note.gap, note.behind, rfl, note.blank_gap, note.exists_behind, rfl, rfl⟩
  obtain ⟨piece, hne, hpiece⟩ := consumes_licenseShape hread
  have htext := note.text_eq
  rw [hpiece] at hread htext
  exact ⟨⟨_, _, _⟩, ⟨note.front, piece, _, htext, hne, hread, rfl, rfl⟩, rfl, rfl⟩

namespace LicenseNote

/-- No announcement stands in front of this one. -/
def IsFirst (note : LicenseNote text) : Prop :=
  ∀ other : LicenseNote text, note.front.length ≤ other.front.length

/-- What an announcement names: the rest of the line on which the first visible character behind
the word stands, without the blanks behind it.  If only blanks follow, it names nothing. -/
def Names (note : LicenseNote text) (license : List Char) : Prop :=
  ∃ skipped space rest, note.behind = skipped ++ (license ++ (space ++ rest)) ∧
    (∀ c ∈ skipped, isBlank c = true) ∧ (∀ c ∈ space, isBlank c = true) ∧
    '\n' ∉ license ++ space ∧ (∀ c ∈ rest.head?, c = '\n') ∧ trim license = license ∧
    (license = [] → ∀ c ∈ note.behind, isBlank c = true)

/-- An announcement that stands on one line with something visible behind its word. -/
structure IsComplete (note : LicenseNote text) : Prop where
  gap : '\n' ∉ note.gap
  visible : ∃ line rest, note.behind = line ++ rest ∧ '\n' ∉ line ∧
    ∃ c ∈ line, isBlank c = false

theorem names_identifier (note : LicenseNote text) : note.Names (identifier note.behind) := by
  obtain ⟨skipped, space, hbehind, hskipped, hspace, hline⟩ := exists_identifier_append note.behind
  obtain ⟨-, hrest, -⟩ := lines_eq_iff.mp ⟨rfl, Eq.refl (laterLines (trimStart note.behind))⟩
  exact ⟨skipped, space, _, hbehind, hskipped, hspace, hline, hrest,
    trim_identifier note.behind, identifier_eq_nil_iff.mp⟩

/-- An announcement names one thing. -/
theorem Names.eq_identifier {note : LicenseNote text} {license : List Char}
    (hnames : note.Names license) : identifier note.behind = license := by
  obtain ⟨skipped, space, rest, hbehind, hskipped, hspace, hline, hrest, htrim, hempty⟩ := hnames
  by_cases hne : license = []
  · rw [hne]
    exact identifier_eq_nil_iff.mpr (hempty hne)
  · exact identifier_eq hbehind hskipped hspace hline hrest htrim hne

theorem names_iff {note : LicenseNote text} {license : List Char} :
    note.Names license ↔ identifier note.behind = license :=
  ⟨Names.eq_identifier, fun heq => heq ▸ note.names_identifier⟩

end LicenseNote

/-- A license stands on one line with the word that announces it, behind that word, and in front
of the word stand two strokes and perhaps blanks. -/
def OnOwnLine (text license : List Char) : Prop :=
  license ≠ [] ∧ trim license = license ∧ ∃ gap between,
    (∀ c ∈ gap, isBlank c = true) ∧ '\n' ∉ gap ++ (licenseWord.toList ++ (between ++ license)) ∧
      "//".toList ++ (gap ++ (licenseWord.toList ++ (between ++ license))) <:+: text

/-- Blanks that lead to another line would lead past what is visible on this one. -/
theorem LicenseNote.IsComplete.onOwnLine {note : LicenseNote text} (hcomplete : note.IsComplete)
    {license : List Char} (hnames : note.Names license) : OnOwnLine text license := by
  obtain ⟨line, later, hlater, hline, c, hc, hvisible⟩ := hcomplete.visible
  obtain ⟨skipped, space, rest, hbehind, hskipped, -, hfree, -, htrim, hempty⟩ := hnames
  have hmem : c ∈ note.behind := by
    rw [hlater]
    exact List.mem_append_left later hc
  have hne : license ≠ [] := by
    intro hnil
    have hblank := hempty hnil c hmem
    rw [hvisible] at hblank
    contradiction
  have hsame : '\n' ∉ skipped := by
    have hleft : skipped <+: note.behind := ⟨_, hbehind.symm⟩
    have hright : line <+: note.behind := ⟨_, hlater.symm⟩
    rcases List.prefix_or_prefix_of_prefix hleft hright with hinside | hinside
    · exact fun hfeed => hline (hinside.subset hfeed)
    · have hblank := hskipped c (hinside.subset hc)
      rw [hvisible] at hblank
      contradiction
  have hword : '\n' ∉ licenseWord.toList := by decide
  have hlicense : '\n' ∉ license := fun hfeed => hfree (List.mem_append_left space hfeed)
  refine ⟨hne, htrim, note.gap, skipped, note.blank_gap, ?_, note.front, space ++ rest, ?_⟩
  · simp only [List.mem_append, not_or]
    exact ⟨hcomplete.gap, hword, hsame, hlicense⟩
  · conv_rhs => rw [note.text_eq, hbehind]
    simp only [List.append_assoc]

/-- The license that a text is under. -/
structure HoldsLicense (text : List Char) (license : Option String) : Prop where
  none_iff : license = none ↔ IsEmpty (LicenseNote text)
  some_iff : ∀ value, license = some value ↔
    ∃ note : LicenseNote text, note.IsFirst ∧ note.Names value.toList
  onOwnLine : ∀ note : LicenseNote text, note.IsFirst → note.IsComplete →
    ∃ value, license = some value ∧ OnOwnLine text value.toList

theorem first?_licenseShape_eq_none_iff :
    first? licenseShape text = none ↔ IsEmpty (LicenseNote text) := by
  rw [consumes_licenseShape.first?_eq_none_iff]
  constructor
  · intro hnone
    refine ⟨fun note => ?_⟩
    obtain ⟨found, hreads, -⟩ := note.exists_readsIn
    exact hnone found hreads
  · intro hempty found hreads
    obtain ⟨note, -⟩ := exists_note_of_readsIn hreads
    exact hempty.false note

theorem first?_licenseShape_eq_some_iff {value : String} :
    first? licenseShape text = some value ↔
      ∃ note : LicenseNote text, note.IsFirst ∧ note.Names value.toList := by
  rw [consumes_licenseShape.first?_eq_some_iff]
  constructor
  · rintro ⟨found, hreads, rfl, hfirst⟩
    obtain ⟨note, hstart, hvalue⟩ := exists_note_of_readsIn hreads
    refine ⟨note, fun other => ?_, ?_⟩
    · obtain ⟨next, hnext, hplace, -⟩ := other.exists_readsIn
      rw [hstart, ← hplace]
      exact hfirst next hnext
    · rw [LicenseNote.names_iff, hvalue, String.toList_ofList]
  · rintro ⟨note, hfirst, hnames⟩
    obtain ⟨found, hreads, hstart, hvalue⟩ := note.exists_readsIn
    refine ⟨found, hreads, ?_, fun other hother => ?_⟩
    · rw [hvalue, hnames.eq_identifier, String.ofList_toList]
    · obtain ⟨next, hplace, -⟩ := exists_note_of_readsIn hother
      rw [hstart, ← hplace]
      exact hfirst next

theorem holdsLicense_first? (text : List Char) : HoldsLicense text (first? licenseShape text) where
  none_iff := first?_licenseShape_eq_none_iff
  some_iff := fun _ => first?_licenseShape_eq_some_iff
  onOwnLine := by
    intro note hfirst hcomplete
    have hnames := note.names_identifier
    refine ⟨String.ofList (identifier note.behind), ?_, ?_⟩
    · rw [first?_licenseShape_eq_some_iff, String.toList_ofList]
      exact ⟨note, hfirst, hnames⟩
    · rw [String.toList_ofList]
      exact hcomplete.onOwnLine hnames

end

end Source

namespace Extraction

open Source

/-- The license of a source is what its first announcement names.  It stands on the line of the
announcement, if that line shows anything behind the word. -/
theorem holdsLicense_of_ofSource {text : String} {extraction : Extraction}
    (hextract : ofSource text = .ok extraction) :
    HoldsLicense text.toList extraction.license := by
  rw [ofDeclarations_eq_ok (ofDeclarations_of_ofSource hextract)]
  exact holdsLicense_first? text.toList

/-- A license on the line of its announcement, with a tab and trailing blanks, and another
announcement behind it. -/
def licensedSource : String :=
  "//\tSPDX-License-Identifier: MIT OR Apache-2.0 \n" ++
    "// SPDX-License-Identifier: none\ncontract Vault \x7b \x7d"

theorem holdsLicense_licensedSource :
    ∃ extraction, ofSource licensedSource = .ok extraction ∧
      extraction.license = some "MIT OR Apache-2.0" ∧
      HoldsLicense licensedSource.toList extraction.license := by
  have hlicense : (ofSource licensedSource).map (·.license) = .ok (some "MIT OR Apache-2.0") := by
    decide +kernel
  obtain ⟨extraction, hextract, hlicense⟩ := exists_of_map_eq_ok hlicense
  exact ⟨extraction, hextract, hlicense, holdsLicense_of_ofSource hextract⟩

/-- An announcement with nothing behind it on its line. -/
def unnamedLicense : String :=
  "// SPDX-License-Identifier:\ncontract Vault \x7b \x7d"

/-- The declaration on the next line is taken for the license. -/
theorem not_onOwnLine_unnamedLicense :
    ∃ extraction, ofSource unnamedLicense = .ok extraction ∧
      extraction.license = some "contract Vault \x7b \x7d" ∧
      ∀ license, extraction.license = some license →
        ¬ OnOwnLine unnamedLicense.toList license.toList := by
  have hlicense : (ofSource unnamedLicense).map (·.license) =
      .ok (some "contract Vault \x7b \x7d") := by decide +kernel
  obtain ⟨extraction, hextract, hlicense⟩ := exists_of_map_eq_ok hlicense
  refine ⟨extraction, hextract, hlicense, fun license hvalue => ?_⟩
  obtain rfl := Option.some.inj (hlicense.symm.trans hvalue)
  rintro ⟨-, -, gap, between, -, hline, hinside⟩
  have hlines : unnamedLicense.toList =
      "// SPDX-License-Identifier:".toList ++ '\n' :: "contract Vault \x7b \x7d".toList := by
    decide
  have hpiece : '\n' ∉ "//".toList ++ (gap ++ (licenseWord.toList ++
      (between ++ "contract Vault \x7b \x7d".toList))) := by
    rw [List.mem_append, not_or]
    exact ⟨by decide, hline⟩
  rw [hlines] at hinside
  rcases Json.infix_append_cons hpiece hinside with hfirst | hsecond
  · have hmem : 'V' ∈ "// SPDX-License-Identifier:".toList := hfirst.subset (by simp)
    revert hmem
    decide
  · have hmem : '/' ∈ "contract Vault \x7b \x7d".toList := hsecond.subset (by simp)
    revert hmem
    decide

end Extraction

end ContractAtlas
