import ContractAtlas.Proofs.Canonical.Members
import ContractAtlas.Proofs.Canonical.StateVariables

/-!
# Extraction from canonical sources

The heading is read as it was written, and together with what was read of each kind of
declaration it makes up the extraction: extraction undoes the writing of canonical sources.
-/

namespace ContractAtlas.Canonical

open ContractAtlas.Source ContractAtlas.Text

variable (source : Source) (layout : Layout)

/-- A canonical source starts with the word `contract`. -/
theorem exists_text_append : ∃ rest, source.text layout = "contract".toList ++
    ' ' :: (source.name.chars ++ (inheritanceClause source.parents ++ ' ' :: '{' :: rest)) := by
  unfold Source.text Source.heading
  simp only [List.append_assoc, List.cons_append, List.nil_append]
  exact ⟨_, rfl⟩

theorem exists_text_cons : ∃ c rest, source.text layout = c :: rest ∧ isBlank c = false := by
  obtain ⟨rest, htext⟩ := exists_text_append source layout
  have hword : IsRun "contract".toList := isRun_of_mem_reservedWords (by decide)
  obtain ⟨c, tail, hcons, hc⟩ := hword.exists_cons
  rw [hcons, List.cons_append] at htext
  exact ⟨c, _, htext, isBlank_of_isPlain hc⟩

theorem allBlank_text : allBlank (source.text layout) = false := by
  obtain ⟨c, rest, htext, hc⟩ := exists_text_cons source layout
  rw [htext, allBlank, List.all_cons, hc, Bool.false_and]

/-- The heading names the contract and its parents. -/
theorem first?_titleShape : first? titleShape (source.text layout) =
    some ⟨source.name.name, source.parents.map (·.name)⟩ := by
  have hread : ∃ left, titleShape none (source.text layout) =
      some (⟨source.name.name, source.parents.map (·.name)⟩, left) := by
    have hbefore : (none : Option Char).any isQualified = false := rfl
    have hmark : ∀ rest, MarkNext (inheritanceClause source.parents ++ ' ' :: '{' :: rest) := by
      intro rest
      cases source.parents <;> exact markNext_cons (by decide) _
    obtain ⟨rest, htext⟩ := exists_text_append source layout
    unfold titleShape
    simp only [Option.bind_eq_bind]
    rw [htext, bind_keyword_name hbefore source.name (hmark rest), inheritance_inheritanceClause,
      Identifier.chars, String.ofList_toList]
    exact ⟨_, rfl⟩
  obtain ⟨left, hread⟩ := hread
  obtain ⟨c, rest, htext, -⟩ := exists_text_cons source layout
  rw [htext] at hread ⊢
  exact first?_of_read hread

theorem first?_versionShape : first? versionShape (source.text layout) = none :=
  (passes_versionShape.quiet_text (fun _ => trivial) (by decide) source layout).first?_eq_none

theorem first?_licenseShape : first? licenseShape (source.text layout) = none :=
  (passes_licenseShape.quiet_text (fun _ => trivial) (by decide) source layout).first?_eq_none

/-- From the text of a canonical source everything is extracted that it declares, each
declaration at its place, and nothing else. -/
theorem Source.ofSource_text :
    Extraction.ofSource (String.ofList (source.text layout)) = .ok (source.extraction layout) := by
  rw [Extraction.ofSource, String.toList_ofList, allBlank_text, if_neg Bool.false_ne_true,
    Extraction.ofDeclarations, String.toList_ofList]
  simp only [first?_titleShape, first?_versionShape, first?_licenseShape, modifiers_text,
    functions_text, events_text, stateVariables_text, Option.isNone_some, Bool.false_and,
    Bool.false_eq_true, if_false]
  rfl

end ContractAtlas.Canonical
