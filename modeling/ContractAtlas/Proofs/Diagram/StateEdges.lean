import ContractAtlas.Proofs.Attribution
import ContractAtlas.Proofs.Diagram.FunctionNodes
import ContractAtlas.Proofs.Source.Placement
import Mathlib.Data.Nat.Find

/-!
# Who is drawn to assign what

A state variable lists the functions that assign it by their names, and the state diagram
draws an edge from every function whose name is on the list.  Where several functions have
one name, an edge therefore says no more than that one of them assigns the variable.

The scopes of a source are tails of one text, and shrink from function to function.  So of
several functions with one name the first assigns all that any of them assigns, and it alone
decides which edges the others get (`drawsAssignments_of_ofSource`).  A function is drawn by
what its own scope assigns exactly as long as no earlier function of its name assigns more.
-/

namespace ContractAtlas

namespace Diagram.StateAccess

variable {contract : Contract} {source target : Nat}

/-- A function at a place is drawn with an edge to a variable at a place. -/
def Draws (contract : Contract) (source target : Nat) : Prop :=
  (NodeId.function source, NodeId.variable target) ∈ (stateAccess contract).ends

instance : Decidable (Draws contract source target) := by
  unfold Draws
  infer_instance

theorem exists_of_mem_ends {ends : NodeId × NodeId} (hends : ends ∈ (stateAccess contract).ends) :
    ∃ source target, ends = (.function source, .variable target) := by
  rw [ends_stateAccess] at hends
  obtain ⟨writer, -, hrow⟩ := List.mem_flatMap.mp hends
  obtain ⟨entry, -, rfl⟩ := List.mem_map.mp hrow
  exact ⟨writer.2, entry.2, rfl⟩

/-- An edge is drawn if the variable lists the name of the function. -/
theorem draws_iff : Draws contract source target ↔
    ∃ function ∈ contract.functions[source]?, ∃ declaration ∈ contract.stateVariables[target]?,
      function.name ∈ declaration.writtenBy := by
  rw [Draws, ends_stateAccess, List.mem_flatMap]
  constructor
  · rintro ⟨⟨function, index⟩, hwriter, hrow⟩
    obtain ⟨⟨declaration, place⟩, hentry, hpair⟩ := List.mem_map.mp hrow
    obtain ⟨hsource, htarget⟩ := Prod.mk.inj hpair
    obtain rfl := NodeId.function.inj hsource
    obtain rfl := NodeId.variable.inj htarget
    obtain ⟨hvariable, hassigns⟩ := List.mem_filter.mp hentry
    exact ⟨function, (mem_writers_iff.mp hwriter).1, declaration,
      List.mem_zipIdx_iff_getElem?.mp hvariable, List.contains_iff_mem.mp hassigns⟩
  · rintro ⟨function, hfunction, declaration, hvariable, hname⟩
    refine ⟨(function, source), ?_, ?_⟩
    · exact mem_writers_iff.mpr ⟨hfunction, declaration, List.mem_of_getElem? hvariable, hname⟩
    · apply List.mem_map.mpr
      refine ⟨(declaration, target), List.mem_filter.mpr ⟨?_, ?_⟩, rfl⟩
      · exact List.mem_zipIdx_iff_getElem?.mpr hvariable
      · exact List.contains_iff_mem.mpr hname

/-- A function has a node if an edge leads away from it. -/
theorem function_mem_ids_iff :
    NodeId.function source ∈ (stateAccess contract).ids ↔
      ∃ target, Draws contract source target := by
  have hwriter : NodeId.function source ∈ (stateAccess contract).ids ↔
      ∃ function, (function, source) ∈ writers contract := by
    rw [ids_stateAccess]
    simp
  rw [hwriter]
  constructor
  · rintro ⟨function, hmem⟩
    obtain ⟨hfunction, declaration, hdeclaration, hname⟩ := mem_writers_iff.mp hmem
    obtain ⟨target, hvariable⟩ := List.getElem?_of_mem hdeclaration
    exact ⟨target, draws_iff.mpr ⟨function, hfunction, declaration, hvariable, hname⟩⟩
  · rintro ⟨target, hdraws⟩
    obtain ⟨function, hfunction, declaration, hvariable, hname⟩ := draws_iff.mp hdraws
    exact ⟨function, mem_writers_iff.mpr
      ⟨hfunction, declaration, List.mem_of_getElem? hvariable, hname⟩⟩

end Diagram.StateAccess

namespace Extraction

open Diagram.StateAccess

variable {extraction : Extraction} {source target left right : Nat}

/-- The scope of a function at a place holds an assignment of the variable at a place. -/
def Assigns (extraction : Extraction) (source target : Nat) : Prop :=
  ∃ function ∈ extraction.functions[source]?, ∃ declaration ∈ extraction.stateVariables[target]?,
    (extraction.scopeOf function).mentions (declaration.name ++ " =") = true

/-- The functions at two places have one name. -/
def Namesakes (extraction : Extraction) (left right : Nat) : Prop :=
  ∃ function ∈ extraction.functions[left]?, ∃ other ∈ extraction.functions[right]?,
    function.name = other.name

instance : Decidable (extraction.Assigns source target) := by
  unfold Assigns
  infer_instance

/-- The first of the functions that have the name of the function at a place. -/
structure FirstNamesake (extraction : Extraction) (first index : Nat) : Prop where
  namesakes : extraction.Namesakes first index
  first_le : ∀ other, extraction.Namesakes other index → first ≤ other

theorem exists_firstNamesake (hnames : extraction.Namesakes left right) :
    ∃ first, extraction.FirstNamesake first right := by
  classical
  have hexists : ∃ other, extraction.Namesakes other right := ⟨left, hnames⟩
  exact ⟨Nat.find hexists, Nat.find_spec hexists, fun other hother => Nat.find_min' hexists hother⟩

theorem mem_writersOf_iff {declaration : VariableDeclaration} {name : String} :
    name ∈ extraction.writersOf declaration ↔ ∃ function ∈ extraction.functions,
      function.name = name ∧
        (extraction.scopeOf function).mentions (declaration.name ++ " =") = true := by
  simp only [writersOf, mentioningFunctions, unique, List.mem_eraseDups, List.mem_map,
    List.mem_filter]
  constructor
  · rintro ⟨function, ⟨hfunction, hmentions⟩, hname⟩
    exact ⟨function, hfunction, hname, hmentions⟩
  · rintro ⟨function, hfunction, hname, hmentions⟩
    exact ⟨function, ⟨hfunction, hmentions⟩, hname⟩

/-- A function is drawn to assign what some function of its name assigns. -/
theorem draws_contract_iff :
    Draws extraction.contract source target ↔
      ∃ other, extraction.Namesakes other source ∧ extraction.Assigns other target := by
  have hfunctions : extraction.contract.functions[source]? =
      extraction.functions[source]?.map extraction.functionRecord := List.getElem?_map ..
  have hvariables : extraction.contract.stateVariables[target]? =
      extraction.stateVariables[target]?.map extraction.variableRecord := List.getElem?_map ..
  rw [draws_iff, hfunctions, hvariables]
  constructor
  · rintro ⟨record, hrecord, variableRecord, hvariableRecord, hname⟩
    obtain ⟨function, hfunction, rfl⟩ := Option.map_eq_some_iff.mp hrecord
    obtain ⟨declaration, hdeclaration, rfl⟩ := Option.map_eq_some_iff.mp hvariableRecord
    obtain ⟨writer, hwriter, hsame, hmentions⟩ := mem_writersOf_iff.mp hname
    obtain ⟨other, hother⟩ := List.getElem?_of_mem hwriter
    exact ⟨other, ⟨writer, hother, function, hfunction, hsame⟩,
      writer, hother, declaration, hdeclaration, hmentions⟩
  · rintro ⟨other, ⟨writer, hother, function, hfunction, hname⟩, same, hsame, declaration,
      hdeclaration, hmentions⟩
    obtain rfl : writer = same := Option.some.inj (hother.symm.trans hsame)
    refine ⟨_, Option.mem_map_of_mem _ hfunction, _, Option.mem_map_of_mem _ hdeclaration, ?_⟩
    exact mem_writersOf_iff.mpr ⟨writer, List.mem_of_getElem? hother, hname, hmentions⟩

/-- Scopes that are tails of one text shrink, so an earlier function assigns what a later one
assigns. -/
theorem ScopesAreTails.assigns_of_le {text : Text} (htails : extraction.ScopesAreTails text)
    (hle : left ≤ right) (hassigns : extraction.Assigns right target) :
    extraction.Assigns left target := by
  obtain ⟨later, hlater, declaration, hdeclaration, hmentions⟩ := hassigns
  obtain ⟨hbound, hget⟩ := List.getElem?_eq_some_iff.mp hlater
  rcases Nat.lt_or_eq_of_le hle with hlt | rfl
  · have hearlier : left < extraction.functions.length := hlt.trans hbound
    refine ⟨extraction.functions[left], List.getElem?_eq_getElem hearlier, declaration,
      hdeclaration, ?_⟩
    rw [htails.mentions_scopeOf (List.getElem_mem _)]
    rw [htails.mentions_scopeOf (List.mem_of_getElem? hlater), ← hget] at hmentions
    exact List.pairwise_iff_getElem.mp (htails.pairwise_isUpTo _) left right _ hbound hlt hmentions
  · exact ⟨later, hlater, declaration, hdeclaration, hmentions⟩

/-! ## The law of the state diagram -/

/-- Every function is drawn by what its own scope assigns. -/
structure DrawsOwnAssignments (extraction : Extraction) : Prop where
  draws_iff : ∀ source target,
    Draws extraction.contract source target ↔ extraction.Assigns source target
  node_iff : ∀ source, NodeId.function source ∈ (Diagram.stateAccess extraction.contract).ids ↔
    ∃ target, Draws extraction.contract source target

/-- What the state diagram of an extraction draws. -/
structure DrawsAssignments (extraction : Extraction) : Prop where
  ends : ∀ ends ∈ (Diagram.stateAccess extraction.contract).ends,
    ∃ source target, ends = (.function source, .variable target)
  draws_iff : ∀ source target, Draws extraction.contract source target ↔
    ∃ first, extraction.FirstNamesake first source ∧ extraction.Assigns first target
  node_iff : ∀ source, NodeId.function source ∈ (Diagram.stateAccess extraction.contract).ids ↔
    ∃ target, Draws extraction.contract source target
  own_iff : extraction.DrawsOwnAssignments ↔ ∀ earlier later target, earlier < later →
    extraction.Namesakes earlier later → extraction.Assigns earlier target →
      extraction.Assigns later target

theorem assigns_of_firstNamesake {text : Text} (htails : extraction.ScopesAreTails text)
    {first : Nat} (hfirst : extraction.FirstNamesake first source)
    (hnames : extraction.Namesakes left source) (hassigns : extraction.Assigns left target) :
    extraction.Assigns first target :=
  htails.assigns_of_le (hfirst.first_le left hnames) hassigns

theorem draws_iff_firstNamesake {text : Text} (htails : extraction.ScopesAreTails text) :
    Draws extraction.contract source target ↔
      ∃ first, extraction.FirstNamesake first source ∧ extraction.Assigns first target := by
  rw [draws_contract_iff]
  constructor
  · rintro ⟨other, hnames, hassigns⟩
    obtain ⟨first, hfirst⟩ := exists_firstNamesake hnames
    exact ⟨first, hfirst, assigns_of_firstNamesake htails hfirst hnames hassigns⟩
  · rintro ⟨first, hfirst, hassigns⟩
    exact ⟨first, hfirst.namesakes, hassigns⟩

theorem namesakes_self (hassigns : extraction.Assigns source target) :
    extraction.Namesakes source source := by
  obtain ⟨function, hfunction, -⟩ := hassigns
  exact ⟨function, hfunction, function, hfunction, rfl⟩

/-- The diagram shows what each function assigns itself exactly if no function assigns more
than a later one of its name. -/
theorem drawsOwnAssignments_iff {text : Text} (htails : extraction.ScopesAreTails text) :
    extraction.DrawsOwnAssignments ↔ ∀ earlier later target, earlier < later →
      extraction.Namesakes earlier later → extraction.Assigns earlier target →
        extraction.Assigns later target := by
  constructor
  · intro hown earlier later target _ hnames hassigns
    exact (hown.draws_iff later target).mp (draws_contract_iff.mpr ⟨earlier, hnames, hassigns⟩)
  · intro hkept
    refine ⟨fun source target => ?_, fun source => function_mem_ids_iff⟩
    rw [draws_contract_iff]
    constructor
    · rintro ⟨other, hnames, hassigns⟩
      rcases Nat.lt_or_ge other source with hlt | hge
      · exact hkept other source target hlt hnames hassigns
      · exact htails.assigns_of_le hge hassigns
    · intro hassigns
      exact ⟨source, namesakes_self hassigns, hassigns⟩

/-- In the state diagram of a source the first function of a name decides for all functions
of the name. -/
theorem drawsAssignments_of_ofSource {text : String} {extraction : Extraction}
    (hextract : ofSource text = .ok extraction) : extraction.DrawsAssignments := by
  have htails := scopesAreTails_of_ofSource hextract
  exact {
    ends := fun _ => exists_of_mem_ends
    draws_iff := fun _ _ => draws_iff_firstNamesake htails
    node_iff := fun _ => function_mem_ids_iff
    own_iff := drawsOwnAssignments_iff htails }

/-- Two functions with one name, the first of which assigns a variable. -/
def overloadedSetter : String :=
  "contract Counter \x7b uint public count; function set(uint x) \x7b count = x; \x7d " ++
    "function set() \x7b \x7d \x7d"

theorem stateVariables_overloadedSetter : Source.stateVariables overloadedSetter.toList =
    [{ name := "count", type := "uint", visibility := .publicly, offset := 19 }] := by
  have hnone : Source.occurrences Source.visibilityFirstShape overloadedSetter.toList = [] := by
    decide +kernel
  rw [Source.stateVariables, Source.variableOccurrences_of_visibilityFirst_eq_nil hnone]
  decide +kernel

theorem drawsAssignments_overloadedSetter :
    ∃ extraction, ofSource overloadedSetter = .ok extraction ∧
      (Diagram.stateAccess extraction.contract).ends =
        [(.function 0, .variable 0), (.function 1, .variable 0)] ∧
      extraction.DrawsAssignments := by
  have hends : (ofSource overloadedSetter).map (fun extraction =>
      (Diagram.stateAccess extraction.contract).ends) =
        .ok [(.function 0, .variable 0), (.function 1, .variable 0)] := by
    rw [map_ofSource_of_stateVariables stateVariables_overloadedSetter]
    decide +kernel
  obtain ⟨extraction, hextract, hdrawn⟩ := exists_of_map_eq_ok hends
  exact ⟨extraction, hextract, hdrawn, drawsAssignments_of_ofSource hextract⟩

/-- The second function of the name assigns nothing and is drawn all the same. -/
theorem not_drawsOwnAssignments_overloadedSetter :
    ∃ extraction, ofSource overloadedSetter = .ok extraction ∧
      ¬ extraction.DrawsOwnAssignments := by
  have hdrawn : (ofSource overloadedSetter).map (fun extraction =>
      (decide (Draws extraction.contract 1 0), decide (extraction.Assigns 1 0))) =
        .ok (true, false) := by
    rw [map_ofSource_of_stateVariables stateVariables_overloadedSetter]
    decide +kernel
  obtain ⟨extraction, hextract, hpair⟩ := exists_of_map_eq_ok hdrawn
  obtain ⟨hdraws, hassigns⟩ := Prod.mk.inj hpair
  exact ⟨extraction, hextract, fun hown =>
    of_decide_eq_false hassigns ((hown.draws_iff 1 0).mp (of_decide_eq_true hdraws))⟩

end Extraction

end ContractAtlas
