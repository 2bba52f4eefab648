import ContractAtlas.Proofs.Attribution
import ContractAtlas.Proofs.Integrity
import ContractAtlas.Proofs.Source.Growth

/-!
# Contracts of a source that grows

Nothing that is known about a source is lost when text is added at its end.  Its
functions stay the first ones, the scope of each only becomes longer, and whatever a
scope mentions it still mentions: calls, guards of owners and administrators, and the
tokens of findings.
-/

namespace ContractAtlas

/-- What stays of a function: its declaration as it is, its calls, and the roles that
some guard or name gives it.  That a function is for users may only be a default. -/
structure FunctionRecord.KeptBy (before after : FunctionRecord) : Prop where
  name : after.name = before.name
  inputs : after.inputs = before.inputs
  outputs : after.outputs = before.outputs
  visibility : after.visibility = before.visibility
  mutability : after.mutability = before.mutability
  modifiers : after.modifiers = before.modifiers
  calls : before.calls ⊆ after.calls
  owner : Role.owner ∈ before.roles → Role.owner ∈ after.roles
  admin : Role.admin ∈ before.roles → Role.admin ∈ after.roles

/-- What stays of a finding: everything, with perhaps more functions that it affects. -/
structure Finding.KeptBy (before after : Finding) : Prop where
  severity : after.severity = before.severity
  description : after.description = before.description
  location : after.location = before.location
  recommendation : after.recommendation = before.recommendation
  affectedFunctions : before.affectedFunctions ⊆ after.affectedFunctions

/-- One contract shows everything that another one shows. -/
structure Contract.KeptBy (before after : Contract) : Prop where
  functions : ∃ kept added, after.functions = kept ++ added ∧
    List.Forall₂ FunctionRecord.KeptBy before.functions kept
  findings : ∀ finding ∈ before.findings, ∃ other ∈ after.findings, finding.KeptBy other
  hasOwnership : before.hasOwnership = true → after.hasOwnership = true
  hasAccessControl : before.hasAccessControl = true → after.hasAccessControl = true

/-- A role that some function of a contract has is still had by one that keeps it. -/
theorem Contract.exists_role_of_forall₂ {role : String} {functions kept : List FunctionRecord}
    (hkept : List.Forall₂ FunctionRecord.KeptBy functions kept)
    (hrole : ∀ {before after : FunctionRecord}, before.KeptBy after →
      role ∈ before.roles → role ∈ after.roles)
    (hsome : functions.any (·.roles.contains role) = true) :
    kept.any (·.roles.contains role) = true := by
  induction hkept with
  | nil => exact hsome
  | cons hhead _ ih =>
      rw [List.any_cons, Bool.or_eq_true, List.contains_iff_mem] at hsome ⊢
      exact hsome.imp (hrole hhead) ih

namespace Extraction

/-- A text has more text behind it, and the functions of the whole start with those of
the beginning. -/
structure Continues (after before : Extraction) : Prop where
  text : before.text <+: after.text
  functions : before.functions <+: after.functions

variable {before after : Extraction} {source longer : Text}

theorem continues_of_ofSource {text more : String} (hbefore : ofSource text = .ok before)
    (hafter : ofSource (text ++ more) = .ok after) : after.Continues before := by
  obtain rfl := ofDeclarations_eq_ok (ofDeclarations_of_ofSource hbefore)
  obtain rfl := ofDeclarations_eq_ok (ofDeclarations_of_ofSource hafter)
  constructor
  · simp [Text.ofString, Text.ofChars]
  · simpa using Source.functions_prefix_functions_append text.toList more.toList

namespace Continues

variable (hcontinues : after.Continues before) (hsource : before.ScopesAreTails source)
  (hlonger : after.ScopesAreTails longer)

include hcontinues

theorem knownNames_subset : before.knownNames ⊆ after.knownNames := by
  intro name hname
  have hdeclared := (hcontinues.functions.map (·.name)).subset (List.mem_eraseDups.mp hname)
  exact List.mem_eraseDups.mpr hdeclared

theorem appliesTo_text {σ : Type} (rule : Rule σ) (happlies : rule.appliesTo before.text = true) :
    rule.appliesTo after.text = true := by
  simp only [Rule.appliesTo, List.any_eq_true, Text.mentions_iff] at happlies ⊢
  obtain ⟨token, htoken, hmentions⟩ := happlies
  exact ⟨token, htoken, hmentions.trans hcontinues.text.isInfix⟩

include hsource hlonger

/-- A scope that became longer mentions all that it mentioned before. -/
theorem mentions_scopeOf {function : FunctionDeclaration}
    (hfunction : function ∈ before.functions) {part : String}
    (hmentions : (before.scopeOf function).mentions part = true) :
    (after.scopeOf function).mentions part = true := by
  obtain ⟨rest, hrest⟩ := hcontinues.text
  rw [hsource.text_eq, hlonger.text_eq] at hrest
  rw [hsource.scopeOf_eq hfunction, Text.mentions_iff] at hmentions
  rw [hlonger.scopeOf_eq (hcontinues.functions.subset hfunction), Text.mentions_iff, ← hrest,
    List.drop_append_of_le_length (hsource.offset_lt function hfunction).le]
  exact hmentions.trans (List.prefix_append _ _).isInfix

theorem keptBy_functionRecord {function : FunctionDeclaration}
    (hfunction : function ∈ before.functions) :
    (before.functionRecord function).KeptBy (after.functionRecord function) where
  name := rfl
  inputs := rfl
  outputs := rfl
  visibility := rfl
  mutability := rfl
  modifiers := rfl
  calls := by
    intro name hcall
    obtain ⟨hknown, htest⟩ := List.mem_filter.mp hcall
    rw [Bool.and_eq_true] at htest
    apply List.mem_filter.mpr
    refine ⟨hcontinues.knownNames_subset hknown, ?_⟩
    rw [Bool.and_eq_true]
    exact ⟨htest.1, hcontinues.mentions_scopeOf hsource hlonger hfunction htest.2⟩
  owner := by
    change Role.owner ∈ before.rolesOf function → Role.owner ∈ after.rolesOf function
    rw [rolesOf, rolesOf, Role.classify_eq_chosen, Role.classify_eq_chosen,
      Role.owner_mem_chosen_iff, Role.owner_mem_chosen_iff, Bool.or_eq_true, Bool.or_eq_true]
    exact Or.imp_right (hcontinues.mentions_scopeOf hsource hlonger hfunction)
  admin := by
    change Role.admin ∈ before.rolesOf function → Role.admin ∈ after.rolesOf function
    rw [rolesOf, rolesOf, Role.classify_eq_chosen, Role.classify_eq_chosen,
      Role.admin_mem_chosen_iff, Role.admin_mem_chosen_iff, Bool.or_eq_true, Bool.or_eq_true]
    exact Or.imp_right (hcontinues.mentions_scopeOf hsource hlonger hfunction)

theorem keptBy_finding (rule : Rule Severity) :
    (rule.finding before).KeptBy (rule.finding after) where
  severity := rfl
  description := rfl
  location := rfl
  recommendation := rfl
  affectedFunctions := by
    intro name hname
    obtain ⟨function, haffected, rfl⟩ := List.mem_map.mp (List.mem_eraseDups.mp hname)
    obtain ⟨hfunction, happlies⟩ := List.mem_filter.mp haffected
    apply List.mem_eraseDups.mpr
    apply List.mem_map_of_mem
    apply List.mem_filter.mpr
    refine ⟨hcontinues.functions.subset hfunction, ?_⟩
    simp only [Rule.appliesTo, List.any_eq_true] at happlies ⊢
    obtain ⟨token, htoken, hmentions⟩ := happlies
    exact ⟨token, htoken, hcontinues.mentions_scopeOf hsource hlonger hfunction hmentions⟩

theorem keptBy_findings {finding : Finding} (hfinding : finding ∈ before.contract.findings) :
    ∃ other ∈ after.contract.findings, finding.KeptBy other := by
  rcases mem_findings_iff.mp hfinding with
    ⟨function, hfunction, hpayable, rfl⟩ | ⟨rule, hrule, happlies, rfl⟩
  · refine ⟨payableFinding function.name, mem_findings_iff.mpr (.inl ?_), ?_⟩
    · exact ⟨function, hcontinues.functions.subset hfunction, hpayable, rfl⟩
    · exact ⟨rfl, rfl, rfl, rfl, fun _ hname => hname⟩
  · refine ⟨rule.finding after, mem_findings_iff.mpr (.inr ?_), ?_⟩
    · exact ⟨rule, hrule, hcontinues.appliesTo_text rule happlies, rfl⟩
    · exact hcontinues.keptBy_finding hsource hlonger rule

/-- The records of the kept functions are the beginning of all records. -/
theorem keptBy_functions :
    ∃ kept added, after.contract.functions = kept ++ added ∧
      List.Forall₂ FunctionRecord.KeptBy before.contract.functions kept := by
  obtain ⟨added, hadded⟩ := hcontinues.functions
  refine ⟨before.functions.map after.functionRecord, added.map after.functionRecord, ?_, ?_⟩
  · change after.functions.map after.functionRecord = _
    rw [← hadded, List.map_append]
  · change List.Forall₂ _ (before.functions.map before.functionRecord) _
    rw [List.forall₂_map_left_iff, List.forall₂_map_right_iff, List.forall₂_same]
    intro function hfunction
    exact hcontinues.keptBy_functionRecord hsource hlonger hfunction

theorem keptBy_contract : before.contract.KeptBy after.contract := by
  obtain ⟨kept, added, hfunctions, hkept⟩ := hcontinues.keptBy_functions hsource hlonger
  have hrole : ∀ role : String, (∀ {short long : FunctionRecord}, short.KeptBy long →
      role ∈ short.roles → role ∈ long.roles) →
      before.contract.functions.any (·.roles.contains role) = true →
        after.contract.functions.any (·.roles.contains role) = true := by
    intro role hone hsome
    rw [hfunctions, List.any_append, Bool.or_eq_true]
    exact .inl (Contract.exists_role_of_forall₂ hkept hone hsome)
  exact {
    functions := ⟨kept, added, hfunctions, hkept⟩
    findings := fun finding hfinding => hcontinues.keptBy_findings hsource hlonger hfinding
    hasOwnership := hrole Role.owner FunctionRecord.KeptBy.owner
    hasAccessControl := hrole Role.admin FunctionRecord.KeptBy.admin }

end Continues

end Extraction

/-- Source text that is added at the end hides nothing of what was there. -/
theorem Contract.keptBy_ofSource_append {text more : String} {before after : Contract}
    (hbefore : ofSource text = .ok before) (hafter : ofSource (text ++ more) = .ok after) :
    before.KeptBy after := by
  obtain ⟨short, hshort, rfl⟩ := exists_of_map_eq_ok hbefore
  obtain ⟨long, hlong, rfl⟩ := exists_of_map_eq_ok hafter
  have hcontinues := Extraction.continues_of_ofSource hshort hlong
  exact hcontinues.keptBy_contract (Extraction.scopesAreTails_of_ofSource hshort)
    (Extraction.scopesAreTails_of_ofSource hlong)

/-- A source that ends within the parameter list of its third function. -/
def unfinishedSource : String :=
  "function f(uint a \x7b ) public onlyOwner \x7b g(); \x7d " ++
    "function g() payable \x7b suicide; \x7d function h(uint b, \x7b function k("

/-- The rest of that list, with a body, behind which more is added. -/
def finishingSource : String :=
  ") onlyAdmin \x7b f(1); \x7d contract Late \x7b \x7d"

theorem keptBy_finishingSource :
    ∃ before after, Contract.ofSource unfinishedSource = .ok before ∧
      Contract.ofSource (unfinishedSource ++ finishingSource) = .ok after ∧
      before.functions.map (fun function => (function.name, function.calls)) =
        [("f", ["g"]), ("g", [])] ∧
      after.functions.map (fun function => (function.name, function.calls)) =
        [("f", ["g", "h"]), ("g", ["f", "h"]), ("h", ["f"])] ∧
      before.KeptBy after := by
  have hshort : (Contract.ofSource unfinishedSource).map (fun contract =>
      contract.functions.map fun function => (function.name, function.calls)) =
      .ok [("f", ["g"]), ("g", [])] := by decide +kernel
  have hlong : (Contract.ofSource (unfinishedSource ++ finishingSource)).map (fun contract =>
      contract.functions.map fun function => (function.name, function.calls)) =
      .ok [("f", ["g", "h"]), ("g", ["f", "h"]), ("h", ["f"])] := by decide +kernel
  obtain ⟨before, hbefore, hcalls⟩ := exists_of_map_eq_ok hshort
  obtain ⟨after, hafter, hmore⟩ := exists_of_map_eq_ok hlong
  exact ⟨before, after, hbefore, hafter, hcalls, hmore,
    Contract.keptBy_ofSource_append hbefore hafter⟩

end ContractAtlas
