import ContractAtlas.Proofs.Extraction
import ContractAtlas.Proofs.RoleTable

/-!
# Referential integrity

A contract refers to its functions by name in six places.  In every contract that an
analysis returns, whether from a text, an interface list or a batch, these names are
names of the contract's functions, and no list of them repeats a name.
-/

namespace ContractAtlas

namespace Contract

/-- The names of the functions, once for each declaration. -/
def declaredNames (contract : Contract) : List String :=
  contract.functions.map (·.name)

/-- Every list of names in a contract names its functions, each once. -/
structure ReferencesResolve (contract : Contract) : Prop where
  calls : ∀ function ∈ contract.functions, function.calls ⊆ contract.declaredNames
  emittedBy : ∀ event ∈ contract.events, event.emittedBy ⊆ contract.declaredNames
  readBy : ∀ declaration ∈ contract.stateVariables,
    declaration.readBy ⊆ contract.declaredNames
  writtenBy : ∀ declaration ∈ contract.stateVariables,
    declaration.writtenBy ⊆ contract.declaredNames
  affectedFunctions : ∀ finding ∈ contract.findings,
    finding.affectedFunctions ⊆ contract.declaredNames
  roleMembers : ∀ role ∈ contract.roles, role.functions ⊆ contract.declaredNames
  nodup_calls : ∀ function ∈ contract.functions, function.calls.Nodup
  nodup_emittedBy : ∀ event ∈ contract.events, event.emittedBy.Nodup
  nodup_readBy : ∀ declaration ∈ contract.stateVariables, declaration.readBy.Nodup
  nodup_writtenBy : ∀ declaration ∈ contract.stateVariables, declaration.writtenBy.Nodup
  nodup_affectedFunctions : ∀ finding ∈ contract.findings, finding.affectedFunctions.Nodup
  nodup_modifiers : ∀ function ∈ contract.functions, function.modifiers.Nodup
  nodup_roles : ∀ function ∈ contract.functions, function.roles.Nodup
  roles_ne_nil : ∀ function ∈ contract.functions, function.roles ≠ []
  not_self_call : ∀ function ∈ contract.functions, function.name ∉ function.calls

/-- References do not depend on the name of the contract. -/
theorem ReferencesResolve.rename {contract : Contract} (hresolve : contract.ReferencesResolve)
    (name : String) : ReferencesResolve { contract with name } :=
  { hresolve with }

end Contract

namespace Extraction

variable {extraction : Extraction}

theorem nodup_knownNames (extraction : Extraction) : extraction.knownNames.Nodup :=
  FirstSeen.nodup_eraseDups _

/-- A contract has its functions from the extraction, in their order. -/
theorem declaredNames_contract (extraction : Extraction) :
    extraction.contract.declaredNames = extraction.functions.map (·.name) := by
  change (extraction.functions.map extraction.functionRecord).map (·.name) = _
  rw [List.map_map]
  rfl

theorem knownNames_subset_declaredNames (extraction : Extraction) :
    extraction.knownNames ⊆ extraction.contract.declaredNames := by
  intro name hname
  rw [declaredNames_contract]
  exact List.mem_eraseDups.mp hname

theorem unique_names_filter_subset (extraction : Extraction)
    (test : FunctionDeclaration → Bool) :
    unique ((extraction.functions.filter test).map (·.name)) ⊆
      extraction.contract.declaredNames := by
  intro name hname
  obtain ⟨function, hfunction, rfl⟩ := List.mem_map.mp (List.mem_eraseDups.mp hname)
  rw [declaredNames_contract]
  exact List.mem_map_of_mem (List.mem_of_mem_filter hfunction)

theorem callsOf_sublist (extraction : Extraction) (function : FunctionDeclaration) :
    (extraction.callsOf function).Sublist extraction.knownNames :=
  List.filter_sublist

theorem emittersOf_sublist (extraction : Extraction) (event : EventDeclaration) :
    (extraction.emittersOf event).Sublist extraction.knownNames := by
  rw [emittersOf]
  split
  · exact List.filter_sublist
  · split
    · exact List.Sublist.refl _
    · exact List.nil_sublist _

theorem not_mem_callsOf (extraction : Extraction) (function : FunctionDeclaration) :
    function.name ∉ extraction.callsOf function := by
  intro hcall
  have htest := (List.mem_filter.mp hcall).2
  simp at htest

/-- A finding is about one payable function or comes from a rule. -/
theorem mem_findings_iff {finding : Finding} :
    finding ∈ extraction.contract.findings ↔
      (∃ function ∈ extraction.functions, function.mutability = .payable ∧
        finding = payableFinding function.name) ∨
      ∃ rule ∈ Rule.catalog, rule.appliesTo extraction.text ∧
        finding = rule.finding extraction := by
  change finding ∈ extraction.scan Rule.catalog ↔ _
  simp only [scan, List.mem_append, List.mem_map, List.mem_filter, decide_eq_true_eq,
    and_assoc, @eq_comm _ finding]

/-- The table of roles lists every function of the contract under its roles. -/
theorem roles_contract (extraction : Extraction) :
    extraction.contract.roles = RoleTable.ofAdditions
      (extraction.contract.functions.map fun function => (function.name, function.roles)) := by
  rw [RoleTable.ofAdditions, List.foldl_map]
  rfl

theorem nodup_names_roles (extraction : Extraction) :
    extraction.contract.roles.names.Nodup := by
  rw [roles_contract]
  exact RoleTable.nodup_names_ofAdditions _

theorem roleMembers_subset {role : RoleRecord} (hrole : role ∈ extraction.contract.roles) :
    role.functions ⊆ extraction.contract.declaredNames := by
  intro name hname
  rw [RoleTable.functions_eq_members extraction.nodup_names_roles hrole, roles_contract,
    RoleTable.members_ofAdditions] at hname
  obtain ⟨addition, haddition, hreplicate⟩ := List.mem_flatMap.mp hname
  obtain ⟨function, hfunction, rfl⟩ := List.mem_map.mp haddition
  rw [List.eq_of_mem_replicate hreplicate]
  exact List.mem_map_of_mem hfunction

/-- Integrity needs nothing but distinct modifiers, which every returned extraction has. -/
theorem Returned.referencesResolve (hreturned : extraction.Returned) :
    extraction.contract.ReferencesResolve := by
  have hfunctions : ∀ {P : FunctionRecord → Prop},
      (∀ function ∈ extraction.functions, P (extraction.functionRecord function)) →
        ∀ function ∈ extraction.contract.functions, P function := by
    intro P hall
    exact List.forall_mem_map.mpr hall
  have hevents : ∀ {P : EventRecord → Prop},
      (∀ event ∈ extraction.events, P (extraction.eventRecord event)) →
        ∀ event ∈ extraction.contract.events, P event := by
    intro P hall
    exact List.forall_mem_map.mpr hall
  have hvariables : ∀ {P : VariableRecord → Prop},
      (∀ declaration ∈ extraction.stateVariables, P (extraction.variableRecord declaration)) →
        ∀ declaration ∈ extraction.contract.stateVariables, P declaration := by
    intro P hall
    exact List.forall_mem_map.mpr hall
  have hknown := extraction.knownNames_subset_declaredNames
  exact {
    calls := hfunctions fun function _ name hname =>
      hknown ((extraction.callsOf_sublist function).subset hname)
    emittedBy := hevents fun event _ name hname =>
      hknown ((extraction.emittersOf_sublist event).subset hname)
    readBy := hvariables fun declaration _ => extraction.unique_names_filter_subset _
    writtenBy := hvariables fun declaration _ => extraction.unique_names_filter_subset _
    affectedFunctions := by
      intro finding hfinding
      rcases mem_findings_iff.mp hfinding with ⟨function, hfunction, -, rfl⟩ | ⟨rule, -, -, rfl⟩
      · intro name hname
        rw [declaredNames_contract, List.mem_singleton.mp hname]
        exact List.mem_map_of_mem hfunction
      · exact extraction.unique_names_filter_subset _
    roleMembers := fun role hrole => roleMembers_subset hrole
    nodup_calls := hfunctions fun function _ =>
      extraction.nodup_knownNames.sublist (extraction.callsOf_sublist function)
    nodup_emittedBy := hevents fun event _ =>
      extraction.nodup_knownNames.sublist (extraction.emittersOf_sublist event)
    nodup_readBy := hvariables fun declaration _ => FirstSeen.nodup_eraseDups _
    nodup_writtenBy := hvariables fun declaration _ => FirstSeen.nodup_eraseDups _
    nodup_affectedFunctions := by
      intro finding hfinding
      rcases mem_findings_iff.mp hfinding with ⟨function, -, -, rfl⟩ | ⟨rule, -, -, rfl⟩
      · exact List.nodup_singleton _
      · exact FirstSeen.nodup_eraseDups _
    nodup_modifiers := hfunctions fun function hfunction => hreturned.nodup_modifiers hfunction
    nodup_roles := hfunctions fun function _ => Role.nodup_classify _ _
    roles_ne_nil := hfunctions fun function _ => Role.classify_ne_nil _ _
    not_self_call := hfunctions fun function _ => extraction.not_mem_callsOf function }

end Extraction

/-- Every name in an analysed contract resolves, and none is repeated. -/
theorem Contract.Analysed.references_resolve {contract : Contract}
    (hanalysed : contract.Analysed) : contract.ReferencesResolve := by
  obtain ⟨extraction, name, hreturned, rfl⟩ := hanalysed.exists_extraction
  exact hreturned.referencesResolve.rename name

/-- A source with an overloaded function, submitted under another name. -/
def renamedSource : String × String :=
  ("Vault", "contract Safe \x7b function f() onlyOwner onlyOwner \x7b g(); \x7d " ++
    "function g() payable \x7b \x7d function f(uint a) \x7b \x7d event E(); \x7d")

theorem mem_contracts_renamedSource :
    ∃ result entry, Batch.analyse [renamedSource, ("Empty", " ")] = .ok result ∧
      entry ∈ result.contracts ∧ entry.contract.name = "Vault" ∧
      entry.contract.functions.map (·.calls) = [["g"], ["f"], []] := by
  have hcontracts : (Batch.analyse [renamedSource, ("Empty", " ")]).map (fun result =>
      result.contracts.map fun entry =>
        (entry.contract.name, entry.contract.functions.map (·.calls))) =
      .ok [("Vault", [["g"], ["f"], []])] := by decide +kernel
  obtain ⟨result, hresult, hlist⟩ := exists_of_map_eq_ok hcontracts
  obtain ⟨entry, rest, hentries, hentry, -⟩ := List.map_eq_cons_iff.mp hlist
  have hmem : entry ∈ result.contracts := by
    rw [hentries]
    exact List.mem_cons_self
  obtain ⟨hname, hcalls⟩ := Prod.mk.inj hentry
  exact ⟨result, entry, hresult, hmem, hname, hcalls⟩

theorem references_resolve_renamedSource :
    ∃ result entry, Batch.analyse [renamedSource, ("Empty", " ")] = .ok result ∧
      entry ∈ result.contracts ∧ entry.contract.name = "Vault" ∧
      entry.contract.functions.map (·.calls) = [["g"], ["f"], []] ∧
      entry.contract.ReferencesResolve := by
  obtain ⟨result, entry, hresult, hentry, hname, hcalls⟩ := mem_contracts_renamedSource
  exact ⟨result, entry, hresult, hentry, hname, hcalls,
    Contract.Analysed.references_resolve (.ofBatch hresult hentry)⟩

end ContractAtlas
