import ContractAtlas.Proofs.Integrity
import Mathlib.Algebra.Ring.Nat

/-!
# The table of roles as an inverse

The functions of a contract name their roles, and the table of roles names the functions
of each role.  Neither says more than the other: the table lists the roles in the order in
which the functions name them first, and under each role the functions that name it, once
for every time that they do.  This is proved for one addition, and from it for any sequence
of additions.

An analysed contract says in two further places what follows from the roles of its
functions: the flags for ownership and access control, and the categories of the functions.
They agree with the table.
-/

namespace ContractAtlas.RoleTable

variable {table : RoleTable} {seen : List String}

/-- The number of functions under all roles together. -/
def size (table : RoleTable) : Nat :=
  (table.map (·.functions.length)).sum

@[simp]
theorem size_cons (entry : RoleRecord) (rest : List RoleRecord) :
    size (entry :: rest) = entry.functions.length + size rest := by
  rw [size, List.map_cons, List.sum_cons, size]

/-! ## The order of the roles -/

theorem names_addTo_of_eq (hnames : table.names = seen.eraseDups) (role function : String) :
    (table.addTo role function).names = (seen ++ [role]).eraseDups := by
  rw [names_addTo, FirstSeen.eraseDups_concat, hnames]
  simp only [List.mem_eraseDups]

/-- Whatever was seen before, the roles of an addition are seen next. -/
theorem names_add_of_eq (hnames : table.names = seen.eraseDups) (function : String)
    (roles : List String) : (table.add function roles).names = (seen ++ roles).eraseDups := by
  induction roles generalizing table seen with
  | nil => rw [List.append_nil]; exact hnames
  | cons role rest ih =>
      have hstep := ih (names_addTo_of_eq hnames role function)
      rwa [List.append_assoc] at hstep

theorem names_ofAdditions (additions : List (String × List String)) :
    (ofAdditions additions).names = (additions.flatMap (·.2)).eraseDups := by
  have hfrom : ∀ (table : RoleTable) (seen : List String), table.names = seen.eraseDups →
      (additions.foldl (fun table addition => table.add addition.1 addition.2) table).names =
        (seen ++ additions.flatMap (·.2)).eraseDups := by
    induction additions with
    | nil =>
        intro table seen hnames
        rw [List.flatMap_nil, List.append_nil]
        exact hnames
    | cons addition rest ih =>
        intro table seen hnames
        rw [List.foldl_cons, ih _ _ (names_add_of_eq hnames addition.1 addition.2),
          List.flatMap_cons, List.append_assoc]
  exact hfrom [] [] rfl

/-! ## The number of entries -/

theorem size_addTo (table : RoleTable) (role function : String) :
    (table.addTo role function).size = table.size + 1 := by
  induction table with
  | nil => rfl
  | cons entry rest ih =>
      rw [addTo]
      split
      · rw [size_cons, size_cons, List.length_append, List.length_singleton]
        omega
      · rw [size_cons, size_cons, ih]
        omega

theorem size_add (table : RoleTable) (function : String) (roles : List String) :
    (table.add function roles).size = table.size + roles.length := by
  induction roles generalizing table with
  | nil => rfl
  | cons role rest ih =>
      have hstep := ih (table.addTo role function)
      rw [size_addTo] at hstep
      rw [List.length_cons]
      exact hstep.trans (by omega)

theorem size_ofAdditions (additions : List (String × List String)) :
    (ofAdditions additions).size = (additions.map (·.2.length)).sum := by
  have hfrom : ∀ table : RoleTable,
      (additions.foldl (fun table addition => table.add addition.1 addition.2) table).size =
        table.size + (additions.map (·.2.length)).sum := by
    induction additions with
    | nil => exact fun table => rfl
    | cons addition rest ih =>
        intro table
        rw [List.foldl_cons, ih, size_add, List.map_cons, List.sum_cons, Nat.add_assoc]
  exact (hfrom []).trans (Nat.zero_add _)

/-! ## The law of the table -/

/-- A table says of its roles what the additions say of their functions. -/
structure IsInverseOf (table : RoleTable) (additions : List (String × List String)) : Prop where
  mem_names_iff : ∀ role, role ∈ table.names ↔ ∃ addition ∈ additions, role ∈ addition.2
  nodup_names : table.names.Nodup
  names_eq : table.names = unique (additions.flatMap (·.2))
  functions_eq : ∀ entry ∈ table, entry.functions =
    additions.flatMap fun addition => List.replicate (addition.2.count entry.name) addition.1
  size_eq : table.size = (additions.map (·.2.length)).sum

theorem isInverseOf_ofAdditions (additions : List (String × List String)) :
    (ofAdditions additions).IsInverseOf additions where
  mem_names_iff := by
    intro role
    rw [names_ofAdditions, List.mem_eraseDups, List.mem_flatMap]
  nodup_names := nodup_names_ofAdditions additions
  names_eq := names_ofAdditions additions
  functions_eq := by
    intro entry hentry
    rw [functions_eq_members (nodup_names_ofAdditions additions) hentry, members_ofAdditions]
  size_eq := size_ofAdditions additions

end ContractAtlas.RoleTable

namespace ContractAtlas

/-- A function belongs to its owner exactly if it has the owner's role. -/
theorem Role.flowCategory_eq_owner_iff {roles : List String} {mutability : Option Mutability} :
    flowCategory roles mutability = .owner ↔ owner ∈ roles := by
  rw [flowCategory]
  split
  next howner => simpa using howner
  next howner =>
    have habsent : owner ∉ roles := by simpa using howner
    constructor
    · intro hcategory
      split at hcategory
      · contradiction
      · split at hcategory <;> contradiction
    · exact fun hmem => absurd hmem habsent

namespace Contract

/-- The functions with the roles that they name. -/
def roleAdditions (contract : Contract) : List (String × List String) :=
  contract.functions.map fun function => (function.name, function.roles)

/-- Everything that a contract says about roles follows from the roles of its functions. -/
structure RolesAgree (contract : Contract) : Prop where
  roles_sublist : ∀ function ∈ contract.functions,
    function.roles.Sublist [Role.owner, Role.admin, Role.user]
  roles_ne_nil : ∀ function ∈ contract.functions, function.roles ≠ []
  mem_names_iff : ∀ role, role ∈ contract.roles.names ↔
    ∃ function ∈ contract.functions, role ∈ function.roles
  nodup_names : contract.roles.names.Nodup
  names_eq : contract.roles.names = unique (contract.functions.flatMap (·.roles))
  functions_eq : ∀ entry ∈ contract.roles, entry.functions =
    (contract.functions.filter fun function => entry.name ∈ function.roles).map (·.name)
  size_eq : (contract.roles.map (·.functions.length)).sum =
    (contract.functions.map (·.roles.length)).sum
  hasOwnership_iff : contract.hasOwnership = true ↔ Role.owner ∈ contract.roles.names
  hasOwnership_iff_category : contract.hasOwnership = true ↔
    ∃ function ∈ contract.functions, function.flowCategory = .owner
  hasAccessControl_iff : contract.hasAccessControl = true ↔
    Role.admin ∈ contract.roles.names

/-- Functions that name no role twice are listed once under each of their roles. -/
theorem flatMap_replicate_count {functions : List FunctionRecord} {role : String}
    (hnodup : ∀ function ∈ functions, function.roles.Nodup) :
    functions.flatMap (fun function => List.replicate (function.roles.count role) function.name) =
      (functions.filter fun function => role ∈ function.roles).map (·.name) := by
  induction functions with
  | nil => rfl
  | cons function rest ih =>
      obtain ⟨hfunction, hrest⟩ := List.forall_mem_cons.mp hnodup
      rw [List.flatMap_cons, ih hrest]
      by_cases hrole : role ∈ function.roles
      · rw [List.count_eq_one_of_mem hfunction hrole, List.filter_cons_of_pos (by simpa using hrole)]
        rfl
      · rw [List.count_eq_zero_of_not_mem hrole, List.filter_cons_of_neg (by simpa using hrole)]
        rfl

end Contract

namespace Extraction

/-- The roles of a contract agree because its table is built from its functions. -/
theorem rolesAgree_contract (extraction : Extraction) : extraction.contract.RolesAgree := by
  have hroles : ∀ function ∈ extraction.contract.functions,
      ∃ declaration, function = extraction.functionRecord declaration := by
    intro function hfunction
    obtain ⟨declaration, -, rfl⟩ := List.mem_map.mp hfunction
    exact ⟨declaration, rfl⟩
  have hinverse : extraction.contract.roles.IsInverseOf extraction.contract.roleAdditions := by
    rw [roles_contract]
    exact RoleTable.isInverseOf_ofAdditions _
  have hmem : ∀ role, role ∈ extraction.contract.roles.names ↔
      ∃ function ∈ extraction.contract.functions, role ∈ function.roles := by
    intro role
    rw [hinverse.mem_names_iff]
    simp only [Contract.roleAdditions, List.mem_map, exists_exists_and_eq_and]
  have hflag : ∀ role, extraction.contract.functions.any (·.roles.contains role) = true ↔
      ∃ function ∈ extraction.contract.functions, role ∈ function.roles := by
    intro role
    simp only [List.any_eq_true, List.contains_iff_mem]
  exact {
    roles_sublist := by
      intro function hfunction
      obtain ⟨declaration, rfl⟩ := hroles function hfunction
      exact Role.classify_sublist _ _
    roles_ne_nil := by
      intro function hfunction
      obtain ⟨declaration, rfl⟩ := hroles function hfunction
      exact Role.classify_ne_nil _ _
    mem_names_iff := hmem
    nodup_names := hinverse.nodup_names
    names_eq := by
      rw [hinverse.names_eq, Contract.roleAdditions, List.flatMap_map]
    functions_eq := by
      intro entry hentry
      rw [hinverse.functions_eq entry hentry, Contract.roleAdditions, List.flatMap_map]
      apply Contract.flatMap_replicate_count
      intro function hfunction
      obtain ⟨declaration, rfl⟩ := hroles function hfunction
      exact Role.nodup_classify _ _
    size_eq := by
      have hsize := hinverse.size_eq
      rwa [Contract.roleAdditions, List.map_map] at hsize
    hasOwnership_iff := (hflag Role.owner).trans (hmem Role.owner).symm
    hasOwnership_iff_category := by
      rw [show extraction.contract.hasOwnership = true ↔ _ from hflag Role.owner]
      apply exists_congr
      intro function
      apply and_congr_right
      intro hfunction
      obtain ⟨declaration, rfl⟩ := hroles function hfunction
      exact Role.flowCategory_eq_owner_iff.symm
    hasAccessControl_iff := (hflag Role.admin).trans (hmem Role.admin).symm }

end Extraction

/-- The table of roles is the inverse of what is added to it, and in an analysed contract
everything about roles agrees with it. -/
theorem Contract.table_inverse_and_roles_agree :
    (∀ additions : List (String × List String),
      (RoleTable.ofAdditions additions).IsInverseOf additions) ∧
    ∀ contract : Contract, contract.Analysed → contract.RolesAgree := by
  constructor
  · exact RoleTable.isInverseOf_ofAdditions
  · intro contract hanalysed
    obtain ⟨extraction, name, -, rfl⟩ := hanalysed.exists_extraction
    exact { extraction.rolesAgree_contract with }

/-- An overloaded function for administrators, and one for owners as well. -/
def guardedSource : String :=
  "function go() \x7b \x7d function go(uint a) \x7b \x7d function setOwner() onlyAdmin \x7b \x7d"

theorem roles_agree_guardedSource :
    ∃ contract, Contract.ofSource guardedSource = .ok contract ∧
      contract.roles = [
        { name := "admin", functions := ["go", "go", "setOwner"] },
        { name := "owner", functions := ["setOwner"] }] ∧
      contract.RolesAgree := by
  have htable : (Contract.ofSource guardedSource).map (·.roles) = .ok [
      { name := "admin", functions := ["go", "go", "setOwner"] },
      { name := "owner", functions := ["setOwner"] }] := by decide +kernel
  obtain ⟨contract, hcontract, hroles⟩ := exists_of_map_eq_ok htable
  exact ⟨contract, hcontract, hroles,
    Contract.table_inverse_and_roles_agree.2 contract (.ofSource hcontract)⟩

end ContractAtlas
