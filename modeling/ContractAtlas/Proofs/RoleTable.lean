import ContractAtlas.Role
import Mathlib.Data.List.Nodup

/-!
# The table of roles

A table of roles is seen through the names of its roles and through the members of
each.  Adding a function to a role puts it at the end of that role's members, puts a
new role at the end of the table, and touches nothing else.  From these two views the
contents of a table follow for any sequence of additions: every role is there once,
and its members are the functions that were added to it, in order.

The roles of a single function are a choice among three, and never an empty one.
-/

namespace ContractAtlas.Role

/-- The roles of a function that the rules for owners, administrators and users apply
to or not.  A function that no rule applies to is for users. -/
def chosen (isOwner isAdmin isUser : Bool) : List String :=
  (if isOwner then [owner] else []) ++ (if isAdmin then [admin] else []) ++
    (if isUser || !(isOwner || isAdmin) then [user] else [])

theorem classify_eq_chosen (name : String) (scope : Text) :
    classify name scope =
      chosen (nameSuggests name "owner" || scope.mentions "onlyOwner")
        (nameSuggests name "admin" || scope.mentions "onlyAdmin")
        (nameSuggests name "user" || (scope.mentions "view" || scope.mentions "pure")) := by
  simp only [classify, rules, List.filter_cons, List.filter_nil, List.any_cons, List.any_nil,
    Bool.or_false]
  generalize (nameSuggests name "owner" || scope.mentions "onlyOwner") = isOwner
  generalize (nameSuggests name "admin" || scope.mentions "onlyAdmin") = isAdmin
  generalize (nameSuggests name "user" || (scope.mentions "view" || scope.mentions "pure")) =
    isUser
  revert isOwner isAdmin isUser
  decide

theorem chosen_sublist (isOwner isAdmin isUser : Bool) :
    (chosen isOwner isAdmin isUser).Sublist [owner, admin, user] := by
  revert isOwner isAdmin isUser
  decide

theorem chosen_ne_nil (isOwner isAdmin isUser : Bool) :
    chosen isOwner isAdmin isUser ≠ [] := by
  revert isOwner isAdmin isUser
  decide

theorem owner_mem_chosen_iff (isOwner isAdmin isUser : Bool) :
    owner ∈ chosen isOwner isAdmin isUser ↔ isOwner = true := by
  revert isOwner isAdmin isUser
  decide

theorem admin_mem_chosen_iff (isOwner isAdmin isUser : Bool) :
    admin ∈ chosen isOwner isAdmin isUser ↔ isAdmin = true := by
  revert isOwner isAdmin isUser
  decide

theorem user_mem_chosen_iff (isOwner isAdmin isUser : Bool) :
    user ∈ chosen isOwner isAdmin isUser ↔
      isUser = true ∨ (isOwner = false ∧ isAdmin = false) := by
  revert isOwner isAdmin isUser
  decide

/-- The roles of a function come in the order of the rules. -/
theorem classify_sublist (name : String) (scope : Text) :
    (classify name scope).Sublist [owner, admin, user] := by
  rw [classify_eq_chosen]
  exact chosen_sublist _ _ _

theorem nodup_classify (name : String) (scope : Text) : (classify name scope).Nodup := by
  have hall : [owner, admin, user].Nodup := by decide
  exact hall.sublist (classify_sublist name scope)

theorem classify_ne_nil (name : String) (scope : Text) : classify name scope ≠ [] := by
  rw [classify_eq_chosen]
  exact chosen_ne_nil _ _ _

end ContractAtlas.Role

namespace ContractAtlas.RoleTable

variable {table : RoleTable} {role other function : String} {entry : RoleRecord}

/-- The names of the roles of a table. -/
def names (table : RoleTable) : List String :=
  table.map (·.name)

/-- The functions that share a role; a role that is not in the table has none. -/
def members (table : RoleTable) (role : String) : List String :=
  ((table.find? (·.name == role)).map (·.functions)).getD []

/-- The table of any sequence of additions. -/
def ofAdditions (additions : List (String × List String)) : RoleTable :=
  additions.foldl (fun table addition => table.add addition.1 addition.2) []

@[simp]
theorem names_cons (entry : RoleRecord) (rest : List RoleRecord) :
    names (entry :: rest) = entry.name :: names rest := rfl

theorem members_cons (entry : RoleRecord) (rest : List RoleRecord) (role : String) :
    members (entry :: rest) role =
      if entry.name = role then entry.functions else members rest role := by
  by_cases hname : entry.name = role
  · simp [members, hname]
  · simp [members, hname]

theorem names_addTo (table : RoleTable) (role function : String) :
    (table.addTo role function).names =
      if role ∈ table.names then table.names else table.names ++ [role] := by
  induction table with
  | nil => simp [addTo, names]
  | cons entry rest ih =>
      by_cases hname : entry.name = role
      · simp [addTo, hname]
      · have hne : role ≠ entry.name := fun heq => hname heq.symm
        rw [addTo, if_neg hname, names_cons, names_cons, ih]
        by_cases hknown : role ∈ names rest
        · simp [hknown]
        · simp [hknown, hne]

theorem members_addTo (table : RoleTable) (role function other : String) :
    (table.addTo role function).members other =
      if role = other then table.members other ++ [function] else table.members other := by
  induction table with
  | nil => rw [addTo, members_cons, members, List.find?_nil, Option.map_none, Option.getD_none,
      List.nil_append]
  | cons entry rest ih =>
      by_cases hname : entry.name = role
      · subst hname
        rw [addTo, if_pos rfl, members_cons, members_cons]
        by_cases hother : entry.name = other
        · simp [hother]
        · simp [hother]
      · rw [addTo, if_neg hname, members_cons, members_cons, ih]
        by_cases hentry : entry.name = other
        · have hne : role ≠ other := fun heq => hname (hentry.trans heq.symm)
          rw [if_pos hentry, if_neg hne, if_pos hentry]
        · rw [if_neg hentry, if_neg hentry]

theorem nodup_names_addTo (hnodup : table.names.Nodup) :
    (table.addTo role function).names.Nodup := by
  rw [names_addTo]
  split
  · exact hnodup
  next habsent =>
    apply List.nodup_append.mpr
    refine ⟨hnodup, List.nodup_singleton role, ?_⟩
    rintro known hknown _ hrole rfl
    exact habsent (List.mem_singleton.mp hrole ▸ hknown)

/-- A function is listed under a role as often as the role is given. -/
theorem members_add (table : RoleTable) (function : String) (roles : List String)
    (other : String) :
    (table.add function roles).members other =
      table.members other ++ List.replicate (roles.count other) function := by
  induction roles generalizing table with
  | nil => simp [add]
  | cons role rest ih =>
      have hstep : table.add function (role :: rest) =
          (table.addTo role function).add function rest := rfl
      rw [hstep, ih, members_addTo]
      by_cases hother : role = other
      · simp [hother, List.replicate_succ]
      · simp [hother]

theorem nodup_names_add (hnodup : table.names.Nodup) (roles : List String) :
    (table.add function roles).names.Nodup := by
  induction roles generalizing table with
  | nil => exact hnodup
  | cons role rest ih => exact ih (nodup_names_addTo hnodup)

/-! ## Any sequence of additions -/

/-- The members of a role are the functions added to it, in the order of the additions. -/
theorem members_ofAdditions (additions : List (String × List String)) (role : String) :
    (ofAdditions additions).members role =
      additions.flatMap fun addition =>
        List.replicate (addition.2.count role) addition.1 := by
  have hfrom : ∀ table : RoleTable,
      (additions.foldl (fun table addition => table.add addition.1 addition.2) table).members
          role = table.members role ++ additions.flatMap fun addition =>
            List.replicate (addition.2.count role) addition.1 := by
    induction additions with
    | nil => simp
    | cons addition rest ih =>
        intro table
        rw [List.foldl_cons, ih, members_add, List.flatMap_cons, List.append_assoc]
  exact hfrom []

theorem nodup_names_ofAdditions (additions : List (String × List String)) :
    (ofAdditions additions).names.Nodup := by
  have hfrom : ∀ table : RoleTable, table.names.Nodup →
      (additions.foldl (fun table addition => table.add addition.1 addition.2)
        table).names.Nodup := by
    induction additions with
    | nil => exact fun table hnodup => hnodup
    | cons addition rest ih =>
        intro table hnodup
        exact ih _ (nodup_names_add hnodup addition.2)
  exact hfrom [] List.nodup_nil

/-- With distinct names, the functions of an entry are the members of its role. -/
theorem functions_eq_members (hnodup : table.names.Nodup) (hentry : entry ∈ table) :
    entry.functions = table.members entry.name := by
  induction table with
  | nil => simp at hentry
  | cons first rest ih =>
      rw [names_cons] at hnodup
      obtain ⟨hfirst, hrest⟩ := List.nodup_cons.mp hnodup
      rcases List.mem_cons.mp hentry with rfl | hlater
      · rw [members_cons, if_pos rfl]
      · have hne : first.name ≠ entry.name := by
          intro heq
          have hmem : entry.name ∈ names rest := List.mem_map_of_mem hlater
          exact hfirst (heq ▸ hmem)
        rw [members_cons, if_neg hne, ih hrest hlater]

end ContractAtlas.RoleTable
