import ContractAtlas.References

/-!
# Roles

Who may use a function, guessed from its name and from the guards in its scope:
the owner, an administrator, or any user.  From its roles follows the category that
a diagram colours the function by, and from the roles of all functions the table of
roles.
-/

namespace ContractAtlas

/-- The categories that tell functions apart in a diagram. -/
inductive FlowCategory where
  | owner
  | admin
  | user
  | system
  deriving DecidableEq, Repr

namespace FlowCategory

def name : FlowCategory → String
  | .owner => "owner"
  | .admin => "admin"
  | .user => "user"
  | .system => "system"

def all : List FlowCategory := [.owner, .admin, .user, .system]

def ofName? (word : String) : Option FlowCategory :=
  all.find? (·.name == word)

@[simp]
theorem ofName?_name (category : FlowCategory) : ofName? category.name = some category := by
  cases category <;> rfl

end FlowCategory

namespace Role

def owner : String := "owner"
def admin : String := "admin"
def user : String := "user"

/-- Whether a name contains a word, whatever the case of its ASCII letters. -/
def nameSuggests (name word : String) : Bool :=
  (Text.ofString name.toLower).mentions word

/-- The rules in their order: a role, the words of a name that suggest it, and the
words of a scope that do. -/
def rules : List (String × String × List String) := [
  (owner, "owner", ["onlyOwner"]),
  (admin, "admin", ["onlyAdmin"]),
  (user, "user", ["view", "pure"])]

/-- The roles of a function, in the order of the rules.  A function that no rule
applies to is for users. -/
def classify (name : String) (scope : Text) : List String :=
  let roles := (rules.filter fun (_, word, guards) =>
    nameSuggests name word || guards.any (scope.mentions ·)).map (·.1)
  if roles.isEmpty then [user] else roles

/-- The category of a function with the given roles.  Functions that only look at the
state belong to the system. -/
def flowCategory (roles : List String) (mutability : Option Mutability) : FlowCategory :=
  if roles.contains owner then .owner
  else if roles.contains admin then .admin
  else if mutability = some .view then .system
  else .user

end Role

/-- The functions that share a role. -/
structure RoleRecord where
  name : String
  permissions : List String := []
  functions : List String := []
  deriving DecidableEq, Repr

/-- Roles in the order in which they were seen first, each with its functions in the
order in which they were added. -/
abbrev RoleTable := List RoleRecord

namespace RoleTable

/-- Add a function to the role of the given name. -/
def addTo (table : RoleTable) (role function : String) : RoleTable :=
  match table with
  | [] => [{ name := role, functions := [function] }]
  | entry :: rest =>
    if entry.name = role then
      { entry with functions := entry.functions ++ [function] } :: rest
    else entry :: addTo rest role function

/-- Add a function to each of several roles. -/
def add (table : RoleTable) (function : String) (roles : List String) : RoleTable :=
  roles.foldl (fun known role => known.addTo role function) table

end RoleTable

end ContractAtlas
