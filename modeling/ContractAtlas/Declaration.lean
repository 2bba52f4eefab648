import ContractAtlas.Text.CodePoint

/-!
# Declarations

What can be recognised in a contract: modifiers, functions, events and state
variables.  Every declaration records its offset, the place where it starts: a
number of characters in a source, a position in an interface list.  A function or
an event of an interface list also keeps the compact text of its entry.
-/

namespace ContractAtlas

/-- A typed name.  Only the inputs of events say whether they are indexed. -/
structure Parameter where
  name : String := ""
  type : String
  indexed : Option Bool := none
  deriving DecidableEq, Repr

/-- What a function may do to the state and to the balance. -/
inductive Mutability where
  | pure
  | view
  | nonpayable
  | payable
  deriving DecidableEq, Repr

namespace Mutability

def keyword : Mutability → String
  | .pure => "pure"
  | .view => "view"
  | .nonpayable => "nonpayable"
  | .payable => "payable"

def all : List Mutability := [.pure, .view, .nonpayable, .payable]

def ofKeyword? (word : String) : Option Mutability :=
  all.find? (·.keyword == word)

@[simp]
theorem ofKeyword?_keyword (mutability : Mutability) :
    ofKeyword? mutability.keyword = some mutability := by
  cases mutability <;> rfl

end Mutability

/-- From where a function or variable can be reached. -/
inductive Visibility where
  | publicly
  | privately
  | internally
  | externally
  deriving DecidableEq, Repr

namespace Visibility

def keyword : Visibility → String
  | .publicly => "public"
  | .privately => "private"
  | .internally => "internal"
  | .externally => "external"

def all : List Visibility := [.publicly, .privately, .internally, .externally]

def ofKeyword? (word : String) : Option Visibility :=
  all.find? (·.keyword == word)

@[simp]
theorem ofKeyword?_keyword (visibility : Visibility) :
    ofKeyword? visibility.keyword = some visibility := by
  cases visibility <;> rfl

end Visibility

structure ModifierDeclaration where
  name : String
  parameters : List Parameter
  offset : Nat
  deriving DecidableEq, Repr

structure FunctionDeclaration where
  name : String
  offset : Nat
  inputs : List Parameter := []
  outputs : List Parameter := []
  visibility : Visibility := .publicly
  mutability : Mutability := .nonpayable
  /-- The distinct modifiers that the function invokes. -/
  modifiers : List String := []
  entry : Option Text := none
  deriving DecidableEq, Repr

structure EventDeclaration where
  name : String
  offset : Nat
  inputs : List Parameter := []
  isAnonymous : Bool := false
  entry : Option Text := none
  deriving DecidableEq, Repr

structure VariableDeclaration where
  name : String
  type : String
  visibility : Visibility
  offset : Nat
  isConstant : Bool := false
  initialValue : Option String := none
  deriving DecidableEq, Repr

end ContractAtlas
