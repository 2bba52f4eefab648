import ContractAtlas.Contract

/-!
# Diagrams

A diagram is a list of placed nodes and a list of edges between them.  A node's
identity says what it stands for, by index where a contract may hold several of the
kind, so that equal contracts give equal diagrams and a function's node leads back to
the function.  An edge is identified by its two ends.
-/

namespace ContractAtlas

/-- What a node stands for. -/
inductive NodeId where
  | contract
  | role (name : String)
  | state
  | function (index : Nat)
  | event (index : Nat)
  | security
  | parent (index : Nat)
  | variable (index : Nat)
  | focus
  | input (index : Nat)
  | modifier (index : Nat)
  | call (index : Nat)
  | output (index : Nat)
  deriving DecidableEq, Repr

/-- The written form of a node's identity. -/
def NodeId.text : NodeId → String
  | .contract => "contract"
  | .role name => "role-" ++ name
  | .state => "state"
  | .function index => s!"function-{index}"
  | .event index => s!"event-{index}"
  | .security => "security"
  | .parent index => s!"parent-{index}"
  | .variable index => s!"state-{index}"
  | .focus => "function"
  | .input index => s!"input-{index}"
  | .modifier index => s!"modifier-{index}"
  | .call index => s!"dep-{index}"
  | .output index => s!"output-{index}"

/-- What kind of thing a node shows.  Functions are told apart by their flow. -/
inductive NodeCategory where
  | contract
  | role
  | state
  | flow (category : FlowCategory)
  | event
  | security
  | parent
  | input
  | modifier
  | call
  | output
  deriving DecidableEq, Repr

def NodeCategory.name : NodeCategory → String
  | .contract => "contract"
  | .role => "role"
  | .state => "state"
  | .flow category => category.name
  | .event => "event"
  | .security => "security"
  | .parent => "parent"
  | .input => "input"
  | .modifier => "modifier"
  | .call => "call"
  | .output => "output"

/-- The two colours of a node. -/
structure Palette where
  background : String
  stroke : String
  deriving DecidableEq, Repr

namespace Palette

def blue : Palette := ⟨"#e6f3ff", "#0066cc"⟩
def grey : Palette := ⟨"#f0f0f0", "#666"⟩
def orange : Palette := ⟨"#fff0e6", "#cc6600"⟩
def red : Palette := ⟨"#ffe6e6", "#cc0000"⟩
def green : Palette := ⟨"#e6ffe6", "#00cc00"⟩

end Palette

/-- The colours of functions by the names of their categories. -/
def flowColours : List (String × Palette) := [
  ("owner", .red),
  ("admin", .orange),
  ("user", .green),
  ("system", .blue)]

theorem isSome_lookup_flowColours (category : FlowCategory) :
    (flowColours.lookup category.name).isSome = true := by
  cases category <;> decide

/-- The colours of a function, found under the name of its category. -/
def Palette.ofFlow (category : FlowCategory) : Palette :=
  (flowColours.lookup category.name).get (isSome_lookup_flowColours category)

/-- How a node's box is drawn. -/
structure BoxStyle where
  palette : Palette
  width : Nat
  border : Nat := 2
  monospace : Bool := false
  deriving DecidableEq, Repr

structure Node where
  id : NodeId
  label : String
  x : Int
  y : Int
  style : BoxStyle
  category : Option NodeCategory := none
  deriving DecidableEq, Repr

structure Edge where
  source : NodeId
  target : NodeId
  stroke : Option String := none
  animated : Bool := true
  label : Option String := none
  deriving DecidableEq, Repr

def Edge.id (edge : Edge) : String :=
  "e-" ++ edge.source.text ++ "-" ++ edge.target.text

/-- The views of a contract, and the view of a single function. -/
inductive DiagramKind where
  | flow
  | classes
  | state
  | function
  deriving DecidableEq, Repr

def DiagramKind.name : DiagramKind → String
  | .flow => "flow"
  | .classes => "class"
  | .state => "state"
  | .function => "function"

structure Diagram where
  kind : DiagramKind
  nodes : List Node
  edges : List Edge
  deriving DecidableEq, Repr

namespace Diagram

/-- The first node with a written identity. -/
def node? (diagram : Diagram) (id : String) : Option Node :=
  diagram.nodes.find? (·.id.text == id)

/-- Lines of a label. -/
def lines (parts : List String) : String :=
  "\n".intercalate parts

/-- Items of a list on one line. -/
def commaSeparated (parts : List String) : String :=
  ", ".intercalate parts

/-- A typed name as it is declared, the type first. -/
def typed (parameter : Parameter) : String :=
  String.ofList <| Text.trim (parameter.type ++ " " ++ parameter.name).toList

/-- Parameters as they are declared. -/
def signature (parameters : List Parameter) : String :=
  commaSeparated (parameters.map typed)

end Diagram

end ContractAtlas
