import ContractAtlas.Diagram.Selection
import ContractAtlas.Proofs.Diagram.WellFormed
import ContractAtlas.Proofs.Numeral.Decimal

/-!
# The nodes of functions

The flow diagram has a node for every function, and the state diagram for those that assign a
variable.  Both number a function by its place in the contract, and both write this number
into the node's identity, so whichever diagram a node was picked from, its written identity
selects the function that it shows.  Names play no part in this: a name that several functions
share is no name of a node.
-/

namespace ContractAtlas

/-! ## Written identities of functions -/

/-- Whether a written identity begins like the identity of a function. -/
def startsLikeFunction (id : String) : Bool :=
  "function-".toList.isPrefixOf id.toList

theorem startsLikeFunction_text_iff {id : NodeId} :
    startsLikeFunction id.text = true ↔ ∃ index, id = .function index := by
  rw [startsLikeFunction, NodeId.toList_text]
  cases id <;> simp [NodeId.word, NodeId.tail, NodeId.index?]

theorem toList_text_function (index : Nat) :
    (NodeId.function index).text.toList = "function-".toList ++ Nat.toDigits 10 index := by
  rw [NodeId.toList_text]
  simp [NodeId.word, NodeId.tail, NodeId.index?]

theorem functionDigits?_text (index : Nat) :
    functionDigits? (NodeId.function index).text = some (Nat.toDigits 10 index) := by
  have hstart : "function-".toList.isPrefixOf (NodeId.function index).text.toList = true :=
    startsLikeFunction_text_iff.mpr ⟨index, rfl⟩
  have hdrop : (NodeId.function index).text.toList.drop "function-".length =
      Nat.toDigits 10 index := by
    rw [toList_text_function, ← String.length_toList]
    exact List.drop_left
  have hdigits : (Nat.toDigits 10 index).any (fun c => (Text.digitValue? c).isNone) = false := by
    rw [List.any_eq_false]
    intro c hc
    simp [Text.digitValue?_of_isDigit (NodeId.isDigit_of_mem_toDigits hc)]
  have hne : (Nat.toDigits 10 index).isEmpty = false := by simp [Nat.toDigits_ne_nil]
  rw [functionDigits?, if_pos hstart, hdrop]
  simp [hne, hdigits]

/-- The written identity of a function's node selects the function at its index. -/
theorem Contract.select_text {contract : Contract} {index : Nat} {function : FunctionRecord}
    (hfunction : contract.functions[index]? = some function)
    (hindex : index < 10 ^ Numeral.digitLimit) :
    contract.select (NodeId.function index).text = .ok function := by
  rw [Contract.select, functionDigits?_text]
  simp only [Numeral.ofDigits_toDigits hindex, hfunction]

/-! ## The nodes of functions in two diagrams -/

namespace Diagram

/-- The nodes whose written identities begin like those of functions, in their order. -/
def functionNodes (diagram : Diagram) : List Node :=
  diagram.nodes.filter fun node => startsLikeFunction node.id.text

/-- Nodes that are numbered as functions are all kept. -/
theorem filter_mapIdx_eq_self {α : Type} (node : Nat → α → Node) {index : Nat → α → Nat}
    (hid : ∀ place entry, (node place entry).id = .function (index place entry))
    (list : List α) :
    (list.mapIdx node).filter (fun node => startsLikeFunction node.id.text) =
      list.mapIdx node := by
  rw [List.filter_eq_self]
  intro shown hshown
  obtain ⟨place, hplace, rfl⟩ := List.mem_mapIdx.mp hshown
  exact startsLikeFunction_text_iff.mpr ⟨_, hid place _⟩

/-- Nodes that stand for something else are all left out. -/
theorem filter_eq_nil_of_ids (nodes : List Node)
    (hids : ∀ node ∈ nodes, ∀ index, node.id ≠ .function index) :
    nodes.filter (fun node => startsLikeFunction node.id.text) = [] := by
  rw [List.filter_eq_nil_iff]
  intro node hnode hstart
  obtain ⟨index, hindex⟩ := startsLikeFunction_text_iff.mp hstart
  exact hids node hnode index hindex

theorem ids_mapIdx_ne {α : Type} {node : Nat → α → Node} {list : List α}
    (hid : ∀ place entry index, (node place entry).id ≠ .function index) :
    ∀ shown ∈ list.mapIdx node, ∀ index, shown.id ≠ .function index := by
  intro shown hshown index
  obtain ⟨place, hplace, rfl⟩ := List.mem_mapIdx.mp hshown
  exact hid place _ index

open ContractAtlas.Diagram.Flow in
theorem functionNodes_flow (contract : Contract) :
    functionNodes (flow contract) = contract.functions.mapIdx functionNode := by
  have hcontract := filter_eq_nil_of_ids [contractNode contract]
    (by simp [contractNode])
  have hroles := filter_eq_nil_of_ids (contract.roles.mapIdx roleNode)
    (ids_mapIdx_ne (by simp [roleNode]))
  have hstate := filter_eq_nil_of_ids
    (if !contract.stateVariables.isEmpty then [stateNode contract] else [])
    (by split <;> simp [stateNode])
  have hfunctions := filter_mapIdx_eq_self functionNode (fun _ _ => rfl)
    contract.functions
  have hevents := filter_eq_nil_of_ids (contract.events.mapIdx eventNode)
    (ids_mapIdx_ne (by simp [eventNode]))
  have hsecurity := filter_eq_nil_of_ids
    (if !contract.findings.isEmpty then [securityNode contract] else [])
    (by split <;> simp [securityNode])
  rw [functionNodes, flow]
  simp only [List.filter_append, hcontract, hroles, hstate, hfunctions, hevents, hsecurity,
    List.nil_append, List.append_nil]

open ContractAtlas.Diagram.StateAccess in
theorem functionNodes_stateAccess (contract : Contract) :
    functionNodes (stateAccess contract) = (writers contract).mapIdx writerNode := by
  have hvariables := filter_eq_nil_of_ids
    (contract.stateVariables.mapIdx variableNode)
    (ids_mapIdx_ne (by simp [variableNode]))
  have hwriters := filter_mapIdx_eq_self writerNode (fun _ _ => rfl) (writers contract)
  rw [functionNodes, stateAccess, List.filter_append, hvariables, hwriters, List.nil_append]

/-! ## The functions behind them -/

theorem prefix_lines (first : String) (others : List String) :
    first.toList <+: (lines (first :: others)).toList := by
  rw [lines, String.toList_intercalate]
  cases others with
  | nil => simp
  | cons second rest => simp

/-- A function at an index, and a node by which it can be recognised: the written identity
selects the function, the category is that of its flow, and the label starts with its name. -/
structure ShowsFunction (contract : Contract) (node : Node) (index : Nat)
    (function : FunctionRecord) : Prop where
  id_eq : node.id.text = s!"function-{index}"
  at_index : contract.functions[index]? = some function
  select_eq : contract.select node.id.text = .ok function
  category_eq : node.category.map NodeCategory.name = some function.flowCategory.name
  label : function.name.toList <+: node.label.toList

variable {contract : Contract}

theorem lt_of_getElem? {index : Nat} {function : FunctionRecord}
    (hcount : contract.functions.length < 10 ^ Numeral.digitLimit)
    (hfunction : contract.functions[index]? = some function) :
    index < 10 ^ Numeral.digitLimit := by
  obtain ⟨hindex, -⟩ := List.getElem?_eq_some_iff.mp hfunction
  exact Nat.lt_trans hindex hcount

theorem showsFunction_functionNode {index : Nat} {function : FunctionRecord}
    (hcount : contract.functions.length < 10 ^ Numeral.digitLimit)
    (hfunction : contract.functions[index]? = some function) :
    ShowsFunction contract (Flow.functionNode index function) index function where
  id_eq := rfl
  at_index := hfunction
  select_eq := contract.select_text hfunction (lt_of_getElem? hcount hfunction)
  category_eq := rfl
  label := by
    have hname : function.name.toList <+:
        (s!"{function.name}(" ++ signature function.inputs ++ ")").toList := by
      simp only [String.toList_append, List.append_assoc]
      exact List.prefix_append _ _
    exact hname.trans (prefix_lines _ _)

theorem showsFunction_writerNode {row index : Nat} {function : FunctionRecord}
    (hcount : contract.functions.length < 10 ^ Numeral.digitLimit)
    (hfunction : contract.functions[index]? = some function) :
    ShowsFunction contract (StateAccess.writerNode row (function, index)) index function where
  id_eq := rfl
  at_index := hfunction
  select_eq := contract.select_text hfunction (lt_of_getElem? hcount hfunction)
  category_eq := rfl
  label := prefix_lines _ _

namespace StateAccess

theorem mem_writers_iff {function : FunctionRecord} {index : Nat} :
    (function, index) ∈ writers contract ↔ contract.functions[index]? = some function ∧
      ∃ declaration ∈ contract.stateVariables, function.name ∈ declaration.writtenBy := by
  rw [writers, List.mem_filter, List.mem_zipIdx_iff_getElem?]
  simp [assigns]

/-- The functions that assign something stand in the order of their indices. -/
theorem pairwise_writers (contract : Contract) :
    ((writers contract).map (·.2)).Pairwise (· < ·) := by
  have hsublist : ((writers contract).map (·.2)).Sublist (contract.functions.zipIdx.map (·.2)) :=
    List.filter_sublist.map _
  rw [List.zipIdx_map_snd] at hsublist
  exact List.Pairwise.sublist hsublist List.pairwise_lt_range'

end StateAccess

/-- Nodes that look like those of functions are numbered like the functions they show, in the
flow diagram all of them and in the state diagram those that assign a variable. -/
structure NumbersFunctions (contract : Contract) : Prop where
  flow_ids : (functionNodes (flow contract)).map (·.id.text) =
    (List.range contract.functions.length).map fun index => s!"function-{index}"
  state_ids : ∃ indices : List Nat,
    (functionNodes (stateAccess contract)).map (·.id.text) =
      indices.map (fun index => s!"function-{index}") ∧
    indices.Pairwise (· < ·) ∧
    ∀ index, index ∈ indices ↔ ∃ function, contract.functions[index]? = some function ∧
      ∃ declaration ∈ contract.stateVariables, function.name ∈ declaration.writtenBy
  shows : ∀ node ∈ functionNodes (flow contract) ++ functionNodes (stateAccess contract),
    ∃ index function, ShowsFunction contract node index function

/-- Any contract numbers its functions in its diagrams, if their indices can be read. -/
theorem numbersFunctions (hcount : contract.functions.length < 10 ^ Numeral.digitLimit) :
    NumbersFunctions contract where
  flow_ids := by
    have hids := ids_mapIdx Flow.functionNode .function (fun _ _ => rfl) contract.functions
    have htexts := congrArg (List.map NodeId.text) hids
    rw [List.map_map, List.map_map] at htexts
    rw [functionNodes_flow]
    exact htexts
  state_ids := by
    refine ⟨(StateAccess.writers contract).map (·.2), ?_, StateAccess.pairwise_writers contract, ?_⟩
    · rw [functionNodes_stateAccess, List.map_map]
      apply List.ext_getElem
      · simp
      · intro row hleft hright
        simp only [List.getElem_map, List.getElem_mapIdx]
        rfl
    · intro index
      simp only [← StateAccess.mem_writers_iff, List.mem_map, Prod.exists, exists_eq_right]
  shows := by
    intro node hnode
    rw [functionNodes_flow, functionNodes_stateAccess] at hnode
    rcases List.mem_append.mp hnode with hflow | hstate
    · obtain ⟨index, hindex, rfl⟩ := List.mem_mapIdx.mp hflow
      exact ⟨index, _, showsFunction_functionNode hcount (List.getElem?_eq_getElem hindex)⟩
    · obtain ⟨row, hrow, rfl⟩ := List.mem_mapIdx.mp hstate
      have hwriter := StateAccess.mem_writers_iff.mp (List.getElem_mem hrow)
      exact ⟨_, _, showsFunction_writerNode hcount hwriter.1⟩

/-- Three functions, the first and the last of one name, which assigns a variable. -/
def overloadedWriter : Contract where
  name := "Vault"
  functions := [{ name := "set" }, { name := "get", flowCategory := .system },
    { name := "set", flowCategory := .owner, roles := ["owner"] }]
  stateVariables := [{ name := "x", type := "uint", visibility := .publicly, writtenBy := ["set"] }]
  roles := [{ name := "function-1" }]

theorem numbersFunctions_overloadedWriter :
    overloadedWriter.functions.length < 10 ^ Numeral.digitLimit ∧
      (functionNodes (flow overloadedWriter)).map (·.id.text) =
        ["function-0", "function-1", "function-2"] ∧
      (functionNodes (stateAccess overloadedWriter)).map (·.id.text) =
        ["function-0", "function-2"] ∧
      NumbersFunctions overloadedWriter := by
  have hcount : overloadedWriter.functions.length < 10 ^ Numeral.digitLimit :=
    calc overloadedWriter.functions.length < 10 ^ 1 := by decide
      _ ≤ 10 ^ Numeral.digitLimit := Nat.pow_le_pow_right (by decide) (by decide)
  exact ⟨hcount, by decide +kernel, by decide +kernel, numbersFunctions hcount⟩

end Diagram

end ContractAtlas
