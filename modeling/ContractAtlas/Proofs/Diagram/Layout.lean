import ContractAtlas.Diagram.Classes
import ContractAtlas.Diagram.Focus
import ContractAtlas.Diagram.StateAccess
import ContractAtlas.Proofs.Diagram.Identity

/-!
# Where nodes stand

A node that stands on another one hides it.  The nodes of a diagram stand in columns and rows
that start at fixed places, or below whatever stands above them, so how many there are of one
kind decides where those of another kind begin.  Whatever the numbers are, no two nodes share a
position; and in the diagram of a function the calls stand below all inputs and modifiers, and
the outputs below all calls.

Nothing is asked of the contract: it need not be an analysed one, and several of its roles
may have one name.
-/

namespace ContractAtlas

/-- The place of a node. -/
def Node.position (node : Node) : Int × Int :=
  (node.x, node.y)

namespace Diagram

/-- The places of all nodes. -/
def positions (diagram : Diagram) : List (Int × Int) :=
  diagram.nodes.map Node.position

/-- No two nodes stand at one place. -/
def SpreadOut (diagram : Diagram) : Prop :=
  diagram.positions.Nodup

/-! ## Columns and rows -/

/-- Places one below the other. -/
def down (x top step : Int) (count : Nat) : List (Int × Int) :=
  (List.range count).map fun index : Nat => (x, top + index * step)

/-- Places side by side. -/
def across (left y step : Int) (count : Nat) : List (Int × Int) :=
  (List.range count).map fun index : Nat => (left + index * step, y)

section Places

variable {x y top left step : Int} {count : Nat} {place : Int × Int}

theorem index_eq_of_add_mul_eq (hstep : 0 < step) {first second : Nat}
    (heq : top + first * step = top + second * step) : first = second := by
  have hproducts : (first : Int) * step = second * step := Int.add_left_cancel heq
  exact Int.ofNat_inj.mp (Int.eq_of_mul_eq_mul_right (Int.ne_of_gt hstep) hproducts)

theorem nodup_down (hstep : 0 < step) : (down x top step count).Nodup := by
  rw [down]
  apply List.Nodup.map _ List.nodup_range
  intro first second heq
  exact index_eq_of_add_mul_eq hstep (Prod.mk.inj heq).2

theorem nodup_across (hstep : 0 < step) : (across left y step count).Nodup := by
  rw [across]
  apply List.Nodup.map _ List.nodup_range
  intro first second heq
  exact index_eq_of_add_mul_eq hstep (Prod.mk.inj heq).1

theorem fst_of_mem_down (hplace : place ∈ down x top step count) : place.1 = x := by
  obtain ⟨index, -, rfl⟩ := List.mem_map.mp hplace
  rfl

theorem snd_of_mem_across (hplace : place ∈ across left y step count) : place.2 = y := by
  obtain ⟨index, -, rfl⟩ := List.mem_map.mp hplace
  rfl

theorem le_add_mul (hstep : 0 < step) (index : Nat) : top ≤ top + index * step := by
  apply Int.le_add_of_nonneg_right
  exact Int.mul_nonneg (Int.natCast_nonneg index) (Int.le_of_lt hstep)

theorem le_snd_of_mem_down (hstep : 0 < step) (hplace : place ∈ down x top step count) :
    top ≤ place.2 := by
  obtain ⟨index, -, rfl⟩ := List.mem_map.mp hplace
  exact le_add_mul hstep index

/-- Nodes that are placed by their number among the nodes of their kind. -/
theorem positions_mapIdx {α : Type} (node : Nat → α → Node) {place : Nat → Int × Int}
    (hplace : ∀ index entry, (node index entry).position = place index) (list : List α) :
    (list.mapIdx node).map Node.position = (List.range list.length).map place :=
  map_mapIdx hplace list

theorem positions_ite (shown : Bool) (node : Node) :
    (if shown then [node] else []).map Node.position = if shown then [node.position] else [] := by
  cases shown <;> rfl

theorem nodup_ite (shown : Bool) : (if shown then [place] else []).Nodup := by
  cases shown <;> simp

end Places

/-! ## The views of a contract -/

section Views

variable (contract : Contract)

theorem positions_flow : (flow contract).positions =
    (250, 0) ::
      (down (-300) flowRow 100 contract.roles.length ++
        (if !contract.stateVariables.isEmpty then [(-200, flowRow)] else []) ++
        down 250 flowRow flowRow contract.functions.length ++
        down 700 100 flowRow contract.events.length ++
        (if !contract.findings.isEmpty then
          [(-200, max (flowRow + contract.functions.length * flowRow) 500)] else [])) := by
  have hroles : (contract.roles.mapIdx Flow.roleNode).map Node.position =
      down (-300) flowRow 100 contract.roles.length :=
    positions_mapIdx Flow.roleNode (fun _ _ => rfl) _
  have hfunctions : (contract.functions.mapIdx Flow.functionNode).map Node.position =
      down 250 flowRow flowRow contract.functions.length :=
    positions_mapIdx Flow.functionNode (fun _ _ => rfl) _
  have hevents : (contract.events.mapIdx Flow.eventNode).map Node.position =
      down 700 100 flowRow contract.events.length :=
    positions_mapIdx Flow.eventNode (fun _ _ => rfl) _
  rw [positions, flow]
  simp only [List.map_append, List.map_cons, hroles, hfunctions, hevents, positions_ite,
    List.cons_append, List.nil_append]
  rfl

/-- Only two columns are shared: the functions stand below the contract, and the findings below
the summary of the state. -/
theorem spreadOut_flow : (flow contract).SpreadOut := by
  have hrow : 0 < flowRow := by decide
  have hbelow : flowRow < 500 := by decide
  have hroles : (down (-300) flowRow 100 contract.roles.length).Nodup := nodup_down (by decide)
  have hfunctions : (down 250 flowRow flowRow contract.functions.length).Nodup := nodup_down hrow
  have hevents : (down 700 100 flowRow contract.events.length).Nodup := nodup_down hrow
  have hroleColumn : ∀ place ∈ down (-300) flowRow 100 contract.roles.length,
      place.1 = -300 := fun _ => fst_of_mem_down
  have hfunctionColumn : ∀ place ∈ down 250 flowRow flowRow contract.functions.length,
      place.1 = 250 := fun _ => fst_of_mem_down
  have heventColumn : ∀ place ∈ down 700 100 flowRow contract.events.length,
      place.1 = 700 := fun _ => fst_of_mem_down
  have hfirst : ∀ place ∈ down 250 flowRow flowRow contract.functions.length,
      flowRow ≤ place.2 := fun _ => le_snd_of_mem_down hrow
  rw [SpreadOut, positions_flow]
  simp only [List.nodup_cons, List.nodup_append, nodup_ite, hroles, hfunctions, hevents]
  grind

theorem positions_classes : (classes contract).positions =
    (300, 0) ::
      (across 300 (-100) 200 contract.parents.length ++
        down 800 100 flowRow contract.events.length) := by
  have hparents : (contract.parents.mapIdx Classes.parentNode).map Node.position =
      across 300 (-100) 200 contract.parents.length :=
    positions_mapIdx Classes.parentNode (fun _ _ => rfl) _
  have hevents : (contract.events.mapIdx Classes.eventNode).map Node.position =
      down 800 100 flowRow contract.events.length :=
    positions_mapIdx Classes.eventNode (fun _ _ => rfl) _
  rw [positions, classes]
  simp only [List.map_append, List.map_cons, hparents, hevents, List.cons_append, List.nil_append]
  rfl

/-- The parents stand in a row above everything else. -/
theorem spreadOut_classes : (classes contract).SpreadOut := by
  have hrow : 0 < flowRow := by decide
  have hparents : (across 300 (-100) 200 contract.parents.length).Nodup :=
    nodup_across (by decide)
  have hevents : (down 800 100 flowRow contract.events.length).Nodup := nodup_down hrow
  have hparentRow : ∀ place ∈ across 300 (-100) 200 contract.parents.length,
      place.2 = -100 := fun _ => snd_of_mem_across
  have hfirst : ∀ place ∈ down 800 100 flowRow contract.events.length, 100 ≤ place.2 :=
    fun _ => le_snd_of_mem_down hrow
  rw [SpreadOut, positions_classes]
  simp only [List.nodup_cons, List.nodup_append, hparents, hevents]
  grind

theorem positions_stateAccess : (stateAccess contract).positions =
    down 200 0 flowRow contract.stateVariables.length ++
      down 500 0 flowRow (StateAccess.writers contract).length := by
  have hvariables : (contract.stateVariables.mapIdx StateAccess.variableNode).map Node.position =
      down 200 0 flowRow contract.stateVariables.length :=
    positions_mapIdx StateAccess.variableNode
      (fun _ _ => by simp [Node.position, StateAccess.variableNode]) _
  have hwriters : ((StateAccess.writers contract).mapIdx StateAccess.writerNode).map
      Node.position = down 500 0 flowRow (StateAccess.writers contract).length :=
    positions_mapIdx StateAccess.writerNode
      (fun _ _ => by simp [Node.position, StateAccess.writerNode]) _
  rw [positions, stateAccess, List.map_append, hvariables, hwriters]

theorem spreadOut_stateAccess : (stateAccess contract).SpreadOut := by
  have hrow : 0 < flowRow := by decide
  rw [SpreadOut, positions_stateAccess, List.nodup_append]
  refine ⟨nodup_down hrow, nodup_down hrow, ?_⟩
  intro variablePlace hvariable writerPlace hwriter heq
  have hleft := fst_of_mem_down hvariable
  have hright := fst_of_mem_down hwriter
  rw [heq, hright] at hleft
  contradiction

end Views

/-! ## The diagram of one function -/

namespace Focus

variable (function : FunctionRecord)

theorem positions_focus : (focus function).positions =
    (250, 0) ::
      (down 50 firstRow row function.inputs.length ++
        down 450 firstRow row function.modifiers.length ++
        down 250 (callRow function) row function.calls.length ++
        down 250 (outputRow function) row function.outputs.length) := by
  have hinputs : (function.inputs.mapIdx inputNode).map Node.position =
      down 50 firstRow row function.inputs.length :=
    positions_mapIdx inputNode (fun _ _ => rfl) _
  have hmodifiers : (function.modifiers.mapIdx modifierNode).map Node.position =
      down 450 firstRow row function.modifiers.length :=
    positions_mapIdx modifierNode (fun _ _ => rfl) _
  have hcalls : (function.calls.mapIdx (callNode function)).map Node.position =
      down 250 (callRow function) row function.calls.length :=
    positions_mapIdx (callNode function) (fun _ _ => rfl) _
  have houtputs : (function.outputs.mapIdx (outputNode function)).map Node.position =
      down 250 (outputRow function) row function.outputs.length :=
    positions_mapIdx (outputNode function) (fun _ _ => rfl) _
  rw [positions, focus]
  simp only [List.map_append, List.map_cons, hinputs, hmodifiers, hcalls, houtputs,
    List.cons_append, List.nil_append]
  rfl

theorem firstRow_le_callRow : firstRow ≤ callRow function := by
  rw [callRow]
  split
  · exact Int.le_refl _
  · simp only [firstRow, row]
    omega

/-- With calls, their first row lies below all rows of inputs and of modifiers. -/
theorem add_mul_row_lt_callRow (hcalls : function.calls ≠ []) {index : Nat}
    (hindex : index < function.inputs.length ∨ index < function.modifiers.length) :
    firstRow + index * row < callRow function := by
  have hshown : function.calls.isEmpty = false := by simpa using hcalls
  rw [callRow, hshown, if_neg Bool.false_ne_true]
  simp only [firstRow, row]
  omega

/-- The first row of outputs lies below all rows of calls. -/
theorem add_mul_row_lt_outputRow {index : Nat} (hindex : index < function.calls.length) :
    callRow function + index * row < outputRow function := by
  rw [outputRow]
  simp only [row]
  omega

theorem callRow_lt_outputRow : callRow function < outputRow function := by
  rw [outputRow]
  simp only [row]
  omega

/-- Calls and outputs stand in the column of the function itself: the outputs start below the
last call, and the calls below the function. -/
theorem spreadOut_focus : (focus function).SpreadOut := by
  have hrow : 0 < row := by decide
  have htop : 0 < firstRow := by decide
  have hcallRow := firstRow_le_callRow function
  have houtputRow := callRow_lt_outputRow function
  have hinputs : (down 50 firstRow row function.inputs.length).Nodup := nodup_down hrow
  have hmodifiers : (down 450 firstRow row function.modifiers.length).Nodup := nodup_down hrow
  have hcalls : (down 250 (callRow function) row function.calls.length).Nodup := nodup_down hrow
  have houtputs : (down 250 (outputRow function) row function.outputs.length).Nodup :=
    nodup_down hrow
  have hinputColumn : ∀ place ∈ down 50 firstRow row function.inputs.length, place.1 = 50 :=
    fun _ => fst_of_mem_down
  have hmodifierColumn : ∀ place ∈ down 450 firstRow row function.modifiers.length,
      place.1 = 450 := fun _ => fst_of_mem_down
  have hcallColumn : ∀ place ∈ down 250 (callRow function) row function.calls.length,
      place.1 = 250 ∧ callRow function ≤ place.2 ∧ place.2 < outputRow function := by
    intro place hplace
    obtain ⟨index, hindex, rfl⟩ := List.mem_map.mp hplace
    have hbelow := add_mul_row_lt_outputRow function (List.mem_range.mp hindex)
    exact ⟨rfl, le_snd_of_mem_down hrow hplace, hbelow⟩
  have houtputColumn : ∀ place ∈ down 250 (outputRow function) row function.outputs.length,
      place.1 = 250 ∧ outputRow function ≤ place.2 :=
    fun _ hplace => ⟨fst_of_mem_down hplace, le_snd_of_mem_down hrow hplace⟩
  rw [SpreadOut, positions_focus]
  simp only [List.nodup_cons, List.nodup_append, hinputs, hmodifiers, hcalls, houtputs]
  grind

/-- One node stands for something that comes before what the other stands for: calls come after
inputs and modifiers, and outputs after calls. -/
inductive Before : NodeId → NodeId → Prop
  | input_call (input call : Nat) : Before (.input input) (.call call)
  | modifier_call (modifier call : Nat) : Before (.modifier modifier) (.call call)
  | call_output (call output : Nat) : Before (.call call) (.output output)

/-- What comes before stands higher. -/
def IsLayered (diagram : Diagram) : Prop :=
  ∀ upper ∈ diagram.nodes, ∀ lower ∈ diagram.nodes,
    Before upper.id lower.id → upper.y < lower.y

/-- The heights at which nodes stand, by what they stand for. -/
inductive Stands : NodeId → Int → Prop
  | focus : Stands .focus 0
  | input (index : Nat) (hindex : index < function.inputs.length) :
      Stands (.input index) (firstRow + index * row)
  | modifier (index : Nat) (hindex : index < function.modifiers.length) :
      Stands (.modifier index) (firstRow + index * row)
  | call (index : Nat) (hindex : index < function.calls.length) :
      Stands (.call index) (callRow function + index * row)
  | output (index : Nat) (hindex : index < function.outputs.length) :
      Stands (.output index) (outputRow function + index * row)

variable {function}

theorem stands_of_mem {node : Node} (hnode : node ∈ (focus function).nodes) :
    Stands function node.id node.y := by
  simp only [focus, List.mem_append, List.mem_singleton, List.mem_mapIdx] at hnode
  rcases hnode with (((rfl | ⟨index, hindex, rfl⟩) | ⟨index, hindex, rfl⟩) |
    ⟨index, hindex, rfl⟩) | ⟨index, hindex, rfl⟩
  · exact .focus
  · exact .input index hindex
  · exact .modifier index hindex
  · exact .call index hindex
  · exact .output index hindex

/-- The first row of the lower kind already lies below every row of the upper kind. -/
theorem Stands.lt_of_before {upper lower : NodeId} {upperRow lowerRow : Int}
    (hupper : Stands function upper upperRow) (hlower : Stands function lower lowerRow)
    (hbefore : Before upper lower) : upperRow < lowerRow := by
  have hstep : 0 < row := by decide
  cases hlower with
  | focus => cases hbefore
  | input index hindex => cases hbefore
  | modifier index hindex => cases hbefore
  | call index hindex =>
      have hcalls : function.calls ≠ [] := List.ne_nil_of_length_pos (Nat.zero_lt_of_lt hindex)
      apply Int.lt_of_lt_of_le _ (le_add_mul hstep index)
      cases hupper with
      | input upperIndex hinput =>
          exact add_mul_row_lt_callRow function hcalls (Or.inl hinput)
      | modifier upperIndex hmodifier =>
          exact add_mul_row_lt_callRow function hcalls (Or.inr hmodifier)
      | focus => cases hbefore
      | call upperIndex hcall => cases hbefore
      | output upperIndex houtput => cases hbefore
  | output index hindex =>
      apply Int.lt_of_lt_of_le _ (le_add_mul hstep index)
      cases hupper with
      | call upperIndex hcall => exact add_mul_row_lt_outputRow function hcall
      | focus => cases hbefore
      | input upperIndex hinput => cases hbefore
      | modifier upperIndex hmodifier => cases hbefore
      | output upperIndex houtput => cases hbefore

theorem isLayered_focus : IsLayered (focus function) := by
  intro upper hupper lower hlower hbefore
  exact (stands_of_mem hupper).lt_of_before (stands_of_mem hlower) hbefore

end Focus

/-- In none of the four diagrams does a node hide another one, whatever the contract and the
function hold; and the diagram of a function is in layers. -/
theorem spreadOut_and_isLayered (contract : Contract) (function : FunctionRecord) :
    (flow contract).SpreadOut ∧ (classes contract).SpreadOut ∧
      (stateAccess contract).SpreadOut ∧ (focus function).SpreadOut ∧
      Focus.IsLayered (focus function) :=
  ⟨spreadOut_flow contract, spreadOut_classes contract, spreadOut_stateAccess contract,
    Focus.spreadOut_focus function, Focus.isLayered_focus⟩

end Diagram

end ContractAtlas
