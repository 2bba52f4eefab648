import ContractAtlas.Diagram.Focus
import ContractAtlas.Diagram.Selection
import ContractAtlas.Proofs.Diagram.FlowEdges

/-!
# Diagrams are graphs

A drawing program knows nodes and edges by their written identities, and drops what it
has seen before or cannot find.  In the diagrams of an analysed contract it has nothing
to drop, and no edge leads back to where it starts.  The diagram of a single function is
a star as well.  Only the flow diagram needs the contract to be an analysed one; the other
diagrams number everything they show.
-/

namespace ContractAtlas

namespace Diagram

/-- Nodes and edges are told apart by what is written, and edges join two nodes. -/
structure WellFormed (diagram : Diagram) : Prop where
  nodup_nodeIds : (diagram.nodes.map (·.id.text)).Nodup
  nodup_edgeIds : (diagram.edges.map (·.id)).Nodup
  exists_source : ∀ edge ∈ diagram.edges, ∃ node ∈ diagram.nodes, node.id.text = edge.source.text
  exists_target : ∀ edge ∈ diagram.edges, ∃ node ∈ diagram.nodes, node.id.text = edge.target.text
  not_loop : ∀ edge ∈ diagram.edges, edge.source.text ≠ edge.target.text

/-- An edge between two different nodes that does not start at a role. -/
structure Joins (diagram : Diagram) (source target : NodeId) : Prop where
  source_mem : source ∈ diagram.ids
  target_mem : target ∈ diagram.ids
  ne : source ≠ target
  not_isRole : source.isRole = false

/-- What a diagram writes is unambiguous if what it stands for is. -/
theorem WellFormed.of_joins {diagram : Diagram} (hids : diagram.ids.Nodup)
    (hends : diagram.ends.Nodup)
    (hjoins : ∀ source target, (source, target) ∈ diagram.ends → diagram.Joins source target) :
    diagram.WellFormed := by
  have hedge : ∀ edge ∈ diagram.edges, diagram.Joins edge.source edge.target := by
    intro edge hedge
    exact hjoins _ _ (List.mem_map_of_mem hedge)
  have hnode : ∀ id ∈ diagram.ids, ∃ node ∈ diagram.nodes, node.id.text = id.text := by
    intro id hid
    obtain ⟨node, hnode, rfl⟩ := List.mem_map.mp hid
    exact ⟨node, hnode, rfl⟩
  exact {
    nodup_nodeIds := Diagram.nodup_nodeIds hids
    nodup_edgeIds := Diagram.nodup_edgeIds hends fun edge hmem => (hedge edge hmem).not_isRole
    exists_source := fun edge hmem => hnode _ (hedge edge hmem).source_mem
    exists_target := fun edge hmem => hnode _ (hedge edge hmem).target_mem
    not_loop := fun edge hmem heq => (hedge edge hmem).ne (NodeId.text_injective heq) }

/-! ## The views of a contract -/

variable {contract : Contract}

theorem Flow.function_mem_ids {index : Nat} (hindex : index < contract.functions.length) :
    NodeId.function index ∈ (flow contract).ids := by
  rw [Flow.ids_flow]
  simp [hindex]

theorem Flow.firstIndex_mem_ids {name : String} {index : Nat}
    (hfirst : contract.FirstIndex name index) : NodeId.function index ∈ (flow contract).ids := by
  apply function_mem_ids
  have hlength := (List.getElem?_eq_some_iff.mp hfirst.1).1
  rwa [Contract.declaredNames, List.length_map] at hlength

theorem Flow.joins_of_link (hresolve : contract.ReferencesResolve) {source target : NodeId}
    (hlink : Flow.Link contract source target) : (flow contract).Joins source target := by
  cases hlink with
  | spoke hid hother =>
      exact ⟨by rw [Flow.ids_flow]; exact List.mem_cons_self, hid, Ne.symm hother, rfl⟩
  | call hfunction hname htarget =>
      have hne := Flow.index_ne_of_mem_calls hresolve hfunction hname htarget
      obtain ⟨hindex, -⟩ := List.getElem?_eq_some_iff.mp hfunction
      exact ⟨function_mem_ids hindex, firstIndex_mem_ids htarget,
        fun heq => hne (NodeId.function.inj heq).symm, rfl⟩
  | emission hevent hname hsource =>
      obtain ⟨hindex, -⟩ := List.getElem?_eq_some_iff.mp hevent
      refine ⟨firstIndex_mem_ids hsource, ?_, NodeId.noConfusion, rfl⟩
      rw [Flow.ids_flow]
      simp [hindex]
  | finding hfinding hname hsource =>
      refine ⟨firstIndex_mem_ids hsource, ?_, NodeId.noConfusion, rfl⟩
      have hshown : contract.findings ≠ [] := List.ne_nil_of_mem hfinding
      rw [Flow.ids_flow]
      simp [hshown]

theorem wellFormed_flow (hresolve : contract.ReferencesResolve)
    (hroles : contract.roles.names.Nodup) : (flow contract).WellFormed := by
  apply WellFormed.of_joins (Flow.nodup_ids_flow hroles) (Flow.nodup_ends_flow hresolve hroles)
  intro source target hends
  exact Flow.joins_of_link hresolve ((Flow.mem_ends_flow_iff hresolve).mp hends)

theorem Classes.ids_classes (contract : Contract) :
    (classes contract).ids = NodeId.contract ::
      ((List.range contract.parents.length).map NodeId.parent ++
        (List.range contract.events.length).map NodeId.event) := by
  have hparents : (contract.parents.mapIdx parentNode).map (·.id) =
      (List.range contract.parents.length).map .parent :=
    ids_mapIdx parentNode .parent (fun _ _ => rfl) _
  have hevents : (contract.events.mapIdx eventNode).map (·.id) =
      (List.range contract.events.length).map .event :=
    ids_mapIdx eventNode .event (fun _ _ => rfl) _
  rw [ids, classes]
  simp only [List.map_append, List.map_cons, hparents, hevents, List.cons_append,
    List.nil_append]
  rfl

theorem Classes.ends_classes (contract : Contract) :
    (classes contract).ends =
      (List.range contract.parents.length).map fun index =>
        (NodeId.parent index, NodeId.contract) := by
  rw [ends, classes, List.map_map]
  rfl

theorem wellFormed_classes (contract : Contract) : (classes contract).WellFormed := by
  have hparents : ((List.range contract.parents.length).map NodeId.parent).Nodup :=
    List.Nodup.map (fun _ _ heq => NodeId.parent.inj heq) List.nodup_range
  have hevents : ((List.range contract.events.length).map NodeId.event).Nodup :=
    List.Nodup.map (fun _ _ heq => NodeId.event.inj heq) List.nodup_range
  apply WellFormed.of_joins
  · rw [Classes.ids_classes]
    simp only [List.nodup_cons, List.nodup_append, hparents, hevents]
    grind
  · rw [Classes.ends_classes]
    exact List.Nodup.map (fun _ _ heq => NodeId.parent.inj (Prod.mk.inj heq).1) List.nodup_range
  · intro source target hends
    rw [Classes.ends_classes] at hends
    obtain ⟨index, hindex, hpair⟩ := List.mem_map.mp hends
    obtain ⟨rfl, rfl⟩ := Prod.mk.inj hpair
    refine ⟨?_, ?_, NodeId.noConfusion, rfl⟩
    · rw [Classes.ids_classes]
      simpa using hindex
    · rw [Classes.ids_classes]
      exact List.mem_cons_self

theorem StateAccess.ids_stateAccess (contract : Contract) :
    (stateAccess contract).ids =
      (List.range contract.stateVariables.length).map NodeId.variable ++
        (writers contract).map fun writer => NodeId.function writer.2 := by
  have hvariables : (contract.stateVariables.mapIdx variableNode).map (·.id) =
      (List.range contract.stateVariables.length).map .variable :=
    ids_mapIdx variableNode .variable (fun _ _ => rfl) _
  have hwriters : ((writers contract).mapIdx writerNode).map (·.id) =
      (writers contract).map fun writer => NodeId.function writer.2 := by
    apply List.ext_getElem
    · simp
    · intro row hleft hright
      simp [writerNode]
  rw [ids, stateAccess, List.map_append, hvariables, hwriters]

/-- The ends of the edges from one function. -/
def StateAccess.writerEnds (contract : Contract) (writer : FunctionRecord × Nat) :
    List (NodeId × NodeId) :=
  (contract.stateVariables.zipIdx.filter fun entry => assigns writer.1 entry.1).map fun entry =>
    (.function writer.2, .variable entry.2)

theorem StateAccess.ends_stateAccess (contract : Contract) :
    (stateAccess contract).ends = (writers contract).flatMap (writerEnds contract) := by
  rw [ends, stateAccess, List.map_flatMap]
  apply List.flatMap_congr
  intro writer hwriter
  rw [writerEdges, List.map_map]
  rfl

theorem wellFormed_stateAccess (contract : Contract) : (stateAccess contract).WellFormed := by
  have hwriters : (StateAccess.writers contract).Sublist contract.functions.zipIdx :=
    List.filter_sublist
  have hvariables : ((List.range contract.stateVariables.length).map NodeId.variable).Nodup :=
    List.Nodup.map (fun _ _ heq => NodeId.variable.inj heq) List.nodup_range
  have hfunctions : ((StateAccess.writers contract).map fun writer =>
      NodeId.function writer.2).Nodup :=
    FirstSeen.nodup_map_place hwriters fun _ _ heq => NodeId.function.inj heq
  apply WellFormed.of_joins
  · rw [StateAccess.ids_stateAccess]
    simp only [List.nodup_append, hvariables, hfunctions]
    grind
  · rw [StateAccess.ends_stateAccess]
    apply FirstSeen.nodup_flatMap_of_place (fun pair => pair.1.index?) hwriters
    · intro writer _
      exact FirstSeen.nodup_map_place List.filter_sublist fun _ _ heq =>
        NodeId.variable.inj (Prod.mk.inj heq).2
    · intro writer _ pair hpair
      obtain ⟨entry, -, rfl⟩ := List.mem_map.mp hpair
      rfl
  · intro source target hends
    rw [StateAccess.ends_stateAccess] at hends
    obtain ⟨writer, hwriter, hrow⟩ := List.mem_flatMap.mp hends
    obtain ⟨⟨declaration, index⟩, hentry, hpair⟩ := List.mem_map.mp hrow
    obtain ⟨rfl, rfl⟩ := Prod.mk.inj hpair
    have hvariable := List.mem_zipIdx_iff_getElem?.mp (List.mem_of_mem_filter hentry)
    obtain ⟨hindex, -⟩ := List.getElem?_eq_some_iff.mp hvariable
    refine ⟨?_, ?_, NodeId.noConfusion, rfl⟩
    · rw [StateAccess.ids_stateAccess]
      exact List.mem_append_right _ (List.mem_map_of_mem hwriter)
    · rw [StateAccess.ids_stateAccess]
      simpa using hindex

/-! ## The diagram of one function -/

namespace Focus

variable {function : FunctionRecord}

/-- Inputs lead to the function, and the function leads to everything else. -/
def joint : NodeId → NodeId × NodeId
  | .input index => (.input index, .focus)
  | id => (.focus, id)

/-- What stands around the function. -/
def surroundings (function : FunctionRecord) : List NodeId :=
  (List.range function.inputs.length).map NodeId.input ++
    (List.range function.modifiers.length).map NodeId.modifier ++
    (List.range function.calls.length).map NodeId.call ++
    (List.range function.outputs.length).map NodeId.output

theorem ids_focus (function : FunctionRecord) :
    (focus function).ids = NodeId.focus :: surroundings function := by
  have hinputs : (function.inputs.mapIdx inputNode).map (·.id) =
      (List.range function.inputs.length).map .input :=
    ids_mapIdx inputNode .input (fun _ _ => rfl) _
  have hmodifiers : (function.modifiers.mapIdx modifierNode).map (·.id) =
      (List.range function.modifiers.length).map .modifier :=
    ids_mapIdx modifierNode .modifier (fun _ _ => rfl) _
  have hcalls : (function.calls.mapIdx (callNode function)).map (·.id) =
      (List.range function.calls.length).map .call :=
    ids_mapIdx (callNode function) .call (fun _ _ => rfl) _
  have houtputs : (function.outputs.mapIdx (outputNode function)).map (·.id) =
      (List.range function.outputs.length).map .output :=
    ids_mapIdx (outputNode function) .output (fun _ _ => rfl) _
  rw [ids, focus]
  simp only [List.map_append, List.map_cons, hinputs, hmodifiers, hcalls, houtputs,
    List.cons_append, List.nil_append]
  rfl

theorem ends_focus (function : FunctionRecord) :
    (focus function).ends = (surroundings function).map joint := by
  rw [ends, focus, surroundings]
  simp only [fan, List.map_append, List.map_map]
  rfl

theorem nodup_surroundings (function : FunctionRecord) : (surroundings function).Nodup := by
  have hinputs : ((List.range function.inputs.length).map NodeId.input).Nodup :=
    List.Nodup.map (fun _ _ heq => NodeId.input.inj heq) List.nodup_range
  have hmodifiers : ((List.range function.modifiers.length).map NodeId.modifier).Nodup :=
    List.Nodup.map (fun _ _ heq => NodeId.modifier.inj heq) List.nodup_range
  have hcalls : ((List.range function.calls.length).map NodeId.call).Nodup :=
    List.Nodup.map (fun _ _ heq => NodeId.call.inj heq) List.nodup_range
  have houtputs : ((List.range function.outputs.length).map NodeId.output).Nodup :=
    List.Nodup.map (fun _ _ heq => NodeId.output.inj heq) List.nodup_range
  rw [surroundings]
  simp only [List.nodup_append, hinputs, hmodifiers, hcalls, houtputs]
  grind

theorem focus_notMem_surroundings (function : FunctionRecord) :
    NodeId.focus ∉ surroundings function := by
  rw [surroundings]
  grind

theorem joint_eq (id : NodeId) :
    joint id = (id, .focus) ∧ id.isRole = false ∨ joint id = (.focus, id) := by
  cases id <;> simp [joint, NodeId.isRole]

/-- Only the joint of a node touches it. -/
theorem joint_touches_iff {id other : NodeId} (hid : id ≠ .focus) :
    (joint other).1 = id ∨ (joint other).2 = id ↔ other = id := by
  rcases joint_eq other with ⟨heq, -⟩ | heq
  · simp [heq, hid.symm]
  · simp [heq, hid.symm]

theorem ne_focus_of_mem_surroundings {id : NodeId} (hid : id ∈ surroundings function) :
    id ≠ .focus := by
  rintro rfl
  exact focus_notMem_surroundings function hid

theorem nodup_ends_focus (function : FunctionRecord) : (focus function).ends.Nodup := by
  rw [ends_focus]
  apply List.Nodup.map_on _ (nodup_surroundings function)
  intro left hleft right _ heq
  have hne := ne_focus_of_mem_surroundings hleft
  have htouches := (joint_touches_iff hne).mpr rfl
  rw [heq] at htouches
  exact ((joint_touches_iff hne).mp htouches).symm

/-- The function stands in the middle of its diagram. -/
structure IsStar (function : FunctionRecord) : Prop where
  hub : ∃ node ∈ (focus function).nodes, node.id = .focus ∧ node.id.text = "function"
  /-- The one edge of each node around the function is its joint. -/
  spoke : ∀ node ∈ (focus function).nodes, node.id ≠ .focus →
    ∃ joining : Edge, joining.ends = joint node.id ∧
      (focus function).edges.filter (fun edge =>
        edge.source.text = node.id.text ∨ edge.target.text = node.id.text) = [joining]

theorem filter_surroundings {id : NodeId} (hid : id ∈ surroundings function) :
    (surroundings function).filter (fun other =>
      (joint other).1 = id ∨ (joint other).2 = id) = [id] := by
  have hne := ne_focus_of_mem_surroundings hid
  simp only [joint_touches_iff hne]
  rw [List.filter_eq, List.count_eq_one_of_mem (nodup_surroundings function) hid]
  rfl

theorem exists_hub (function : FunctionRecord) :
    ∃ node ∈ (focus function).nodes, node.id = .focus := by
  have hfocus : NodeId.focus ∈ (focus function).ids := by
    rw [ids_focus]
    exact List.mem_cons_self
  exact List.mem_map.mp hfocus

theorem exists_spoke {node : Node} (hnode : node ∈ (focus function).nodes)
    (hother : node.id ≠ .focus) :
    ∃ joining : Edge, joining.ends = joint node.id ∧
      (focus function).edges.filter (fun edge =>
        edge.source.text = node.id.text ∨ edge.target.text = node.id.text) = [joining] := by
  have hid : node.id ∈ surroundings function := by
    have hmem : node.id ∈ (focus function).ids := List.mem_map_of_mem hnode
    rw [ids_focus] at hmem
    exact (List.mem_cons.mp hmem).resolve_left hother
  have hends : ((focus function).edges.filter fun edge =>
      edge.source.text = node.id.text ∨ edge.target.text = node.id.text).map Edge.ends =
        [joint node.id] := by
    simp only [NodeId.text_injective.eq_iff]
    calc
      ((focus function).edges.filter fun edge =>
          edge.source = node.id ∨ edge.target = node.id).map Edge.ends =
          (focus function).ends.filter fun pair => pair.1 = node.id ∨ pair.2 = node.id := by
        rw [ends, List.filter_map]
        rfl
      _ = ((surroundings function).filter fun other =>
          (joint other).1 = node.id ∨ (joint other).2 = node.id).map joint := by
        rw [ends_focus, List.filter_map]
        rfl
      _ = [joint node.id] := by rw [filter_surroundings hid, List.map_singleton]
  obtain ⟨joining, hedges, hjoint⟩ := List.map_eq_singleton_iff.mp hends
  exact ⟨joining, hjoint, hedges⟩

theorem isStar (function : FunctionRecord) : IsStar function where
  hub := by
    obtain ⟨node, hnode, hid⟩ := exists_hub function
    exact ⟨node, hnode, hid, by rw [hid, NodeId.text]⟩
  spoke _ := exists_spoke

end Focus

theorem wellFormed_focus (function : FunctionRecord) : (focus function).WellFormed := by
  apply WellFormed.of_joins
  · rw [Focus.ids_focus]
    exact List.nodup_cons.mpr
      ⟨Focus.focus_notMem_surroundings function, Focus.nodup_surroundings function⟩
  · exact Focus.nodup_ends_focus function
  · intro source target hends
    rw [Focus.ends_focus] at hends
    obtain ⟨id, hid, hpair⟩ := List.mem_map.mp hends
    have hne := Focus.ne_focus_of_mem_surroundings hid
    have hfocus : NodeId.focus ∈ (focus function).ids := by
      rw [Focus.ids_focus]
      exact List.mem_cons_self
    have hmem : id ∈ (focus function).ids := by
      rw [Focus.ids_focus]
      exact List.mem_cons_of_mem _ hid
    rcases Focus.joint_eq id with ⟨heq, hrole⟩ | heq
    · obtain ⟨rfl, rfl⟩ := Prod.mk.inj (heq.symm.trans hpair)
      exact ⟨hmem, hfocus, hne, hrole⟩
    · obtain ⟨rfl, rfl⟩ := Prod.mk.inj (heq.symm.trans hpair)
      exact ⟨hfocus, hmem, hne.symm, rfl⟩

/-- Every diagram that can be asked for is a graph, and that of a function is a star. -/
theorem wellFormed_and_star :
    (∀ contract : Contract, contract.Analysed → ∀ view : View,
      (view.diagram contract).WellFormed) ∧
    ∀ function : FunctionRecord, (focus function).WellFormed ∧ Focus.IsStar function := by
  constructor
  · intro contract hanalysed view
    cases view with
    | flow =>
        obtain ⟨hresolve, hroles⟩ := hanalysed.resolve_and_nodup_roles
        exact wellFormed_flow hresolve hroles
    | classes => exact wellFormed_classes contract
    | state => exact wellFormed_stateAccess contract
  · intro function
    exact ⟨wellFormed_focus function, Focus.isStar function⟩

theorem wellFormed_and_star_renamedSource :
    ∃ result entry, Batch.analyse [renamedSource, ("Empty", " ")] = .ok result ∧
      entry ∈ result.contracts ∧ entry.contract.name = "Vault" ∧
      (flow entry.contract).WellFormed ∧
      ∀ function ∈ entry.contract.functions,
        (focus function).WellFormed ∧ Focus.IsStar function := by
  obtain ⟨result, entry, hresult, hentry, hname, -⟩ := mem_contracts_renamedSource
  exact ⟨result, entry, hresult, hentry, hname,
    wellFormed_and_star.1 entry.contract (.ofBatch hresult hentry) .flow,
    fun function _ => wellFormed_and_star.2 function⟩

end Diagram

end ContractAtlas
