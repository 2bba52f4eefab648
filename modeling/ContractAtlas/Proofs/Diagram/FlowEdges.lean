import ContractAtlas.Diagram.Flow
import ContractAtlas.Proofs.Diagram.Identity
import ContractAtlas.Proofs.Integrity
import Mathlib.Algebra.Order.Ring.Nat

/-!
# The edges of the flow diagram

The flow diagram looks every name up, and leaves out a name that it does not find.  In an
analysed contract every name is found, so nothing is left out: the edges are one from the
contract to each other node, and one for each name in a list of calls, of emitting
functions or of affected functions, between the places of the functions in question.
-/

namespace ContractAtlas

namespace Contract

variable {contract : Contract}

/-- The place of the first function with a name. -/
def FirstIndex (contract : Contract) (name : String) (index : Nat) : Prop :=
  contract.declaredNames[index]? = some name ∧ name ∉ contract.declaredNames.take index

theorem firstIndex_iff {name : String} {index : Nat} :
    contract.FirstIndex name index ↔
      name ∈ contract.declaredNames ∧ contract.declaredNames.idxOf name = index := by
  constructor
  · rintro ⟨hget, hnot⟩
    have hname : name ∈ contract.declaredNames := List.mem_of_getElem? hget
    have htake : name ∈ contract.declaredNames.take (index + 1) := by
      apply List.mem_of_getElem? (i := index)
      rw [List.getElem?_take_of_lt (Nat.lt_succ_self index), hget]
    rw [List.mem_take_iff_idxOf_lt hname] at hnot htake
    exact ⟨hname, by omega⟩
  · rintro ⟨hname, rfl⟩
    refine ⟨List.getElem?_idxOf hname, ?_⟩
    rw [List.mem_take_iff_idxOf_lt hname]
    exact Nat.lt_irrefl _

theorem functionIndex?_eq_some {name : String} (hname : name ∈ contract.declaredNames) :
    contract.functionIndex? name = some (contract.declaredNames.idxOf name) := by
  have hexists : ∃ other ∈ contract.declaredNames, (other == name) = true :=
    ⟨name, hname, BEq.rfl⟩
  have hfound := List.findIdx?_eq_some_of_exists hexists
  rw [declaredNames, List.findIdx?_map] at hfound
  exact hfound

theorem filterMap_functionIndex? {names : List String}
    (hnames : names ⊆ contract.declaredNames) :
    names.filterMap contract.functionIndex? = names.map contract.declaredNames.idxOf := by
  rw [← List.filterMap_eq_map]
  apply List.filterMap_congr
  intro name hname
  exact functionIndex?_eq_some (hnames hname)

theorem idxOf_injOn_declaredNames (contract : Contract) :
    ∀ left ∈ contract.declaredNames, ∀ right ∈ contract.declaredNames,
      contract.declaredNames.idxOf left = contract.declaredNames.idxOf right → left = right := by
  intro left hleft right _ heq
  exact (List.idxOf_inj hleft).mp heq

theorem functionIndices_eq {names : List String} (hnames : names ⊆ contract.declaredNames) :
    Diagram.Flow.functionIndices contract names =
      (unique names).map contract.declaredNames.idxOf := by
  rw [Diagram.Flow.functionIndices, filterMap_functionIndex? hnames]
  apply FirstSeen.eraseDups_map
  intro left hleft right hright
  exact contract.idxOf_injOn_declaredNames left (hnames hleft) right (hnames hright)

end Contract

namespace Diagram.Flow

variable {contract : Contract}

/-! ## The two kinds of edges -/

/-- The ends of an edge from the contract to another node. -/
def spoke (id : NodeId) : NodeId × NodeId :=
  (.contract, id)

def spokes (contract : Contract) : List (NodeId × NodeId) :=
  (flow contract).ids.tail.map spoke

/-- The ends for each call of a function: from its place to that of the first function of
the called name. -/
def callEndsOf (contract : Contract) (entry : FunctionRecord × Nat) : List (NodeId × NodeId) :=
  entry.1.calls.map fun name =>
    (.function entry.2, .function (contract.declaredNames.idxOf name))

def callEnds (contract : Contract) : List (NodeId × NodeId) :=
  contract.functions.zipIdx.flatMap (callEndsOf contract)

def emissionEndsOf (contract : Contract) (entry : EventRecord × Nat) : List (NodeId × NodeId) :=
  entry.1.emittedBy.map fun name =>
    (.function (contract.declaredNames.idxOf name), .event entry.2)

def emissionEnds (contract : Contract) : List (NodeId × NodeId) :=
  contract.events.zipIdx.flatMap (emissionEndsOf contract)

def affectedNames (contract : Contract) : List String :=
  contract.findings.flatMap (·.affectedFunctions)

def findingEnds (contract : Contract) : List (NodeId × NodeId) :=
  (unique (affectedNames contract)).map fun name =>
    (.function (contract.declaredNames.idxOf name), .security)

theorem ids_roles (roles : RoleTable) :
    (roles.mapIdx roleNode).map (·.id) = roles.names.map .role := by
  apply List.ext_getElem
  · simp [RoleTable.names]
  · intro index hleft hright
    simp [RoleTable.names, roleNode]

theorem ids_flow (contract : Contract) :
    (flow contract).ids = NodeId.contract ::
      (contract.roles.names.map NodeId.role ++
        (if !contract.stateVariables.isEmpty then [NodeId.state] else []) ++
        (List.range contract.functions.length).map NodeId.function ++
        (List.range contract.events.length).map NodeId.event ++
        (if !contract.findings.isEmpty then [NodeId.security] else [])) := by
  have hfunctions : (contract.functions.mapIdx functionNode).map (·.id) =
      (List.range contract.functions.length).map .function :=
    ids_mapIdx functionNode .function (fun _ _ => rfl) _
  have hevents : (contract.events.mapIdx eventNode).map (·.id) =
      (List.range contract.events.length).map .event :=
    ids_mapIdx eventNode .event (fun _ _ => rfl) _
  rw [ids, flow]
  simp only [List.map_append, List.map_cons, List.map_nil, ids_roles, hfunctions, hevents,
    apply_ite (List.map _), List.cons_append, List.nil_append]
  rfl

/-! ## The edges in the diagram -/

/-- Each row of edges closes with one from the contract; these can be put behind all rows. -/
theorem perm_rows {α : Type} {list : List α} {edges : Nat → α → List Edge}
    {row : α × Nat → List (NodeId × NodeId)} {id : Nat → NodeId}
    (hrow : ∀ entry ∈ list.zipIdx,
      (edges entry.2 entry.1).map Edge.ends = row entry ++ [spoke (id entry.2)]) :
    ((list.mapIdx edges).flatten.map Edge.ends).Perm
      (list.zipIdx.flatMap row ++ (List.range list.length).map (spoke ∘ id)) := by
  have hrows : (list.mapIdx edges).flatten.map Edge.ends =
      list.zipIdx.flatMap fun entry => row entry ++ [spoke (id entry.2)] := by
    rw [List.mapIdx_eq_zipIdx_map, ← List.flatMap_def, List.map_flatMap]
    exact List.flatMap_congr hrow
  have hspokes : (list.zipIdx.flatMap fun entry => [spoke (id entry.2)]) =
      (List.range list.length).map (spoke ∘ id) := by
    rw [← List.map_eq_flatMap, List.range_eq_range', ← List.zipIdx_map_snd 0 list, List.map_map]
    rfl
  rw [hrows, ← hspokes]
  exact (List.flatMap_append_perm _ _ _).symm

theorem ends_functionEdges {function : FunctionRecord}
    (hcalls : function.calls ⊆ contract.declaredNames) (index : Nat) :
    (functionEdges contract index function).map Edge.ends =
      callEndsOf contract (function, index) ++ [spoke (.function index)] := by
  rw [functionEdges, Contract.filterMap_functionIndex? hcalls]
  simp only [List.map_append, List.map_map]
  rfl

theorem ends_edgesInto {names : List String} (hnames : names ⊆ contract.declaredNames)
    (target : NodeId) (stroke : String) :
    (edgesInto target (functionIndices contract names) stroke).map Edge.ends =
      (unique names).map (fun name =>
        (.function (contract.declaredNames.idxOf name), target)) ++ [spoke target] := by
  rw [edgesInto, Contract.functionIndices_eq hnames]
  simp only [List.map_append, List.map_map]
  rfl

theorem ends_eventEdges {event : EventRecord} (hemitters : event.emittedBy ⊆ contract.declaredNames)
    (hnodup : event.emittedBy.Nodup) (index : Nat) :
    (eventEdges contract index event).map Edge.ends =
      emissionEndsOf contract (event, index) ++ [spoke (.event index)] := by
  rw [eventEdges, ends_edgesInto hemitters, unique, FirstSeen.eraseDups_eq_self hnodup]
  rfl

theorem perm_callEnds (hresolve : contract.ReferencesResolve) :
    ((contract.functions.mapIdx (functionEdges contract)).flatten.map Edge.ends).Perm
      (callEnds contract ++
        (List.range contract.functions.length).map (spoke ∘ NodeId.function)) := by
  apply perm_rows
  rintro ⟨function, index⟩ hentry
  exact ends_functionEdges (hresolve.calls function (List.fst_mem_of_mem_zipIdx hentry)) index

theorem perm_emissionEnds (hresolve : contract.ReferencesResolve) :
    ((contract.events.mapIdx (eventEdges contract)).flatten.map Edge.ends).Perm
      (emissionEnds contract ++
        (List.range contract.events.length).map (spoke ∘ NodeId.event)) := by
  apply perm_rows
  rintro ⟨event, index⟩ hentry
  have hevent := List.fst_mem_of_mem_zipIdx hentry
  exact ends_eventEdges (hresolve.emittedBy event hevent)
    (hresolve.nodup_emittedBy event hevent) index

theorem affectedNames_subset (hresolve : contract.ReferencesResolve) :
    affectedNames contract ⊆ contract.declaredNames := by
  intro name hname
  obtain ⟨finding, hfinding, haffected⟩ := List.mem_flatMap.mp hname
  exact hresolve.affectedFunctions finding hfinding haffected

theorem ends_securityEdges (hresolve : contract.ReferencesResolve) :
    (if !contract.findings.isEmpty then securityEdges contract else []).map Edge.ends =
      findingEnds contract ++
        if !contract.findings.isEmpty then [spoke .security] else [] := by
  cases hempty : contract.findings.isEmpty with
  | true =>
      rw [List.isEmpty_iff] at hempty
      simp [findingEnds, affectedNames, hempty, unique]
  | false =>
      exact ends_edgesInto (affectedNames_subset hresolve) .security _

theorem spokes_eq (contract : Contract) :
    spokes contract = contract.roles.names.map (spoke ∘ NodeId.role) ++
      (if !contract.stateVariables.isEmpty then [spoke .state] else []) ++
      (List.range contract.functions.length).map (spoke ∘ NodeId.function) ++
      (List.range contract.events.length).map (spoke ∘ NodeId.event) ++
      (if !contract.findings.isEmpty then [spoke .security] else []) := by
  rw [spokes, ids_flow, List.tail_cons]
  simp only [List.map_append, List.map_map, apply_ite (List.map spoke), List.map_cons,
    List.map_nil]

/-- The edges are the spokes and the references, in another order. -/
theorem perm_ends_flow (hresolve : contract.ReferencesResolve) :
    (flow contract).ends.Perm
      (spokes contract ++ callEnds contract ++ emissionEnds contract ++ findingEnds contract) := by
  have hroles : (contract.roles.map roleEdge).map Edge.ends =
      contract.roles.names.map (spoke ∘ NodeId.role) := by
    simp only [RoleTable.names, List.map_map]
    rfl
  have hstate : (if !contract.stateVariables.isEmpty then [stateEdge] else []).map Edge.ends =
      if !contract.stateVariables.isEmpty then [spoke .state] else [] := by
    rw [apply_ite (List.map Edge.ends)]
    rfl
  apply List.perm_iff_count.mpr
  intro pair
  have hcalls := (perm_callEnds hresolve).count_eq pair
  have hemissions := (perm_emissionEnds hresolve).count_eq pair
  rw [ends, flow, spokes_eq]
  simp only [List.map_append, List.count_append, hroles, hstate, ends_securityEdges hresolve]
    at hcalls hemissions ⊢
  omega

/-! ## What the edges are -/

/-- The ends that the edges of a flow diagram should have. -/
inductive Link (contract : Contract) : NodeId → NodeId → Prop
  | spoke {id : NodeId} (hid : id ∈ (flow contract).ids) (hother : id ≠ .contract) :
      Link contract .contract id
  | call {index target : Nat} {function : FunctionRecord} {name : String}
      (hfunction : contract.functions[index]? = some function) (hname : name ∈ function.calls)
      (htarget : contract.FirstIndex name target) :
      Link contract (.function index) (.function target)
  | emission {index source : Nat} {event : EventRecord} {name : String}
      (hevent : contract.events[index]? = some event) (hname : name ∈ event.emittedBy)
      (hsource : contract.FirstIndex name source) :
      Link contract (.function source) (.event index)
  | finding {source : Nat} {finding : Finding} {name : String}
      (hfinding : finding ∈ contract.findings) (hname : name ∈ finding.affectedFunctions)
      (hsource : contract.FirstIndex name source) :
      Link contract (.function source) .security

theorem nodup_ids_flow (hroles : contract.roles.names.Nodup) : (flow contract).ids.Nodup := by
  have hrole : (contract.roles.names.map NodeId.role).Nodup :=
    List.Nodup.map (fun _ _ heq => NodeId.role.inj heq) hroles
  have hfunction : ((List.range contract.functions.length).map NodeId.function).Nodup :=
    List.Nodup.map (fun _ _ heq => NodeId.function.inj heq) List.nodup_range
  have hevent : ((List.range contract.events.length).map NodeId.event).Nodup :=
    List.Nodup.map (fun _ _ heq => NodeId.event.inj heq) List.nodup_range
  have hoption : ∀ (shown : Bool) (id : NodeId), (if shown then [id] else []).Sublist [id] := by
    intro shown id
    cases shown <;> simp
  -- Showing the summary of the state and the findings can only add nodes.
  have hall : (NodeId.contract ::
      (contract.roles.names.map NodeId.role ++ [NodeId.state] ++
        (List.range contract.functions.length).map NodeId.function ++
        (List.range contract.events.length).map NodeId.event ++ [NodeId.security])).Nodup := by
    simp only [List.nodup_cons, List.nodup_append, hrole, hfunction, hevent]
    grind
  rw [ids_flow]
  refine hall.sublist (List.Sublist.cons_cons _ ?_)
  exact ((((List.Sublist.refl _).append (hoption _ _)).append (.refl _)).append
    (.refl _)).append (hoption _ _)

theorem contract_notMem_tail (contract : Contract) :
    NodeId.contract ∉ (flow contract).ids.tail := by
  rw [ids_flow, List.tail_cons]
  grind

theorem mem_spokes_iff {source target : NodeId} :
    (source, target) ∈ spokes contract ↔
      source = .contract ∧ target ∈ (flow contract).ids ∧ target ≠ .contract := by
  constructor
  · intro hmem
    obtain ⟨id, hid, hends⟩ := List.mem_map.mp hmem
    obtain ⟨rfl, rfl⟩ := Prod.mk.inj hends
    refine ⟨rfl, List.mem_of_mem_tail hid, ?_⟩
    rintro rfl
    exact contract_notMem_tail contract hid
  · rintro ⟨rfl, hid, hother⟩
    have htail : target ∈ (flow contract).ids.tail := by
      rw [ids_flow] at hid ⊢
      exact (List.mem_cons.mp hid).resolve_left hother
    exact List.mem_map_of_mem htail

theorem mem_callEnds_iff {source target : NodeId} :
    (source, target) ∈ callEnds contract ↔
      ∃ (index : Nat) (function : FunctionRecord) (name : String),
        contract.functions[index]? = some function ∧ name ∈ function.calls ∧
          source = .function index ∧ target = .function (contract.declaredNames.idxOf name) := by
  simp only [callEnds, callEndsOf, List.mem_flatMap, List.mem_map, Prod.exists, List.mem_zipIdx_iff_getElem?,
    Prod.mk.injEq, eq_comm]
  grind

theorem mem_emissionEnds_iff {source target : NodeId} :
    (source, target) ∈ emissionEnds contract ↔
      ∃ (index : Nat) (event : EventRecord) (name : String),
        contract.events[index]? = some event ∧ name ∈ event.emittedBy ∧
          source = .function (contract.declaredNames.idxOf name) ∧ target = .event index := by
  simp only [emissionEnds, emissionEndsOf, List.mem_flatMap, List.mem_map, Prod.exists,
    List.mem_zipIdx_iff_getElem?, Prod.mk.injEq, eq_comm]
  grind

theorem mem_findingEnds_iff {source target : NodeId} :
    (source, target) ∈ findingEnds contract ↔
      ∃ finding ∈ contract.findings, ∃ name ∈ finding.affectedFunctions,
        source = .function (contract.declaredNames.idxOf name) ∧ target = .security := by
  simp only [findingEnds, affectedNames, unique, List.mem_map, List.mem_eraseDups,
    List.mem_flatMap, Prod.mk.injEq, eq_comm]
  grind

/-- Different names stand for functions in different places. -/
theorem nodup_map_idxOf {names : List String} (f : Nat → NodeId × NodeId)
    (hinjective : Function.Injective f) (hnames : names ⊆ contract.declaredNames)
    (hnodup : names.Nodup) :
    (names.map fun name => f (contract.declaredNames.idxOf name)).Nodup := by
  apply List.Nodup.map_on _ hnodup
  intro left hleft right hright heq
  exact contract.idxOf_injOn_declaredNames left (hnames hleft) right (hnames hright)
    (hinjective heq)

theorem nodup_callEnds (hresolve : contract.ReferencesResolve) : (callEnds contract).Nodup := by
  apply FirstSeen.nodup_flatMap_of_place (fun pair => pair.1.index?) (List.Sublist.refl _)
  · rintro ⟨function, index⟩ hentry
    have hfunction := List.fst_mem_of_mem_zipIdx hentry
    exact nodup_map_idxOf (fun target => (.function index, .function target))
      (fun _ _ heq => NodeId.function.inj (Prod.mk.inj heq).2)
      (hresolve.calls function hfunction) (hresolve.nodup_calls function hfunction)
  · rintro ⟨function, index⟩ - pair hpair
    obtain ⟨name, -, rfl⟩ := List.mem_map.mp hpair
    rfl

theorem nodup_emissionEnds (hresolve : contract.ReferencesResolve) :
    (emissionEnds contract).Nodup := by
  apply FirstSeen.nodup_flatMap_of_place (fun pair => pair.2.index?) (List.Sublist.refl _)
  · rintro ⟨event, index⟩ hentry
    have hevent := List.fst_mem_of_mem_zipIdx hentry
    exact nodup_map_idxOf (fun source => (.function source, .event index))
      (fun _ _ heq => NodeId.function.inj (Prod.mk.inj heq).1)
      (hresolve.emittedBy event hevent) (hresolve.nodup_emittedBy event hevent)
  · rintro ⟨event, index⟩ - pair hpair
    obtain ⟨name, -, rfl⟩ := List.mem_map.mp hpair
    rfl

theorem nodup_findingEnds (hresolve : contract.ReferencesResolve) :
    (findingEnds contract).Nodup := by
  have hsubset : unique (affectedNames contract) ⊆ contract.declaredNames := by
    intro name hname
    exact affectedNames_subset hresolve (List.mem_eraseDups.mp hname)
  exact nodup_map_idxOf (fun source => (.function source, .security))
    (fun _ _ heq => NodeId.function.inj (Prod.mk.inj heq).1) hsubset (FirstSeen.nodup_eraseDups _)

/-- The four groups of edges differ in where they start or end. -/
theorem nodup_ends_flow (hresolve : contract.ReferencesResolve)
    (hroles : contract.roles.names.Nodup) : (flow contract).ends.Nodup := by
  have hspokes : (spokes contract).Nodup :=
    List.Nodup.map (fun _ _ heq => (Prod.mk.inj heq).2) (nodup_ids_flow hroles).tail
  have hcalls : (spokes contract ++ callEnds contract).Nodup := by
    refine List.Nodup.append hspokes (nodup_callEnds hresolve) ?_
    rintro ⟨source, target⟩ hspoke hcall
    rw [mem_spokes_iff] at hspoke
    rw [mem_callEnds_iff] at hcall
    grind
  have hemissions : (spokes contract ++ callEnds contract ++ emissionEnds contract).Nodup := by
    refine List.Nodup.append hcalls (nodup_emissionEnds hresolve) ?_
    rintro ⟨source, target⟩ hearlier hemission
    rw [List.mem_append, mem_spokes_iff, mem_callEnds_iff] at hearlier
    rw [mem_emissionEnds_iff] at hemission
    grind
  rw [(perm_ends_flow hresolve).nodup_iff]
  refine List.Nodup.append hemissions (nodup_findingEnds hresolve) ?_
  rintro ⟨source, target⟩ hearlier hfinding
  rw [List.mem_append, List.mem_append, mem_spokes_iff, mem_callEnds_iff, mem_emissionEnds_iff]
    at hearlier
  rw [mem_findingEnds_iff] at hfinding
  grind

theorem mem_ends_flow_iff (hresolve : contract.ReferencesResolve) {source target : NodeId} :
    (source, target) ∈ (flow contract).ends ↔ Link contract source target := by
  rw [(perm_ends_flow hresolve).mem_iff]
  simp only [List.mem_append, mem_spokes_iff, mem_callEnds_iff, mem_emissionEnds_iff,
    mem_findingEnds_iff]
  constructor
  · rintro (((⟨rfl, hid, hother⟩ | ⟨index, function, name, hfunction, hname, rfl, rfl⟩) |
      ⟨index, event, name, hevent, hname, rfl, rfl⟩) | ⟨finding, hfinding, name, hname, rfl, rfl⟩)
    · exact .spoke hid hother
    · have hdeclared := hresolve.calls function (List.mem_of_getElem? hfunction) hname
      exact .call hfunction hname (Contract.firstIndex_iff.mpr ⟨hdeclared, rfl⟩)
    · have hdeclared := hresolve.emittedBy event (List.mem_of_getElem? hevent) hname
      exact .emission hevent hname (Contract.firstIndex_iff.mpr ⟨hdeclared, rfl⟩)
    · have hdeclared := hresolve.affectedFunctions finding hfinding hname
      exact .finding hfinding hname (Contract.firstIndex_iff.mpr ⟨hdeclared, rfl⟩)
  · intro hlink
    cases hlink with
    | spoke hid hother => exact .inl (.inl (.inl ⟨rfl, hid, hother⟩))
    | call hfunction hname htarget =>
        obtain ⟨-, rfl⟩ := Contract.firstIndex_iff.mp htarget
        exact .inl (.inl (.inr ⟨_, _, _, hfunction, hname, rfl, rfl⟩))
    | emission hevent hname hsource =>
        obtain ⟨-, rfl⟩ := Contract.firstIndex_iff.mp hsource
        exact .inl (.inr ⟨_, _, _, hevent, hname, rfl, rfl⟩)
    | finding hfinding hname hsource =>
        obtain ⟨-, rfl⟩ := Contract.firstIndex_iff.mp hsource
        exact .inr ⟨_, hfinding, _, hname, rfl, rfl⟩

/-! ## Counting the edges -/

theorem length_flatMap_zipIdx {α β : Type} {row : α × Nat → List β} (size : α → Nat)
    (hsize : ∀ entry, (row entry).length = size entry.1) (list : List α) :
    (list.zipIdx.flatMap row).length = (list.map size).sum := by
  have hsizes : (list.zipIdx.map fun entry => (row entry).length) = list.map size := by
    conv_rhs => rw [← List.zipIdx_map_fst 0 list, List.map_map]
    exact List.map_congr_left fun entry _ => hsize entry
  rw [List.length_flatMap, hsizes]

theorem length_edges_flow (hresolve : contract.ReferencesResolve) :
    (flow contract).edges.length = ((flow contract).nodes.length - 1) +
      (contract.functions.map (·.calls.length)).sum +
      (contract.events.map (·.emittedBy.length)).sum +
      (contract.findings.flatMap (·.affectedFunctions)).toFinset.card := by
  have hspokes : (spokes contract).length = (flow contract).nodes.length - 1 := by
    rw [spokes, List.length_map, List.length_tail, ids, List.length_map]
  have hcalls : (callEnds contract).length = (contract.functions.map (·.calls.length)).sum :=
    length_flatMap_zipIdx (fun function : FunctionRecord => function.calls.length)
      (fun _ => List.length_map _) contract.functions
  have hemissions : (emissionEnds contract).length =
      (contract.events.map (·.emittedBy.length)).sum :=
    length_flatMap_zipIdx (fun event : EventRecord => event.emittedBy.length)
      (fun _ => List.length_map _) contract.events
  have hfindings : (findingEnds contract).length =
      (contract.findings.flatMap (·.affectedFunctions)).toFinset.card := by
    rw [findingEnds, List.length_map, unique, FirstSeen.length_eraseDups, affectedNames]
  calc
    (flow contract).edges.length = (flow contract).ends.length := (List.length_map _).symm
    _ = (spokes contract ++ callEnds contract ++ emissionEnds contract ++
          findingEnds contract).length := (perm_ends_flow hresolve).length_eq
    _ = (spokes contract).length + (callEnds contract).length + (emissionEnds contract).length +
          (findingEnds contract).length := by
      rw [List.length_append, List.length_append, List.length_append]
    _ = _ := by rw [hspokes, hcalls, hemissions, hfindings]

/-- The edges of the flow diagram are those that the names in the contract ask for, each of
them once, and every name asks for one. -/
structure EdgesExact (contract : Contract) : Prop where
  nodup_ends : (flow contract).ends.Nodup
  mem_ends_iff : ∀ source target,
    (source, target) ∈ (flow contract).ends ↔ Link contract source target
  exists_callee : ∀ (index : Nat) (function : FunctionRecord),
    contract.functions[index]? = some function → ∀ name ∈ function.calls,
      ∃ target, contract.FirstIndex name target ∧ target ≠ index
  exists_emitter : ∀ event ∈ contract.events, ∀ name ∈ event.emittedBy,
    ∃ index, contract.FirstIndex name index
  exists_affected : ∀ finding ∈ contract.findings, ∀ name ∈ finding.affectedFunctions,
    ∃ index, contract.FirstIndex name index
  length_edges : (flow contract).edges.length = ((flow contract).nodes.length - 1) +
    (contract.functions.map (·.calls.length)).sum +
    (contract.events.map (·.emittedBy.length)).sum +
    (contract.findings.flatMap (·.affectedFunctions)).toFinset.card

/-- A function that is called has another name than the caller, so another place. -/
theorem index_ne_of_mem_calls (hresolve : contract.ReferencesResolve) {index target : Nat}
    {function : FunctionRecord} {name : String}
    (hfunction : contract.functions[index]? = some function) (hname : name ∈ function.calls)
    (htarget : contract.FirstIndex name target) : target ≠ index := by
  rintro rfl
  have hdeclared : contract.declaredNames[target]? = some function.name := by
    rw [Contract.declaredNames, List.getElem?_map, hfunction]
    rfl
  have hsame : some name = some function.name := htarget.1.symm.trans hdeclared
  injection hsame with hsame
  subst hsame
  exact hresolve.not_self_call function (List.mem_of_getElem? hfunction) hname

theorem edgesExact (hresolve : contract.ReferencesResolve)
    (hroles : contract.roles.names.Nodup) : EdgesExact contract := by
  have hfirst : ∀ {name : String}, name ∈ contract.declaredNames →
      contract.FirstIndex name (contract.declaredNames.idxOf name) := by
    intro name hname
    exact Contract.firstIndex_iff.mpr ⟨hname, rfl⟩
  exact {
    nodup_ends := nodup_ends_flow hresolve hroles
    mem_ends_iff := fun source target => mem_ends_flow_iff hresolve
    exists_callee := by
      intro index function hfunction name hname
      have htarget := hfirst (hresolve.calls function (List.mem_of_getElem? hfunction) hname)
      exact ⟨_, htarget, index_ne_of_mem_calls hresolve hfunction hname htarget⟩
    exists_emitter := fun event hevent name hname =>
      ⟨_, hfirst (hresolve.emittedBy event hevent hname)⟩
    exists_affected := fun finding hfinding name hname =>
      ⟨_, hfirst (hresolve.affectedFunctions finding hfinding hname)⟩
    length_edges := length_edges_flow hresolve }

end Diagram.Flow

/-- Role tables of analysed contracts list each role once, and their references resolve. -/
theorem Contract.Analysed.resolve_and_nodup_roles {contract : Contract}
    (hanalysed : contract.Analysed) :
    contract.ReferencesResolve ∧ contract.roles.names.Nodup := by
  obtain ⟨extraction, name, hreturned, rfl⟩ := hanalysed.exists_extraction
  exact ⟨hreturned.referencesResolve.rename name, extraction.nodup_names_roles⟩

/-- The flow diagram of an analysed contract shows every reference. -/
theorem Contract.Analysed.flow_edges_exact {contract : Contract}
    (hanalysed : contract.Analysed) : Diagram.Flow.EdgesExact contract := by
  obtain ⟨hresolve, hroles⟩ := hanalysed.resolve_and_nodup_roles
  exact Diagram.Flow.edgesExact hresolve hroles

/-- A source in which an overloaded function is called, emits an event and can be paid. -/
def overloadedHub : String :=
  "contract Hub \x7b event Ping(); function a() payable \x7b emit Ping(); b(); \x7d " ++
    "function b() \x7b \x7d function a(uint x) \x7b b(); \x7d \x7d"

theorem flow_edges_exact_overloadedHub :
    ∃ contract, Contract.ofSource overloadedHub = .ok contract ∧
      contract.functions.map (·.calls) = [["b"], ["a"], ["b"]] ∧
      contract.events.map (·.emittedBy) = [["a", "b"]] ∧
      contract.findings.map (·.affectedFunctions) = [["a"]] ∧
      Diagram.Flow.EdgesExact contract := by
  have hnames : (Contract.ofSource overloadedHub).map (fun contract =>
      (contract.functions.map (·.calls), contract.events.map (·.emittedBy),
        contract.findings.map (·.affectedFunctions))) =
      .ok ([["b"], ["a"], ["b"]], [["a", "b"]], [["a"]]) := by decide +kernel
  obtain ⟨contract, hcontract, hvalues⟩ := exists_of_map_eq_ok hnames
  obtain ⟨hcalls, hrest⟩ := Prod.mk.inj hvalues
  obtain ⟨hemitters, haffected⟩ := Prod.mk.inj hrest
  exact ⟨contract, hcontract, hcalls, hemitters, haffected,
    Contract.Analysed.flow_edges_exact (.ofSource hcontract)⟩

end ContractAtlas
