import Placement.Proofs.Numbering.EntryIds

namespace Placement.Numbering

variable {P : Client} {g : Graph P}

def source? (n : Numbering) (number : UInt32) : Option NodeId :=
  n.nodes[number.toNat]?.map NumberedNode.source

/-- A numbered entry has the slot, the version and the node of an entry of the graph, and the two
have the same entry number. -/
structure StandsFor (n : Numbering) (e : Entry) (numbered : NumberedEntry) : Prop where
  source : n.source? numbered.node = some e.node
  index : numbered.index = e.index
  version : numbered.version = e.version
  entry : ∃ i, (n.entryId numbered.node numbered.index : Checked GraphError Nat) = .ok i ∧
    (n.entryIdFor e : Checked GraphError (Option Nat)) = .ok (some i)

/-- The numbering holds the nodes of the order with all they refer to, slot by slot. -/
structure Faithful (g : Graph P) (order : List NodeId) (n : Numbering) : Prop where
  sources : n.nodes.toList.map NumberedNode.source = order
  inverse : ∀ id number, n.nodeNumber? id = some number ↔ n.source? number = some id
  known : ∀ id, (∃ number, n.nodeNumber? id = some number) ↔ g.Reachable id
  nodes : ∀ (j : Nat) (numbered : NumberedNode), n.nodes[j]? = some numbered → ∃ node,
    g.node? numbered.source = some node ∧
    List.Forall₂ n.StandsFor node.inputs.toList numbered.inputs ∧
    List.Forall₂ (fun id number => n.source? number = some id) node.controlDeps.toList
      numbered.controlDeps ∧
    (∀ e ∈ numbered.inputs, e.node.toNat < j) ∧ ∀ number ∈ numbered.controlDeps, number.toNat < j
  outputs : List.Forall₂ n.StandsFor g.outputs.toList n.outputs
  sorted : n.variableNodes.toList.Pairwise (· < ·)
  inputNodes : ∀ number, number ∈ n.variableNodes ↔ ∃ numbered node,
    n.nodes[number.toNat]? = some numbered ∧ g.node? numbered.source = some node ∧ node.op = none

theorem numberNodes_eq_some_iff {order : List NodeId} (nodup : order.Nodup)
    (few : order.length < UInt32.size) (id : NodeId) (number : UInt32) :
    (numberNodes order)[id]? = some number ↔ order[number.toNat]? = some id := by
  constructor
  · intro known
    by_cases member : id ∈ order
    · obtain ⟨i, listed, same⟩ := numberNodes_of_mem nodup member
      obtain rfl : number = i.toUInt32 := Option.some.inj (known.symm.trans same)
      have inside := (List.getElem?_eq_some_iff.mp listed).1
      rw [toNat_toUInt32 (by omega)]
      exact listed
    · rw [numberNodes_of_not_mem member] at known
      cases known
  · intro listed
    have word : number.toNat.toUInt32 = number := UInt32.ofNat_toNat
    rw [numberNodes_of_getElem? nodup listed, word]

def variableNumbers (g : Graph P) (order : List NodeId) (bound : Nat) : List UInt32 :=
  ((List.range bound).filter (fun i => (order[i]?.bind g.node?).any Node.isVariable)).map
    Nat.toUInt32

theorem variableNumbers_succ {order : List NodeId} {i : Nat} {id : NodeId} {node : Node P}
    (listed : order[i]? = some id) (found : g.node? id = some node) :
    variableNumbers g order (i + 1) =
      variableNumbers g order i ++ if node.isVariable then [i.toUInt32] else [] := by
  cases node.isVariable.eq_false_or_eq_true with
  | inl isVariable =>
    simp [variableNumbers, List.range_succ, List.filter_append, listed, found, isVariable]
  | inr applies =>
    simp [variableNumbers, List.range_succ, List.filter_append, listed, found, applies]

theorem variableNodes_of_add {numbers : Std.HashMap NodeId UInt32} {order : List NodeId}
    {p q : Progress} {id : NodeId} (added : p.add g numbers id = .ok q)
    (listed : order[p.nodes.size]? = some id)
    (before : p.variableNodes.toList = variableNumbers g order p.nodes.size) :
    q.variableNodes.toList = variableNumbers g order q.nodes.size := by
  obtain ⟨node, inputs, controlDeps, next, found, _, _, _, rfl⟩ :=
    (Progress.add_eq_ok_iff numbers p q id).mp added
  simp only [Array.size_push, variableNumbers_succ listed found, ← before]
  split
  next => simp
  next => simp

theorem variableNodes_of_foldlM {numbers : Std.HashMap NodeId UInt32} {order : List NodeId}
    (ids front : List NodeId) {p final : Progress} (cut : order = front ++ ids)
    (size : p.nodes.size = front.length)
    (before : p.variableNodes.toList = variableNumbers g order p.nodes.size)
    (folded : ids.foldlM (Progress.add g numbers) p = .ok final) :
    final.variableNodes.toList = variableNumbers g order order.length := by
  induction ids generalizing front p with
  | nil =>
    cases folded
    simpa [cut, size] using before
  | cons id ids ih =>
    rw [List.foldlM_cons] at folded
    cases added : p.add g numbers id with
    | error fault =>
      rw [added] at folded
      cases folded
    | ok q =>
      rw [added] at folded
      have grown : q.nodes.size = (front ++ [id]).length := by
        obtain ⟨_, _, _, _, _, _, _, _, rfl⟩ := (Progress.add_eq_ok_iff numbers p q id).mp added
        simp [size]
      have listed : order[p.nodes.size]? = some id := by simp [cut, size]
      have after := variableNodes_of_add added listed before
      exact ih (front ++ [id]) (by simp [cut]) grown after folded

theorem variableNumbers_sorted (g : Graph P) (order : List NodeId) {bound : Nat}
    (small : bound ≤ UInt32.size) : (variableNumbers g order bound).Pairwise (· < ·) := by
  rw [variableNumbers, List.pairwise_map]
  refine (List.pairwise_lt_range.filter _).imp_of_mem (fun {i j} first second less => ?_)
  have below := List.mem_range.mp (List.mem_filter.mp second).1
  rw [UInt32.lt_iff_toNat_lt, toNat_toUInt32 (by omega), toNat_toUInt32 (by omega)]
  exact less

theorem mem_variableNumbers_iff {order : List NodeId} (few : order.length < UInt32.size)
    (number : UInt32) : number ∈ variableNumbers g order order.length ↔
      ∃ id node, order[number.toNat]? = some id ∧ g.node? id = some node ∧ node.op = none := by
  simp only [variableNumbers, List.mem_map, List.mem_filter, List.mem_range, Option.any_eq_true,
    Option.bind_eq_some_iff, Node.isVariable, NodeAttrs.isVariable, Option.isNone_iff_eq_none]
  constructor
  · rintro ⟨i, ⟨inside, node, ⟨id, listed, found⟩, isVariable⟩, rfl⟩
    exact ⟨id, node, by rw [toNat_toUInt32 (by omega)]; exact listed, found, isVariable⟩
  · rintro ⟨id, node, listed, found, isVariable⟩
    have inside := (List.getElem?_eq_some_iff.mp listed).1
    exact ⟨number.toNat, ⟨inside, node, ⟨id, listed, found⟩, isVariable⟩, UInt32.ofNat_toNat⟩

section

variable {order : List NodeId} (walked : g.postOrder = .ok order) {n : Numbering}
  (numbered : ofGraph g = .ok n)

include walked numbered

theorem variableNodes_eq : n.variableNodes.toList = variableNumbers g order order.length := by
  obtain ⟨p, outputs, folded, _, rfl⟩ := (ofGraph_eq_ok_iff walked n).mp numbered
  exact variableNodes_of_foldlM order [] rfl rfl rfl folded

theorem source?_eq (number : UInt32) : n.source? number = order[number.toNat]? :=
  source_getElem? walked numbered number.toNat

/-- A number stands for what the node with number `j` depends on, so it is below `j`. -/
theorem number_lt_of_dependency {j : Nat} {id dep : NodeId} {node : Node P} {number : UInt32}
    (listed : order[j]? = some id) (found : g.node? id = some node)
    (dependency : dep ∈ node.dependencies) (source : n.source? number = some dep) :
    number.toNat < j := by
  rw [source?_eq walked numbered] at source
  obtain ⟨i, before, here⟩ :=
    (Graph.precedes_of_postOrder walked ⟨node, found, dependency⟩).exists_getElem? listed
  have inside := (List.getElem?_eq_some_iff.mp source).1
  have same : number.toNat = i :=
    (List.getElem?_inj inside (Graph.nodup_of_postOrder walked)).mp (source.trans here.symm)
  omega

variable (few : order.length < UInt32.size)

include few

theorem nodeNumber?_eq_some_iff (id : NodeId) (number : UInt32) :
    n.nodeNumber? id = some number ↔ n.source? number = some id := by
  rw [nodeNumber?, numbers_of_ofGraph walked numbered, source?_eq walked numbered]
  exact numberNodes_eq_some_iff (Graph.nodup_of_postOrder walked) few id number

theorem standsFor_of_numberEntry {e : Entry} {edge : NumberedEntry} (member : e.node ∈ order)
    (read : numberEntry g (numberNodes order) e = .ok edge) : n.StandsFor e edge := by
  obtain ⟨j, listed, rfl, entry, _⟩ := entryId_of_numberEntry walked numbered few member read
  have inside := (List.getElem?_eq_some_iff.mp listed).1
  have source : n.source? j.toUInt32 = some e.node := by
    rw [source?_eq walked numbered, toNat_toUInt32 (by omega)]
    exact listed
  have number := (nodeNumber?_eq_some_iff walked numbered few e.node j.toUInt32).mpr source
  refine ⟨source, rfl, rfl, _, entry, ?_⟩
  simp only [entryIdFor, number, entry, bind, Except.bind, pure, Except.pure]

theorem standsFor_of_mapM {entries : List Entry} {edges : List NumberedEntry}
    (inside : ∀ e ∈ entries, e.node ∈ order)
    (reads : entries.mapM (numberEntry g (numberNodes order)) = .ok edges) :
    List.Forall₂ n.StandsFor entries edges := by
  have each := (List.forall₂_and_left entries edges).mpr ⟨inside, (mapM_eq_ok_iff _ _ _).mp reads⟩
  exact each.imp (fun e edge both => standsFor_of_numberEntry walked numbered few both.1 both.2)

theorem sources_of_mapM {ids : List NodeId} {numbers : List UInt32}
    (inside : ∀ id ∈ ids, id ∈ order)
    (reads : ids.mapM (numberControlDep (numberNodes order)) = .ok numbers) :
    List.Forall₂ (fun id number => n.source? number = some id) ids numbers := by
  have each := (List.forall₂_and_left ids numbers).mpr ⟨inside, (mapM_eq_ok_iff _ _ _).mp reads⟩
  refine each.imp (fun id number both => ?_)
  obtain ⟨j, listed, known⟩ := numberNodes_of_mem (Graph.nodup_of_postOrder walked) both.1
  have word : number = j.toUInt32 := by simpa [numberControlDep, known, eq_comm] using both.2
  have inside := (List.getElem?_eq_some_iff.mp listed).1
  rw [source?_eq walked numbered, word, toNat_toUInt32 (by omega)]
  exact listed

theorem known_iff (id : NodeId) :
    (∃ number, n.nodeNumber? id = some number) ↔ g.Reachable id := by
  simp only [nodeNumber?_eq_some_iff walked numbered few, source?_eq walked numbered,
    ← Graph.mem_postOrder_iff walked]
  constructor
  · rintro ⟨number, listed⟩
    exact List.mem_of_getElem? listed
  · intro member
    obtain ⟨j, listed⟩ := List.getElem?_of_mem member
    have inside := (List.getElem?_eq_some_iff.mp listed).1
    exact ⟨j.toUInt32, by rw [toNat_toUInt32 (by omega)]; exact listed⟩

theorem faithful_node {j : Nat} {own : NumberedNode} (here : n.nodes[j]? = some own) :
    ∃ node, g.node? own.source = some node ∧
      List.Forall₂ n.StandsFor node.inputs.toList own.inputs ∧
      List.Forall₂ (fun id number => n.source? number = some id) node.controlDeps.toList
        own.controlDeps ∧
      (∀ e ∈ own.inputs, e.node.toNat < j) ∧ ∀ number ∈ own.controlDeps, number.toNat < j := by
  have listed : order[j]? = some own.source := by
    rw [← source_getElem? walked numbered, here]
    rfl
  obtain ⟨source, node, found, reads, deps⟩ :=
    node_of_ofGraph walked numbered (Array.mem_of_getElem? here)
  have input : ∀ e ∈ node.inputs.toList, e.node ∈ node.dependencies :=
    fun e member => Node.mem_dependencies_of_input (Array.mem_toList_iff.mp member)
  have control : ∀ id ∈ node.controlDeps.toList, id ∈ node.dependencies :=
    fun id member => Node.mem_dependencies_of_controlDep (Array.mem_toList_iff.mp member)
  have inOrder := Graph.dependencies_subset_postOrder walked source found
  have inputs := standsFor_of_mapM walked numbered few (fun e h => inOrder (input e h)) reads
  have controls := sources_of_mapM walked numbered few (fun id h => inOrder (control id h)) deps
  refine ⟨node, found, inputs, controls, fun edge member => ?_, fun number member => ?_⟩
  · obtain ⟨e, listedInput, stands⟩ := exists_of_mem_right inputs member
    exact number_lt_of_dependency walked numbered listed found (input e listedInput) stands.source
  · obtain ⟨id, listedControl, same⟩ := exists_of_mem_right controls member
    exact number_lt_of_dependency walked numbered listed found (control id listedControl) same

theorem mem_variableNodes_iff (number : UInt32) :
    number ∈ n.variableNodes ↔ ∃ own node, n.nodes[number.toNat]? = some own ∧
      g.node? own.source = some node ∧ node.op = none := by
  rw [← Array.mem_toList_iff, variableNodes_eq walked numbered, mem_variableNumbers_iff few]
  simp only [← source_getElem? walked numbered, Option.map_eq_some_iff]
  constructor
  · rintro ⟨id, node, ⟨own, here, rfl⟩, found, isVariable⟩
    exact ⟨own, node, here, found, isVariable⟩
  · rintro ⟨own, node, here, found, isVariable⟩
    exact ⟨own.source, node, ⟨own, here, rfl⟩, found, isVariable⟩

end

/-- What is numbered is what the outputs lead to, in the order of the walk and with every
reference, and numbers translate back into ids. -/
theorem ofGraph_faithful {n : Numbering}
    (few : ∀ order, g.postOrder = .ok order → order.length < UInt32.size)
    (numbered : ofGraph g = .ok n) : ∃ order, g.postOrder = .ok order ∧ Faithful g order n := by
  obtain ⟨order, walked⟩ := walked_of_ofGraph numbered
  have few := few order walked
  refine ⟨order, walked, ?_⟩
  constructor
  · exact sources_eq walked numbered
  · exact nodeNumber?_eq_some_iff walked numbered few
  · exact known_iff walked numbered few
  · exact fun j own here => faithful_node walked numbered few here
  · refine standsFor_of_mapM walked numbered few (fun e output => ?_)
      (outputs_of_ofGraph walked numbered)
    exact Graph.output_mem_postOrder walked (Array.mem_toList_iff.mp output)
  · rw [variableNodes_eq walked numbered]
    exact variableNumbers_sorted g order (Nat.le_of_lt few)
  · exact mem_variableNodes_iff walked numbered few

def splitGraph : Graph .plain where
  arena := 0
  nodes := #[
    { attrs := { name := "y", op := some { name := "add" } }
      inputs := #[{ node := ⟨0, 2⟩ }, { node := ⟨0, 2⟩, index := 2, version := 1 }]
      controlDeps := #[⟨0, 3⟩] },
    { attrs := { name := "dead" }, inputs := #[{ node := ⟨4, 0⟩ }] },
    { attrs := { name := "s", op := some { name := "split", numOutputs := 3 } }
      inputs := #[{ node := ⟨0, 4⟩ }] },
    { attrs := { name := "init" } },
    { attrs := { name := "x" } }]
  outputs := #[{ node := ⟨0, 0⟩ }, { node := ⟨0, 2⟩, index := 1 }]

theorem ofGraph_faithful_split : ∃ n order, ofGraph splitGraph = .ok n ∧
    order = [⟨0, 4⟩, ⟨0, 2⟩, ⟨0, 3⟩, ⟨0, 0⟩] ∧ splitGraph.postOrder = .ok order ∧
    Faithful splitGraph order n := by
  have walked : splitGraph.postOrder = .ok [⟨0, 4⟩, ⟨0, 2⟩, ⟨0, 3⟩, ⟨0, 0⟩] := by cbv
  obtain ⟨n, numbered⟩ := ofGraph_ok_of_numberable walked (by decide)
  have few : ∀ order, splitGraph.postOrder = .ok order → order.length < UInt32.size := by
    intro order same
    cases walked.symm.trans same
    decide
  obtain ⟨order, same, faithful⟩ := ofGraph_faithful few numbered
  cases walked.symm.trans same
  exact ⟨n, _, numbered, rfl, walked, faithful⟩

end Placement.Numbering
