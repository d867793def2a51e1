import Placement.Proofs.Copy.Order
import Placement.Proofs.DeviceVector

namespace Placement

def dropPositions {α : Type} (positions : List Nat) (l : List α) : List α :=
  (l.zipIdx.filter (fun member => member.2 ∉ positions)).map Prod.fst

section

variable {α : Type} {positions : List Nat}

theorem filter_zipIdx_of_all {l : List α} {first : Nat}
    (all : ∀ i, i < l.length → first + i ∈ positions) :
    (l.zipIdx first).filter (fun member => member.2 ∉ positions) = [] := by
  rw [List.filter_eq_nil_iff]
  rintro ⟨a, i⟩ member
  obtain ⟨lower, upper, _⟩ := List.mem_zipIdx member
  have dropped := all (i - first) (by omega)
  rw [Nat.add_sub_cancel' lower] at dropped
  simp [dropped]

theorem filter_zipIdx_of_none {l : List α} {first : Nat}
    (none : ∀ i, i < l.length → first + i ∉ positions) :
    (l.zipIdx first).filter (fun member => member.2 ∉ positions) = l.zipIdx first := by
  rw [List.filter_eq_self]
  rintro ⟨a, i⟩ member
  obtain ⟨lower, upper, _⟩ := List.mem_zipIdx member
  have kept := none (i - first) (by omega)
  rw [Nat.add_sub_cancel' lower] at kept
  simp [kept]

end

variable {P : Client} {h : Graph P}

namespace Graph

variable {copies order : List NodeId} {positions : List Nat}

theorem drop_placement_of_cut
    (exact : ∀ j id, order[j]? = some id → ∀ slot, slot < h.width id →
      (h.entryCount (order.take j) + slot ∈ positions ↔ id ∈ copies))
    (front ids : List NodeId) (cut : order = front ++ ids) :
    (((h.placement ids).zipIdx (h.entryCount front)).filter
      (fun member => member.2 ∉ positions)).map Prod.fst =
      h.placement (ids.filter (· ∉ copies)) := by
  induction ids generalizing front with
  | nil => rfl
  | cons id ids ih =>
    have rest := ih (front ++ [id]) (by simp [cut])
    rw [entryCount_append, entryCount_singleton, ← length_entryDevices] at rest
    rw [placement_cons, List.zipIdx_append, List.filter_append, List.map_append, rest]
    have here : order[front.length]? = some id := by simp [cut]
    have entries : ∀ i, i < (h.entryDevices id).length →
        (h.entryCount front + i ∈ positions ↔ id ∈ copies) := by
      intro i inside
      rw [length_entryDevices] at inside
      have own := exact front.length id here i inside
      rwa [cut, List.take_left] at own
    by_cases copied : id ∈ copies
    · rw [filter_zipIdx_of_all (fun i inside => (entries i inside).mpr copied),
        List.filter_cons_of_neg (by simp [copied])]
      rfl
    · rw [filter_zipIdx_of_none (fun i inside => mt (entries i inside).mp copied),
        List.filter_cons_of_pos (by simp [copied]), placement_cons, List.zipIdx_map_fst]

def entryStart (h : Graph P) (order : List NodeId) (id : NodeId) : Nat :=
  h.entryCount (order.take (order.idxOf id))

theorem mem_starts_iff (nodup : order.Nodup) (inOrder : copies ⊆ order)
    (single : ∀ id ∈ copies, h.width id = 1) {j : Nat} {id : NodeId}
    (here : order[j]? = some id) {slot : Nat} (inside : slot < h.width id) :
    h.entryCount (order.take j) + slot ∈ copies.map (h.entryStart order) ↔ id ∈ copies := by
  rw [List.mem_map]
  constructor
  · rintro ⟨other, copied, same⟩
    have narrow := single other copied
    have there : order[order.idxOf other]? = some other := List.getElem?_idxOf (inOrder copied)
    unfold entryStart at same
    generalize order.idxOf other = i at same there
    rcases Nat.lt_trichotomy i j with before | rfl | behind
    · have apart := h.entryCount_take_le there before
      omega
    · exact Option.some.inj (here.symm.trans there) ▸ copied
    · have apart := h.entryCount_take_le here behind
      omega
  · intro copied
    have narrow := single id copied
    have position : order.idxOf id = j := by
      obtain ⟨bound, rfl⟩ := List.getElem?_eq_some_iff.mp here
      exact nodup.idxOf_getElem j bound
    refine ⟨id, copied, ?_⟩
    rw [entryStart, position]
    omega

theorem drop_placement (nodup : order.Nodup) (inOrder : copies ⊆ order)
    (single : ∀ id ∈ copies, h.width id = 1) :
    dropPositions (copies.map (h.entryStart order)) (h.placement order) =
      h.placement (order.filter (· ∉ copies)) :=
  drop_placement_of_cut
    (fun _ _ here _ inside => mem_starts_iff nodup inOrder single here inside) [] order rfl

end Graph

variable [CustomParsers P] {g : Graph P} {settings : CopySettings} {op : Operator P}
  {order order' : List NodeId}

namespace Rewritten

variable {crossings : List (Crossing P)} (rewritten : Rewritten g settings op crossings h)
  {id : NodeId} {node : Node P} (found : g.node? id = some node)

include rewritten found

theorem width_eq : h.width id = g.width id := by
  rw [Graph.width_of_node? found, Graph.width_of_node? (rewritten.kept id node found)]
  rfl

theorem entryDevices_eq : h.entryDevices id = g.entryDevices id := by
  rw [Graph.entryDevices_of_node? found,
    Graph.entryDevices_of_node? (rewritten.kept id node found)]
  rfl

end Rewritten

theorem Rewritten.validEntry_iff {crossings : List (Crossing P)} {e : Entry} {node : Node P}
    (rewritten : Rewritten g settings op crossings h) (found : g.node? e.node = some node) :
    h.ValidEntry e ↔ g.ValidEntry e := by
  have kept := rewritten.kept e.node node found
  constructor
  · rintro ⟨changed, found', small⟩
    obtain rfl := Option.some.inj (found'.symm.trans kept)
    exact ⟨node, found, small⟩
  · rintro ⟨same, found', small⟩
    obtain rfl : node = same := Option.some.inj (found.symm.trans found')
    exact ⟨_, kept, small⟩

namespace Reordered

variable (reordered : Reordered g settings op order h order')

include reordered

theorem placement_eq : h.placement order = g.placement order := by
  apply List.flatMap_congr
  intro id member
  obtain ⟨node, found⟩ := Graph.holds_of_postOrder reordered.before id member
  exact reordered.rewritten.entryDevices_eq found

theorem entryCount_eq : h.entryCount order' =
    g.entryCount order + h.entryCount (g.copyIds (g.crossings op order)) := by
  have same : h.entryCount order = g.entryCount order := by
    apply Graph.entryCount_congr
    intro id member
    obtain ⟨node, found⟩ := Graph.holds_of_postOrder reordered.before id member
    exact reordered.rewritten.width_eq found
  rw [Graph.entryCount_perm reordered.perm, h.entryCount_append, same]

/-- What the graph before reads is still read after it, by the same node or by a copy. -/
theorem reads_after {e : Entry} (read : g.Reads e) : h.Reads e := by
  rcases read with output | ⟨id, node, reached, found, input⟩
  · exact .inl (reordered.rewritten.outputs ▸ output)
  · have member := (Graph.mem_postOrder_iff reordered.before id).mpr reached
    obtain ⟨slot, listed⟩ := Array.getElem?_of_mem input
    rcases g.reroute_cases (g.crossings op order) id slot e with
      ⟨_, same⟩ | ⟨k, c, crossing, rfl, rfl, _⟩
    · have changed := reordered.rewritten.kept id node found
      refine Graph.reads_of_input reordered.after (reordered.mem_after member) changed ?_
      apply Array.mem_of_getElem? (i := slot)
      rw [Graph.inputs_rerouteNode, listed, Option.map_some, same]
    · have own := (Graph.own_of_listed crossing).2
      obtain rfl : node = c.consumerNode := Option.some.inj (found.symm.trans own.consumer)
      obtain rfl : e = c.entry := Option.some.inj (listed.symm.trans own.reads)
      have copy := reordered.rewritten.made k c crossing
      exact Graph.reads_of_input reordered.after (reordered.copy_mem crossing) copy
        (by simp [Crossing.copyNode])

theorem numberable (after : h.Numberable order') : g.Numberable order := by
  obtain ⟨valid, small⟩ := (Graph.numberable_iff reordered.after).mp after
  refine (Graph.numberable_iff reordered.before).mpr ⟨fun e read => ?_, ?_⟩
  · obtain ⟨producer, found⟩ := Graph.Reads.producer reordered.before read
    exact (reordered.rewritten.validEntry_iff found).mp (valid e (reordered.reads_after read))
  · rw [reordered.entryCount_eq] at small
    omega

theorem copyIds_subset : g.copyIds (g.crossings op order) ⊆ order' := by
  intro id member
  obtain ⟨k, c, listed, rfl⟩ := (Graph.mem_copyIds_iff id).mp member
  exact reordered.copy_mem listed

theorem devices_before {devices' : Array Device}
    (single : ∀ id ∈ g.copyIds (g.crossings op order), h.width id = 1)
    (few : order'.length < UInt32.size) (placed : DeviceVector.ofGraph h = .ok devices') :
    ∃ devices, DeviceVector.ofGraph g = .ok devices ∧ devices.toList =
      dropPositions ((g.copyIds (g.crossings op order)).map (h.entryStart order'))
        devices'.toList := by
  obtain ⟨n', numbered'⟩ := DeviceVector.numbered_of_ofGraph placed
  have numberable := Numbering.numberable_of_ofGraph reordered.after numbered'
  obtain ⟨n, numbered⟩ :=
    Numbering.ofGraph_ok_of_numberable reordered.before (reordered.numberable numberable)
  have fewer : order.length ≤ order'.length := by
    rw [reordered.perm.length_eq, List.length_append]
    omega
  have before := DeviceVector.ofGraph_eq_placement reordered.before numbered (by omega)
  have after := DeviceVector.ofGraph_eq_placement reordered.after numbered' few
  obtain rfl : devices' = (h.placement order').toArray := Except.ok.inj (placed.symm.trans after)
  have nodup := Graph.nodup_of_postOrder reordered.after
  refine ⟨_, before, ?_⟩
  rw [Graph.drop_placement nodup reordered.copyIds_subset single, reordered.kept,
    reordered.placement_eq]

end Reordered

/-- The orders of the walk before and after splicing. -/
structure Traversal (g : Graph P) (op : Operator P) (s : Splicing P)
    (order order' : List NodeId) : Prop where
  before : g.postOrder = .ok order
  after : s.graph.postOrder = .ok order'
  kept : order'.filter (· ∉ s.copies.toList) = order
  once : ∀ copy ∈ s.copies, order'.count copy = 1
  paired : s.copies.size = (g.crossings op order).length
  between : ∀ c copy, (c, copy) ∈ (g.crossings op order).zip s.copies.toList →
    (∃ consumer, s.graph.node? c.consumer = some consumer ∧
      consumer.inputs[c.slot]? = some { node := copy }) ∧
    (∃ node, s.graph.node? copy = some node ∧ node.inputs = #[c.entry]) ∧
    order'.idxOf c.entry.node < order'.idxOf copy ∧ order'.idxOf copy < order'.idxOf c.consumer
  bySlot : ∀ c copy d other, (c, copy) ∈ (g.crossings op order).zip s.copies.toList →
    (d, other) ∈ (g.crossings op order).zip s.copies.toList → c.consumer = d.consumer →
    c.slot < d.slot → order'.idxOf copy < order'.idxOf other

theorem Spliced.traversal {s : Splicing P}
    (spliced : Spliced g settings op (g.crossings op order) s)
    (reordered : Reordered g settings op order s.graph order') : Traversal g op s order order' := by
  have listed : ∀ c copy, (c, copy) ∈ (g.crossings op order).zip s.copies.toList →
      ∃ k, (g.crossings op order)[k]? = some c ∧ copy = g.copyId k := by
    intro c copy member
    obtain ⟨k, both⟩ := List.getElem?_of_mem member
    obtain ⟨crossing, id⟩ := List.getElem?_zip_eq_some.mp both
    refine ⟨k, crossing, ?_⟩
    have inside := (List.getElem?_eq_some_iff.mp crossing).1
    simpa [spliced.copies, Graph.copyIds, inside, eq_comm] using id
  constructor
  · exact reordered.before
  · exact reordered.after
  · rw [spliced.copies]
    exact reordered.kept
  · intro copy member
    rw [← Array.mem_toList_iff, spliced.copies] at member
    obtain ⟨k, c, crossing, rfl⟩ := (Graph.mem_copyIds_iff copy).mp member
    exact reordered.count_copy crossing
  · rw [← Array.length_toList, spliced.copies]
    simp [Graph.copyIds]
  · intro c copy member
    obtain ⟨k, crossing, rfl⟩ := listed c copy member
    have own := (Graph.own_of_listed crossing).2
    exact ⟨⟨_, reordered.rewritten.kept _ _ own.consumer,
        Graph.inputs_rerouteNode_of_listed reordered.before crossing⟩,
      ⟨_, reordered.rewritten.made k c crossing, rfl⟩, reordered.between crossing⟩
  · intro c copy d other first second same less
    obtain ⟨j, here, rfl⟩ := listed c copy first
    obtain ⟨k, there, rfl⟩ := listed d other second
    exact reordered.idxOf_copy_lt here there same less

/-- The walk over a spliced graph is the walk over the graph before with each copy once, between
its producer and its consumer. Where a copy has one entry, the device vectors differ by the
entries of the copies. -/
theorem splice_traversal {s : Splicing P} (spliced : g.splice settings op = .ok s) :
    ∃ order order', Traversal g op s order order' ∧
      ∀ devices', (∀ copy ∈ s.copies, ∀ node, s.graph.node? copy = some node →
          node.op = some op) → op.numOutputs = 1 → order'.length < UInt32.size →
        DeviceVector.ofGraph s.graph = .ok devices' →
        ∃ devices n positions, DeviceVector.ofGraph g = .ok devices ∧
          Numbering.ofGraph s.graph = .ok n ∧
          List.Forall₂ (fun copy position => (n.entryIdFor { node := copy } :
            Checked GraphError (Option Nat)) = .ok (some position)) s.copies.toList positions ∧
          devices.toList = dropPositions positions devices'.toList := by
  obtain ⟨order, order', spliced, reordered⟩ := Graph.reordered_of_splice spliced
  refine ⟨order, order', spliced.traversal reordered, ?_⟩
  intro devices' applied one few placed
  have single : ∀ id ∈ g.copyIds (g.crossings op order), s.graph.width id = 1 := by
    intro id member
    have copied : id ∈ s.copies := Array.mem_toList_iff.mp (spliced.copies ▸ member)
    obtain ⟨node, found⟩ :=
      Graph.holds_of_postOrder reordered.after id (reordered.copyIds_subset member)
    have own : node.attrs.op = some op := applied id copied node found
    rw [Graph.width_of_node? found, Node.numOutputs, NodeAttrs.numOutputs, own]
    exact congrArg UInt32.toNat one
  obtain ⟨devices, before, same⟩ := reordered.devices_before single few placed
  obtain ⟨n, numbered⟩ := DeviceVector.numbered_of_ofGraph placed
  refine ⟨devices, n, _, before, numbered, ?_, same⟩
  rw [spliced.copies, List.forall₂_map_right_iff, List.forall₂_same]
  intro id member
  have listed := List.getElem?_idxOf (reordered.copyIds_subset member)
  exact DeviceVector.entryIdFor_eq reordered.after numbered few listed

theorem ofGraph_squareCopied :
    DeviceVector.ofGraph squareCopied = .ok #[⟨0⟩, ⟨1⟩, ⟨1⟩, ⟨1⟩] := by
  obtain ⟨n, numbered⟩ :=
    Numbering.ofGraph_ok_of_numberable postOrder_squareCopied (by decide)
  rw [DeviceVector.ofGraph_eq_placement postOrder_squareCopied numbered (by decide)]
  rfl

theorem splice_traversal_square : ∃ s, squareGraph.splice {} .deviceCopy = .ok s ∧
    Traversal squareGraph .deviceCopy s [⟨0, 0⟩, ⟨0, 1⟩] [⟨0, 0⟩, ⟨0, 2⟩, ⟨0, 3⟩, ⟨0, 1⟩] ∧
    ∃ devices n positions, DeviceVector.ofGraph squareGraph = .ok devices ∧
      Numbering.ofGraph s.graph = .ok n ∧
      List.Forall₂ (fun copy position => (n.entryIdFor { node := copy } :
        Checked GraphError (Option Nat)) = .ok (some position)) s.copies.toList positions ∧
      devices.toList = dropPositions positions [⟨0⟩, ⟨1⟩, ⟨1⟩, ⟨1⟩] := by
  obtain ⟨trace, spliced⟩ := splice_squareGraph
  obtain ⟨order, order', traversal, devices⟩ := splice_traversal spliced
  cases traversal.before.symm.trans postOrder_squareGraph
  cases traversal.after.symm.trans postOrder_squareCopied
  refine ⟨_, spliced, traversal, devices _ ?_ rfl (by decide) ofGraph_squareCopied⟩
  intro copy member node found
  have which : copy = ⟨0, 2⟩ ∨ copy = ⟨0, 3⟩ := by simpa using member
  rcases which with rfl | rfl
  · cases found
    rfl
  · cases found
    rfl

end Placement
