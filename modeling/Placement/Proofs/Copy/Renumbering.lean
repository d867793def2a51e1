import Placement.Proofs.Copy.Relabelling

namespace Placement

variable {P : Client} {g : Graph P} {op : Operator P}

namespace Graph

theorem exists_node?_of_has {id : NodeId} (has : g.Has id) : ∃ node, g.node? id = some node := by
  rwa [has_iff_isSome_node?, Option.isSome_iff_exists] at has

/-- For the copy at a position of one list of crossings, the copy for the same slot in another
list. All other ids are left as they are. -/
def renumber (g : Graph P) (crossings crossings' : List (Crossing P)) (id : NodeId) : NodeId :=
  if id = g.copyId (id.index - g.nodes.size) then
    match crossings[id.index - g.nodes.size]? with
    | some c => (g.reroute crossings' c.consumer c.slot c.entry).node
    | none => id
  else id

section

variable {crossings crossings' : List (Crossing P)}

theorem renumber_of_node? {id : NodeId} {node : Node P} (found : g.node? id = some node) :
    g.renumber crossings crossings' id = id := by
  rw [renumber, if_neg (ne_copyId found _)]

theorem renumber_of_has {id : NodeId} (has : g.Has id) :
    g.renumber crossings crossings' id = id := by
  obtain ⟨node, found⟩ := exists_node?_of_has has
  exact renumber_of_node? found

theorem renumber_copyId
    (apart : crossings'.Pairwise (fun d c => d.isInto c.consumer c.slot = false)) {j k : Nat}
    {c : Crossing P} (listed : crossings[j]? = some c) (listed' : crossings'[k]? = some c) :
    g.renumber crossings crossings' (g.copyId j) = g.copyId k := by
  have position : (g.copyId j).index - g.nodes.size = j := by simp [copyId, idAt]
  simp only [renumber, position, if_true, listed, g.reroute_of_listed apart listed']

end

section

variable {crossings crossings' : List (Crossing P)}
  (same : ∀ c, c ∈ crossings' ↔ c ∈ crossings)
  (apart : crossings'.Pairwise (fun d c => d.isInto c.consumer c.slot = false))

include same apart

/-- A slot that reads a copy reads the renumbered copy when the copies are made in the other
order. -/
theorem reroute_renumber (id : NodeId) (slot : Nat) {e : Entry} {producer : Node P}
    (found : g.node? e.node = some producer) :
    g.reroute crossings' id slot e =
      (g.reroute crossings id slot e).relabel (g.renumber crossings crossings') := by
  rcases g.reroute_cases crossings id slot e with ⟨fresh, kept⟩ | ⟨j, c, listed, rfl, rfl, copied⟩
  · have fresh' : ∀ c ∈ crossings', c.isInto id slot = false :=
      fun c member => fresh c ((same c).mp member)
    rw [g.reroute_of_fresh fresh', kept, Entry.relabel, renumber_of_node? found]
  · obtain ⟨k, listed'⟩ := List.getElem?_of_mem ((same c).mpr (List.mem_of_getElem? listed))
    rw [g.reroute_of_listed apart listed', copied, Entry.relabel,
      renumber_copyId apart listed listed']

theorem rerouteNode_renumber {id : NodeId} {node : Node P}
    (closed : ∀ a ∈ node.dependencies, ∃ below, g.node? a = some below) :
    g.rerouteNode crossings' id node =
      (g.rerouteNode crossings id node).relabel (g.renumber crossings crossings') := by
  have inputs : node.inputs.mapIdx (g.reroute crossings' id) =
      (node.inputs.mapIdx (g.reroute crossings id)).map
        (Entry.relabel (g.renumber crossings crossings')) := by
    apply Array.ext_getElem?
    intro slot
    rw [Array.getElem?_mapIdx, Array.getElem?_map, Array.getElem?_mapIdx]
    cases reads : node.inputs[slot]? with
    | none => rfl
    | some e =>
      obtain ⟨producer, found⟩ :=
        closed e.node (Node.mem_dependencies_of_input (Array.mem_of_getElem? reads))
      exact congrArg some (reroute_renumber same apart id slot found)
  have controlDeps : node.controlDeps.map (g.renumber crossings crossings') =
      node.controlDeps := by
    conv_rhs => rw [← Array.map_id node.controlDeps]
    refine Array.map_congr_left (fun a control => ?_)
    obtain ⟨below, found⟩ := closed a (Node.mem_dependencies_of_controlDep control)
    exact renumber_of_node? found
  rw [rerouteNode, inputs, Node.relabel]
  exact congrArg (Node.mk node.attrs _) controlDeps.symm

end

theorem rerouteNode_of_fresh {crossings : List (Crossing P)} {id : NodeId}
    (fresh : ∀ c ∈ crossings, c.consumer ≠ id) (node : Node P) :
    g.rerouteNode crossings id node = node := by
  have slots : g.reroute crossings id = g.reroute [] id := by
    funext slot e
    exact g.reroute_of_fresh
      (fun c member => Crossing.isInto_eq_false_of_ne (fresh c member)) e
  rw [rerouteNode, slots]
  exact g.rerouteNode_nil id node

end Graph

theorem Rewritten.node?_of_not_mem [CustomParsers P] {settings : CopySettings}
    {order : List NodeId} {after : Graph P}
    (rewritten : Rewritten g settings op (g.crossings op order) after) {id : NodeId}
    (has : g.Has id) (outside : id ∉ order) : after.node? id = g.node? id := by
  obtain ⟨node, found⟩ := Graph.exists_node?_of_has has
  have fresh : ∀ c ∈ g.crossings op order, c.consumer ≠ id := by
    rintro c member rfl
    exact outside ((Graph.mem_crossings_iff order c).mp member).1
  rw [rewritten.kept id node found, Graph.rerouteNode_of_fresh fresh, found]

section

variable [CustomParsers P] {settings : CopySettings} {order order' : List NodeId}
  {crossings' : List (Crossing P)} {after after' : Graph P}
  (reordered : Reordered g settings op order after order')
  (rewritten : Rewritten g settings op crossings' after')
  (same : ∀ c, c ∈ crossings' ↔ c ∈ g.crossings op order)
  (apart : crossings'.Pairwise (fun d c => d.isInto c.consumer c.slot = false))

namespace Reordered

include reordered same apart

theorem renumber_injective {a b : NodeId} (first : a ∈ order') (second : b ∈ order')
    (equal : g.renumber (g.crossings op order) crossings' a =
      g.renumber (g.crossings op order) crossings' b) : a = b := by
  have back : ∀ id ∈ order', g.renumber crossings' (g.crossings op order)
      (g.renumber (g.crossings op order) crossings' id) = id := by
    intro id member
    rcases reordered.cases_of_mem member with old | ⟨j, c, listed, rfl⟩
    · obtain ⟨node, found⟩ := Graph.holds_of_postOrder reordered.before id old
      rw [Graph.renumber_of_node? found, Graph.renumber_of_node? found]
    · obtain ⟨k, listed'⟩ := List.getElem?_of_mem ((same c).mpr (List.mem_of_getElem? listed))
      rw [Graph.renumber_copyId apart listed listed',
        Graph.renumber_copyId (Graph.crossings_apart reordered.before op) listed' listed]
  rw [← back a first, equal, back b second]

include rewritten

theorem node?_renumber {id : NodeId} {node : Node P} (member : id ∈ order')
    (found : after.node? id = some node) :
    after'.node? (g.renumber (g.crossings op order) crossings' id) =
      some (node.relabel (g.renumber (g.crossings op order) crossings')) := by
  rcases reordered.cases_of_node member found with
    ⟨before, old, present, rfl⟩ | ⟨j, c, listed, rfl, rfl⟩
  · have closed : ∀ a ∈ before.dependencies, ∃ below, g.node? a = some below := fun a depends =>
      Graph.holds_of_postOrder reordered.before a
        (Graph.dependencies_subset_postOrder reordered.before old present depends)
    rw [Graph.renumber_of_node? present, rewritten.kept id before present,
      Graph.rerouteNode_renumber same apart closed]
  · have own := (Graph.own_of_listed listed).2
    obtain ⟨k, listed'⟩ := List.getElem?_of_mem ((same c).mpr (List.mem_of_getElem? listed))
    rw [Graph.renumber_copyId apart listed listed', rewritten.made k c listed']
    simp [Crossing.copyNode, Node.relabel, Entry.relabel, Graph.renumber_of_node? own.producer]

/-- Two rewrites of one graph, for the same crossings in different orders, are each other
relabelled. -/
theorem renumber_relabels :
    Relabels (g.renumber (g.crossings op order) crossings') after after' := by
  have listed : ∀ id, after.Reachable id → id ∈ order' :=
    fun id reached => (Graph.mem_postOrder_iff reordered.after id).mpr reached
  constructor
  · intro a b first second equal
    exact reordered.renumber_injective same apart (listed a first) (listed b second) equal
  · intro id reached
    obtain ⟨node, found⟩ := Graph.holds_of_postOrder reordered.after id (listed id reached)
    have found' := reordered.node?_renumber rewritten same apart (listed id reached) found
    exact iff_of_true (Graph.has_of_node? found') (Graph.has_of_node? found)
  · rw [rewritten.outputs, reordered.rewritten.outputs]
    conv_lhs => rw [← Array.map_id g.outputs]
    refine Array.map_congr_left (fun e output => ?_)
    obtain ⟨producer, found⟩ := Graph.holds_of_postOrder reordered.before e.node
      (Graph.output_mem_postOrder reordered.before output)
    rw [Entry.relabel, Graph.renumber_of_node? found]
    rfl
  · intro id node reached found
    exact reordered.node?_renumber rewritten same apart (listed id reached) found

end Reordered

end

end Placement
