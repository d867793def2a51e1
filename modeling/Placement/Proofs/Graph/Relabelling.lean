import Placement.Proofs.Graph.PostOrder

namespace Placement

variable {P : Client}

def Entry.relabel (f : NodeId → NodeId) (e : Entry) : Entry := { e with node := f e.node }

def Node.relabel (f : NodeId → NodeId) (node : Node P) : Node P where
  attrs := node.attrs
  inputs := node.inputs.map (Entry.relabel f)
  controlDeps := node.controlDeps.map f

/-- The part of `g` that its outputs lead to is found in `h` under other ids. -/
structure Relabels (f : NodeId → NodeId) (g h : Graph P) : Prop where
  injective : ∀ a b, g.Reachable a → g.Reachable b → f a = f b → a = b
  owned : ∀ id, g.Reachable id → (h.Has (f id) ↔ g.Has id)
  outputs : h.outputs = g.outputs.map (Entry.relabel f)
  nodes : ∀ id node, g.Reachable id → g.node? id = some node →
    h.node? (f id) = some (node.relabel f)

section

variable (f : NodeId → NodeId)

@[simp] theorem Entry.node_relabel (e : Entry) : (e.relabel f).node = f e.node := rfl

@[simp] theorem Entry.index_relabel (e : Entry) : (e.relabel f).index = e.index := rfl

@[simp] theorem Entry.version_relabel (e : Entry) : (e.relabel f).version = e.version := rfl

@[simp] theorem Node.name_relabel (node : Node P) : (node.relabel f).name = node.name := rfl

@[simp] theorem Node.device_relabel (node : Node P) : (node.relabel f).device = node.device := rfl

@[simp] theorem Node.isVariable_relabel (node : Node P) :
    (node.relabel f).isVariable = node.isVariable := rfl

@[simp] theorem Node.numOutputs_relabel (node : Node P) :
    (node.relabel f).numOutputs = node.numOutputs := rfl

@[simp] theorem Node.applies_relabel (node : Node P) (op : Operator P) :
    (node.relabel f).applies op = node.applies op := rfl

@[simp] theorem Node.dependencies_relabel (node : Node P) :
    (node.relabel f).dependencies = node.dependencies.map f := by
  simp [dependencies, relabel, Function.comp_def]

theorem Node.inputList_relabel (node : Node P) :
    (node.relabel f).inputs.toList = node.inputs.toList.map (Entry.relabel f) :=
  Array.toList_map

theorem Node.controlDepList_relabel (node : Node P) :
    (node.relabel f).controlDeps.toList = node.controlDeps.toList.map f :=
  Array.toList_map

theorem Node.inputs_relabel (node : Node P) (slot : Nat) :
    (node.relabel f).inputs[slot]? = node.inputs[slot]?.map (Entry.relabel f) := by
  simp [relabel]

end

theorem Node.relabel_congr {f f' : NodeId → NodeId} {node : Node P}
    (same : ∀ id ∈ node.dependencies, f id = f' id) : node.relabel f = node.relabel f' := by
  have inputs : node.inputs.map (Entry.relabel f) = node.inputs.map (Entry.relabel f') := by
    refine Array.map_congr_left (fun e input => ?_)
    rw [Entry.relabel, same e.node (mem_dependencies_of_input input), Entry.relabel]
  have controlDeps : node.controlDeps.map f = node.controlDeps.map f' :=
    Array.map_congr_left (fun id control => same id (mem_dependencies_of_controlDep control))
  rw [relabel, inputs, controlDeps, relabel]

theorem Graph.Reachable.congr {g g' : Graph P} {id : NodeId} (reached : g.Reachable id)
    (nodes : ∀ id, g.node? id = g'.node? id) (outputs : g.outputs = g'.outputs) :
    g'.Reachable id := by
  induction reached with
  | output entry listed => exact .output entry (outputs ▸ listed)
  | dependency a b _ depends ih =>
    obtain ⟨node, found, dependency⟩ := depends
    exact .dependency a b ih ⟨node, (nodes a).symm.trans found, dependency⟩

namespace Relabels

variable {f : NodeId → NodeId} {g h : Graph P} (relabels : Relabels f g h)

include relabels

theorem node?_eq_none {id : NodeId} (reached : g.Reachable id) (missing : g.node? id = none) :
    h.node? (f id) = none := by
  have outside : ¬ h.Has (f id) := by
    rw [relabels.owned id reached, Graph.has_iff_isSome_node?]
    simp [missing]
  simpa [Graph.has_iff_isSome_node?] using outside

theorem exists_of_node? {id : NodeId} {node' : Node P} (reached : g.Reachable id)
    (found : h.node? (f id) = some node') :
    ∃ node, g.node? id = some node ∧ node' = node.relabel f := by
  cases before : g.node? id with
  | none => cases (relabels.node?_eq_none reached before).symm.trans found
  | some node =>
    exact ⟨node, rfl, Option.some.inj (found.symm.trans (relabels.nodes id node reached before))⟩

theorem roots_eq : h.roots = g.roots.map f := by
  simp [Graph.roots, relabels.outputs, Function.comp_def]

theorem unfolds {ids listing : List NodeId} (reached : ∀ id ∈ ids, g.Reachable id)
    (unfolds : g.Unfolds ids listing) : h.Unfolds (ids.map f) (listing.map f) := by
  induction unfolds with
  | nil => exact .nil
  | cons id ids below rest node found _ _ ihBelow ihRest =>
    have here : g.Reachable id := reached id (by simp)
    have deeper := ihBelow (fun b depends => .dependency id b here ⟨node, found, depends⟩)
    have others := ihRest (fun b member => reached b (by simp [member]))
    rw [← Node.dependencies_relabel] at deeper
    have whole := Graph.Unfolds.cons (f id) (ids.map f) _ _ _ (relabels.nodes id node here found)
      deeper others
    simpa using whole

theorem exists_unfolds {ids ids' listing' : List NodeId} (unfolds : h.Unfolds ids' listing')
    (reached : ∀ id ∈ ids, g.Reachable id) (same : ids' = ids.map f) :
    ∃ listing, g.Unfolds ids listing ∧ listing' = listing.map f := by
  induction unfolds generalizing ids with
  | nil =>
    obtain rfl : ids = [] := by simpa using same
    exact ⟨[], .nil, rfl⟩
  | cons id' ids' below' rest' node' found _ _ ihBelow ihRest =>
    obtain ⟨id, ids, rfl, rfl, rfl⟩ := List.map_eq_cons_iff.mp same.symm
    have here : g.Reachable id := reached id (by simp)
    obtain ⟨node, before, rfl⟩ := relabels.exists_of_node? here found
    obtain ⟨below, deeper, rfl⟩ := ihBelow
      (fun b depends => .dependency id b here ⟨node, before, depends⟩) (node.dependencies_relabel f)
    obtain ⟨rest, others, rfl⟩ := ihRest (fun b member => reached b (by simp [member])) rfl
    exact ⟨below ++ id :: rest, .cons id ids below rest node before deeper others, by simp⟩

/-- A walk over the relabelled graph succeeds exactly when one over the graph does, and its order
is then the relabelled one. -/
theorem postOrder_eq_ok_iff (order' : List NodeId) :
    h.postOrder = .ok order' ↔ ∃ order, g.postOrder = .ok order ∧ order' = order.map f := by
  have reached : ∀ id ∈ g.roots, g.Reachable id := by
    intro id root
    obtain ⟨entry, listed, rfl⟩ := List.mem_map.mp root
    exact .output entry (Array.mem_toList_iff.mp listed)
  have firsts : ∀ listing, g.Unfolds g.roots listing →
      (listing.map f).eraseDups = listing.eraseDups.map f := by
    intro listing unfolds
    have all := unfolds.reachable reached
    exact eraseDups_map (fun a ha b hb => relabels.injective a b (all a ha) (all b hb))
  rw [Graph.postOrder_eq_ok_iff]
  constructor
  · rintro ⟨listing', after, rfl⟩
    obtain ⟨listing, before, rfl⟩ := relabels.exists_unfolds after reached relabels.roots_eq
    refine ⟨listing.eraseDups, ?_, firsts listing before⟩
    exact (Graph.postOrder_eq_ok_iff g _).mpr ⟨listing, before, rfl⟩
  · rintro ⟨order, walked, rfl⟩
    obtain ⟨listing, unfolds, rfl⟩ := (Graph.postOrder_eq_ok_iff g order).mp walked
    refine ⟨listing.map f, ?_, (firsts listing unfolds).symm⟩
    rw [relabels.roots_eq]
    exact relabels.unfolds reached unfolds

section

variable {order : List NodeId} (walked : g.postOrder = .ok order)

include walked

theorem postOrder_eq : h.postOrder = .ok (order.map f) :=
  (relabels.postOrder_eq_ok_iff _).mpr ⟨order, walked, rfl⟩

theorem injective_of_mem {a b : NodeId} (first : a ∈ order) (second : b ∈ order)
    (same : f a = f b) : a = b :=
  relabels.injective a b ((Graph.mem_postOrder_iff walked a).mp first)
    ((Graph.mem_postOrder_iff walked b).mp second) same

theorem node?_of_mem {id : NodeId} (member : id ∈ order) :
    ∃ node, g.node? id = some node ∧ h.node? (f id) = some (node.relabel f) := by
  obtain ⟨node, found⟩ := Graph.holds_of_postOrder walked id member
  exact ⟨node, found, relabels.nodes id node ((Graph.mem_postOrder_iff walked id).mp member) found⟩

end

end Relabels
end Placement
