import Placement.Proofs.Copy.Insertion
import Placement.Proofs.Graph.Evaluation

namespace Placement

variable {P : Client} {V : Type} {g h : Graph P} {meaning meaning' : Interpretation V}

/-- The second interpretation is the first on the graph `g`, and makes the nodes that only `h` has
hand on the one value that they read. -/
structure Interpretation.Extends (g h : Graph P) (meaning meaning' : Interpretation V) : Prop where
  kept : ∀ id, g.Has id → meaning' id = meaning id
  added : ∀ id, h.Has id → ¬ g.Has id → ∀ value, meaning' id [value] 0 = value

theorem Graph.not_has_copyId (g : Graph P) (k : Nat) : ¬ g.Has (g.copyId k) := by
  rintro ⟨_, inside⟩
  simp only [copyId, idAt] at inside
  omega

variable [CustomParsers P] {settings : CopySettings} {op : Operator P}
  {order order' : List NodeId}

namespace Reordered

variable (reordered : Reordered g settings op order h order')
  (extended : Interpretation.Extends g h meaning meaning') {v v' : Valuation V}
  (solves' : h.Solves meaning' v' order')

include reordered extended solves'

theorem read?_copy {k : Nat} {c : Crossing P} (listed : (g.crossings op order)[k]? = some c) :
    v'.read? { node := g.copyId k } = v'.read? c.entry := by
  have made := reordered.rewritten.made k c listed
  obtain ⟨inputs, known, value⟩ := solves' _ (reordered.copy_mem listed) _ made
  have single : [v'.read? c.entry] = inputs.map some := known
  obtain ⟨input, rfl⟩ : ∃ input, inputs = [input] :=
    List.length_eq_one_iff.mp (by simpa using congrArg List.length single.symm)
  have read : v'.read? c.entry = some input := by simpa using single
  rw [Valuation.read?_of_eq_some value, read,
    extended.added _ (Graph.has_of_node? made) (g.not_has_copyId k)]

theorem read?_reroute {id : NodeId} {node : Node P} (found : g.node? id = some node) {slot : Nat}
    {e : Entry} (reads : node.inputs[slot]? = some e) (same : v' e.node = v e.node) :
    v'.read? (g.reroute (g.crossings op order) id slot e) = v.read? e := by
  rcases g.reroute_cases (g.crossings op order) id slot e with
    ⟨_, kept⟩ | ⟨k, c, listed, rfl, rfl, rerouted⟩
  · rw [kept, Valuation.read?_of_eq same]
  · have own := (Graph.own_of_listed listed).2
    obtain rfl : node = c.consumerNode := Option.some.inj (found.symm.trans own.consumer)
    obtain rfl : e = c.entry := Option.some.inj (reads.symm.trans own.reads)
    rw [rerouted, reordered.read?_copy extended solves' listed, Valuation.read?_of_eq same]

theorem values_eq (solves : g.Solves meaning v order) : ∀ id ∈ order, v' id = v id := by
  refine Graph.postOrder_induction (motive := fun id => v' id = v id) reordered.before ?_
  intro id member node found earlier
  obtain ⟨inputs, known, value⟩ := solves id member node found
  obtain ⟨inputs', known', value'⟩ :=
    solves' id (reordered.mem_after member) _ (reordered.rewritten.kept id node found)
  have reads : (g.rerouteNode (g.crossings op order) id node).inputs.toList.map v'.read? =
      node.inputs.toList.map v.read? := by
    apply List.ext_getElem?
    intro slot
    simp only [List.getElem?_map, Array.getElem?_toList, Graph.inputs_rerouteNode]
    cases listed : node.inputs[slot]? with
    | none => rfl
    | some e =>
      have dependency := Node.mem_dependencies_of_input (Array.mem_of_getElem? listed)
      have read := reordered.read?_reroute extended solves' found listed
        (earlier e.node dependency)
      simp only [Option.map_some, read]
  have same : inputs' = inputs := by
    have values : inputs'.map some = inputs.map some := by rw [← known', reads, known]
    exact List.map_injective_iff.mpr (fun _ _ => Option.some.inj) values
  rw [value, value', same, extended.kept id (Graph.has_of_node? found)]

theorem outputs_eq (solves : g.Solves meaning v order) :
    h.outputs.toList.map v'.read? = g.outputs.toList.map v.read? := by
  rw [reordered.rewritten.outputs]
  refine List.map_congr_left (fun e listed => Valuation.read?_of_eq ?_)
  have member := Graph.output_mem_postOrder reordered.before (Array.mem_toList_iff.mp listed)
  exact reordered.values_eq extended solves' solves e.node member

end Reordered

omit [CustomParsers P] in
theorem CopySettings.evaluate_publish (settings : CopySettings) (g : Graph P)
    (devices : Array Device) (free : Nat) :
    (settings.publish g devices free).evaluate meaning = g.evaluate meaning :=
  Graph.evaluate_congr (fun _ => rfl) rfl

/-- A run of copy insertion keeps the value of every node that the outputs depended on, and so the
values of the outputs. -/
theorem insertCopies_preserves_values {ops : OpRegistry P} {free : Nat} {after : Graph P}
    (succeeded : (settings.body g ops free).result = .ok after)
    (extended : Interpretation.Extends g after meaning meaning') :
    ∃ v v', g.evaluate meaning = .ok v ∧ after.evaluate meaning' = .ok v' ∧
      (∀ id, g.Reachable id → ∃ outputs, v id = some outputs ∧ v' id = some outputs) ∧
      ∃ values : List V, g.outputValues meaning = .ok (values.map some) ∧
        after.outputValues meaning' = .ok (values.map some) := by
  obtain ⟨op, s, devices, chosen, spliced, _, rfl⟩ := CopySettings.body_eq_ok succeeded
  obtain ⟨order, order', _, reordered⟩ := Graph.reordered_of_splice spliced
  have extended' : Interpretation.Extends g s.graph meaning meaning' :=
    ⟨extended.kept, extended.added⟩
  obtain ⟨v, evaluated, solves⟩ := Graph.evaluate_ok reordered.before meaning
  obtain ⟨v', evaluated', solves'⟩ := Graph.evaluate_ok reordered.after meaning'
  have published : (settings.publish s.graph devices free).evaluate meaning' = .ok v' :=
    (settings.evaluate_publish s.graph devices free).trans evaluated'
  refine ⟨v, v', evaluated, published, ?_, ?_⟩
  · intro id reached
    have member := (Graph.mem_postOrder_iff reordered.before id).mpr reached
    obtain ⟨node, found⟩ := Graph.holds_of_postOrder reordered.before id member
    obtain ⟨outputs, value⟩ := solves.known member found
    exact ⟨outputs, value, (reordered.values_eq extended' solves' solves id member).trans value⟩
  · obtain ⟨values, read⟩ := solves.outputs_known reordered.before
    refine ⟨values, ?_, ?_⟩
    · rw [Graph.outputValues_eq evaluated, read]
    · rw [Graph.outputValues_eq published, ← read, ← reordered.outputs_eq extended' solves' solves]
      rfl

def squareMeaning : Interpretation Nat := fun id inputs _ =>
  match id.index with
  | 0 => 7
  | 1 => inputs.foldl (· * ·) 1
  | _ => inputs.headD 0

theorem insertCopies_preserves_values_square : ∃ after,
    (CopySettings.body {} squareGraph .builtin 0).result = .ok after ∧
      after.outputValues squareMeaning = .ok [some 49] := by
  obtain ⟨trace, spliced⟩ := splice_squareGraph
  have succeeded := CopySettings.body_of_splice CopySettings.findCopyOp_builtin spliced
    ofGraph_squareCopied 0
  have before : squareGraph.outputValues squareMeaning = .ok [some 49] := by
    rw [Graph.outputValues, Graph.evaluate, postOrder_squareGraph]
    rfl
  have extended : Interpretation.Extends squareGraph
      (CopySettings.publish {} squareCopied #[⟨0⟩, ⟨1⟩, ⟨1⟩, ⟨1⟩] 0) squareMeaning
      squareMeaning := by
    refine ⟨fun _ _ => rfl, ?_⟩
    rintro ⟨arena, index⟩ ⟨same, _⟩ outside value
    have later : ¬ index < 2 := fun inside => outside ⟨same, inside⟩
    obtain ⟨rest, rfl⟩ : ∃ rest, index = rest + 2 := ⟨index - 2, by omega⟩
    rfl
  obtain ⟨_, _, _, _, _, values, read, read'⟩ := insertCopies_preserves_values succeeded extended
  exact ⟨_, succeeded, by rw [read', ← read, before]⟩

end Placement
