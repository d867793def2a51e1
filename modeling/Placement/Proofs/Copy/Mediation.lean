import Placement.Proofs.Copy.Idempotence

namespace Placement

variable {P : Client} {g : Graph P} {settings : CopySettings} {op : Operator P}
  {order order' : List NodeId}

namespace Graph

/-- Between a producer on another device and one slot of a consumer on its own device stands the
copy, and nothing else that the outputs lead to refers to it. -/
structure Interposed (g : Graph P) (copy consumer : NodeId) (slot : Nat) : Prop where
  placed : ∃ node entry producer target, g.node? copy = some node ∧ node.inputs = #[entry] ∧
    g.node? entry.node = some producer ∧ producer.device ≠ node.device ∧
    g.node? consumer = some target ∧ target.inputs[slot]? = some { node := copy } ∧
    node.device = target.device
  reached : g.Reachable consumer
  only : ∀ id node i e, g.Reachable id → g.node? id = some node → node.inputs[i]? = some e →
    e.node = copy → id = consumer ∧ i = slot
  uncontrolled : ∀ id node, g.Reachable id → g.node? id = some node → copy ∉ node.controlDeps
  hidden : ∀ e ∈ g.outputs, e.node ≠ copy

theorem applies_of_crossings_eq_nil (none : g.crossings op order = []) {id : NodeId}
    {node producer : Node P} {e : Entry} (member : id ∈ order) (found : g.node? id = some node)
    (reads : e ∈ node.inputs) (present : g.node? e.node = some producer)
    (crosses : producer.device ≠ node.device) : node.applies op = true := by
  by_contra other
  obtain ⟨slot, listed⟩ := Array.getElem?_of_mem reads
  have crossing : (⟨id, slot, e, producer, node⟩ : Crossing P) ∈ g.crossings op order :=
    (mem_crossings_iff order _).mpr ⟨member, found, listed, present, crosses, by simpa using other⟩
  simp [none] at crossing

end Graph

variable [CustomParsers P]

namespace Reordered

variable {h : Graph P} (reordered : Reordered g settings op order h order') {id : NodeId}
  {node : Node P} (member : id ∈ order') (found : h.node? id = some node)

include reordered member found

theorem place_of_reads {k : Nat} {c : Crossing P}
    (listed : (g.crossings op order)[k]? = some c) {slot : Nat} {e : Entry}
    (reads : node.inputs[slot]? = some e) (copied : e.node = g.copyId k) :
    id = c.consumer ∧ slot = c.slot := by
  rcases reordered.cases_of_node member found with
    ⟨before, old, found', rfl⟩ | ⟨j, d, other, rfl, rfl⟩
  · rw [Graph.inputs_rerouteNode, Option.map_eq_some_iff] at reads
    obtain ⟨entry, reads, rfl⟩ := reads
    exact reordered.place_of_reads_copy listed old found' reads copied
  · have read : e ∈ #[d.entry] := Array.mem_of_getElem? reads
    obtain rfl : e = d.entry := by simpa using read
    exact absurd copied (Graph.ne_copyId (Graph.own_of_listed other).2.producer k)

theorem copyId_not_mem_controlDeps (k : Nat) : g.copyId k ∉ node.controlDeps := by
  intro control
  rcases reordered.cases_of_node member found with
    ⟨before, old, found', rfl⟩ | ⟨j, d, other, rfl, rfl⟩
  · have early := Graph.dependencies_subset_postOrder reordered.before old found'
      (Node.mem_dependencies_of_controlDep control)
    exact reordered.ne_copyId early k rfl
  · simp [Crossing.copyNode] at control

end Reordered

theorem Spliced.interposed {s : Splicing P} {after : Graph P} {k : Nat} {c : Crossing P}
    (spliced : Spliced g settings op (g.crossings op order) s) (keeps : op.KeepsNameAndDevice)
    (reordered : Reordered g settings op order s.graph order')
    (nodes : ∀ id, after.node? id = s.graph.node? id) (outputs : after.outputs = s.graph.outputs)
    (listed : (g.crossings op order)[k]? = some c) :
    after.Interposed (g.copyId k) c.consumer c.slot := by
  have walked : after.postOrder = .ok order' :=
    (Graph.postOrder_congr nodes outputs).trans reordered.after
  have own := (Graph.own_of_listed listed).2
  have device := spliced.device_copy keeps (List.mem_of_getElem? listed)
  constructor
  · refine ⟨_, c.entry, _, _, (nodes _).trans (spliced.rewritten.made k c listed), rfl,
      (nodes _).trans (spliced.rewritten.kept _ _ own.producer), ?_,
      (nodes _).trans (spliced.rewritten.kept _ _ own.consumer),
      Graph.inputs_rerouteNode_of_listed reordered.before listed, device⟩
    rw [device]
    exact own.crosses
  · exact (Graph.mem_postOrder_iff walked _).mp
      (reordered.mem_after (Graph.own_of_listed listed).1)
  · intro id node i e reached found reads copied
    exact reordered.place_of_reads ((Graph.mem_postOrder_iff walked id).mpr reached)
      ((nodes id).symm.trans found) listed reads copied
  · intro id node reached found
    exact reordered.copyId_not_mem_controlDeps ((Graph.mem_postOrder_iff walked id).mpr reached)
      ((nodes id).symm.trans found) k
  · intro e output copied
    rw [outputs, spliced.rewritten.outputs] at output
    exact reordered.ne_copyId (Graph.output_mem_postOrder reordered.before output) k copied

variable {ops : OpRegistry P} {free : Nat}

/-- Where a run leaves a slot that reads from another device, the slot is that of a node that
applies the copy operator. Every copy that the run made serves one slot that needs it. -/
theorem insertCopies_mediates {report : CopyReport P}
    (keeps : ∀ op, settings.findCopyOp ops = .ok op → op.KeepsNameAndDevice)
    (succeeded : (settings.insertCopies g ops free).result = .ok report) :
    (∀ id, report.graph.Reachable id → ∃ node, report.graph.node? id = some node ∧
      ∀ e ∈ node.inputs, ∃ producer, report.graph.node? e.node = some producer ∧
        (producer.device ≠ node.device →
          ∃ own, node.op = some own ∧ own.name = settings.copyOp)) ∧
    ∀ copy ∈ report.copies, ∃ consumer slot, report.graph.Interposed copy consumer slot := by
  obtain ⟨op, s, devices, chosen, spliced, _, rfl⟩ := CopySettings.insertCopies_eq_ok succeeded
  obtain ⟨order, order', spliced, reordered⟩ := Graph.reordered_of_splice spliced
  have walked := (settings.postOrder_publish s.graph devices free).trans reordered.after
  constructor
  · intro id reached
    have member := (Graph.mem_postOrder_iff walked id).mpr reached
    obtain ⟨node, found⟩ := Graph.holds_of_postOrder walked id member
    refine ⟨node, found, fun e reads => ?_⟩
    obtain ⟨slot, listed⟩ := Array.getElem?_of_mem reads
    obtain ⟨_, producer, present⟩ := Graph.producer_of_postOrder walked member found listed
    refine ⟨producer, present, fun crosses => ?_⟩
    have applies := Graph.applies_of_crossings_eq_nil
      (spliced.crossings_after (keeps op chosen) reordered rfl) member found reads present crosses
    rw [Node.applies_iff, CopySettings.name_of_findCopyOp chosen] at applies
    exact Option.map_eq_some_iff.mp applies
  · intro copy member
    have member : copy ∈ g.copyIds (g.crossings op order) := spliced.copies ▸ member
    obtain ⟨k, c, listed, rfl⟩ := (Graph.mem_copyIds_iff copy).mp member
    refine ⟨c.consumer, c.slot, ?_⟩
    exact spliced.interposed (keeps op chosen) reordered (fun _ => rfl) rfl listed

theorem insertCopies_mediates_square : ∃ report,
    (CopySettings.insertCopies {} squareGraph .builtin 0).result = .ok report ∧
      report.copies = [⟨0, 2⟩, ⟨0, 3⟩] ∧
      (∃ consumer slot, report.graph.Interposed ⟨0, 2⟩ consumer slot) ∧
      ∃ consumer slot, report.graph.Interposed ⟨0, 3⟩ consumer slot := by
  obtain ⟨trace, spliced⟩ := splice_squareGraph
  have succeeded := congrArg Outcome.result (CopySettings.insertCopies_of_splice
    CopySettings.findCopyOp_builtin spliced ofGraph_squareCopied 0)
  have copies := (insertCopies_mediates (fun op chosen => by
    cases chosen.symm.trans CopySettings.findCopyOp_builtin
    exact Operator.keeps_of_parser (.inr rfl)) succeeded).2
  exact ⟨_, succeeded, rfl, copies ⟨0, 2⟩ (by simp), copies ⟨0, 3⟩ (by simp)⟩

end Placement
