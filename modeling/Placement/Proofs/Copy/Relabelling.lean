import Placement.Proofs.Copy.Outcome
import Placement.Proofs.Numbering.Relabelling

/-! Nothing that is computed from a graph depends on the ids of its nodes, or on nodes that its
outputs do not lead to. Copy insertion finds the same crossings, in the same order, and what it
leaves behind are again two graphs of which one is the other relabelled: the copies get the next
free ids, whatever these are. -/
namespace Placement

variable {P : Client} {f : NodeId → NodeId} {g h : Graph P}

namespace Crossing

def relabel (f : NodeId → NodeId) (c : Crossing P) : Crossing P where
  consumer := f c.consumer
  slot := c.slot
  entry := c.entry.relabel f
  producerNode := c.producerNode.relabel f
  consumerNode := c.consumerNode.relabel f

section

variable [CustomParsers P] (settings : CopySettings) (op : Operator P) (c : Crossing P)

theorem copyNode_relabel :
    (c.relabel f).copyNode settings op = (c.copyNode settings op).relabel f := by
  have same : (c.relabel f).requested settings op = c.requested settings op := rfl
  rw [copyNode, same, copyNode, Node.relabel]
  simp [relabel]

end

end Crossing

namespace Graph

section

variable (relabels : Relabels f g h) {order : List NodeId} (walked : g.postOrder = .ok order)

include relabels walked

theorem at?_relabel {consumer : NodeId} {node : Node P} (member : consumer ∈ order)
    (found : g.node? consumer = some node) (slot : Nat) :
    Crossing.at? h (f consumer) (node.relabel f) slot =
      (Crossing.at? g consumer node slot).map (Crossing.relabel f) := by
  simp only [Crossing.at?, Node.inputs_relabel]
  cases reads : node.inputs[slot]? with
  | none => rfl
  | some entry =>
    have producer := (producer_of_postOrder walked member found reads).1
    obtain ⟨producer, present, present'⟩ := relabels.node?_of_mem walked producer
    by_cases same : producer.device = node.device
    · simp [present, present', same]
    · simp [present, present', same, Crossing.relabel]

theorem crossingsInto_relabel (op : Operator P) {consumer : NodeId} (member : consumer ∈ order) :
    h.crossingsInto op (f consumer) = (g.crossingsInto op consumer).map (Crossing.relabel f) := by
  obtain ⟨node, found, found'⟩ := relabels.node?_of_mem walked member
  have size : (node.relabel f).inputs.size = node.inputs.size := Array.size_map
  simp only [crossingsInto, found, found', Node.applies_relabel, size,
    at?_relabel relabels walked member found]
  split
  next => rfl
  next => rw [List.map_filterMap]

theorem crossings_relabel (op : Operator P) :
    h.crossings op (order.map f) = (g.crossings op order).map (Crossing.relabel f) := by
  rw [crossings, List.flatMap_map, crossings, List.map_flatMap]
  exact List.flatMap_congr (fun id member => crossingsInto_relabel relabels walked op member)

theorem crossing_relabel {op : Operator P} {k : Nat} {c : Crossing P}
    (listed : (g.crossings op order)[k]? = some c) :
    (h.crossings op (order.map f))[k]? = some (c.relabel f) := by
  rw [crossings_relabel relabels walked, List.getElem?_map, listed, Option.map_some]

end

/-- A relabelling of the nodes of `g`, together with the copies that are added after them. -/
def relabelCopies (g h : Graph P) (f : NodeId → NodeId) (id : NodeId) : NodeId :=
  if (g.node? id).isSome then f id else h.copyId (id.index - g.nodes.size)

theorem relabelCopies_of_mem (h : Graph P) (f : NodeId → NodeId) {order : List NodeId}
    (walked : g.postOrder = .ok order) {id : NodeId} (member : id ∈ order) :
    g.relabelCopies h f id = f id := by
  obtain ⟨node, found⟩ := holds_of_postOrder walked id member
  simp [relabelCopies, found]

theorem relabelCopies_copyId (g h : Graph P) (f : NodeId → NodeId) (k : Nat) :
    g.relabelCopies h f (g.copyId k) = h.copyId k := by
  have outside : g.node? (g.copyId k) = none := by simp [copyId]
  have position : (g.copyId k).index - g.nodes.size = k := by simp [copyId, idAt]
  simp [relabelCopies, outside, position]

section

variable (relabels : Relabels f g h) {order : List NodeId} (walked : g.postOrder = .ok order)

include relabels walked

theorem copyIds_relabel (op : Operator P) : h.copyIds (h.crossings op (order.map f)) =
    (g.copyIds (g.crossings op order)).map (g.relabelCopies h f) := by
  have labels : g.relabelCopies h f ∘ g.copyId = h.copyId :=
    funext (relabelCopies_copyId g h f)
  rw [copyIds, crossings_relabel relabels walked, List.length_map, copyIds, List.map_map, labels]

/-- Where a slot reads a copy, the relabelled slot reads the copy with the same number. -/
theorem reroute_relabel (op : Operator P) {id : NodeId} {node : Node P} (member : id ∈ order)
    (found : g.node? id = some node) {slot : Nat} {e : Entry}
    (reads : node.inputs[slot]? = some e) :
    h.reroute (h.crossings op (order.map f)) (f id) slot (e.relabel f) =
      (g.reroute (g.crossings op order) id slot e).relabel (g.relabelCopies h f) := by
  rcases g.reroute_cases (g.crossings op order) id slot e with
    ⟨fresh, same⟩ | ⟨k, c, listed, rfl, rfl, copied⟩
  · have fresh' : ∀ c ∈ h.crossings op (order.map f), c.isInto (f id) slot = false := by
      rw [crossings_relabel relabels walked]
      intro c' member'
      obtain ⟨c, crossing, rfl⟩ := List.mem_map.mp member'
      have consumer := ((mem_crossings_iff order c).mp crossing).1
      have other := fresh c crossing
      simp only [Crossing.isInto, Bool.and_eq_false_iff, beq_eq_false_iff_ne] at other ⊢
      exact other.imp_left (fun different same =>
        different (relabels.injective_of_mem walked consumer member same))
    have producer := (producer_of_postOrder walked member found reads).1
    rw [h.reroute_of_fresh fresh', same, Entry.relabel, Entry.relabel,
      relabelCopies_of_mem h f walked producer]
  · have apart := crossings_apart (relabels.postOrder_eq walked) op
    have copy : Entry.relabel (g.relabelCopies h f) { node := g.copyId k } =
        { node := h.copyId k } := by simp [Entry.relabel, relabelCopies_copyId]
    rw [copied, copy]
    exact h.reroute_of_listed apart (crossing_relabel relabels walked listed) (e.relabel f)

theorem rerouteNode_relabel (op : Operator P) {id : NodeId} {node : Node P} (member : id ∈ order)
    (found : g.node? id = some node) :
    h.rerouteNode (h.crossings op (order.map f)) (f id) (node.relabel f) =
      (g.rerouteNode (g.crossings op order) id node).relabel (g.relabelCopies h f) := by
  have dependencies := dependencies_subset_postOrder walked member found
  have inputs : (node.relabel f).inputs.mapIdx (h.reroute (h.crossings op (order.map f)) (f id)) =
      (node.inputs.mapIdx (g.reroute (g.crossings op order) id)).map
        (Entry.relabel (g.relabelCopies h f)) := by
    apply Array.ext_getElem?
    intro slot
    rw [Array.getElem?_mapIdx, Node.inputs_relabel, Array.getElem?_map, Array.getElem?_mapIdx]
    cases reads : node.inputs[slot]? with
    | none => rfl
    | some e => exact congrArg some (reroute_relabel relabels walked op member found reads)
  have controlDeps : node.controlDeps.map f = node.controlDeps.map (g.relabelCopies h f) := by
    refine Array.map_congr_left (fun id control => ?_)
    have early := dependencies (Node.mem_dependencies_of_controlDep control)
    exact (relabelCopies_of_mem h f walked early).symm
  rw [rerouteNode, inputs]
  exact congrArg (Node.mk node.attrs _) controlDeps

end

end Graph

theorem Relabels.publish (relabels : Relabels f g h) (settings : CopySettings)
    (devices : Array Device) (free free' : Nat) :
    Relabels f (settings.publish g devices free) (settings.publish h devices free') := by
  have reached : ∀ id, (settings.publish g devices free).Reachable id → g.Reachable id :=
    fun id published => published.congr (fun _ => rfl) rfl
  constructor
  · exact fun a b first second => relabels.injective a b (reached a first) (reached b second)
  · exact fun id published => relabels.owned id (reached id published)
  · exact relabels.outputs
  · exact fun id node published => relabels.nodes id node (reached id published)

variable [CustomParsers P] {settings : CopySettings} {op : Operator P}

theorem Graph.exists_splice_iff {order : List NodeId} (walked : g.postOrder = .ok order) :
    (∃ s, g.splice settings op = .ok s) ↔
      ∀ c ∈ g.crossings op order, op.Accepts (c.requested settings op) := by
  constructor
  · rintro ⟨s, splicing⟩
    obtain ⟨same, walked', spliced⟩ := spliced_of_splice splicing
    cases walked.symm.trans walked'
    exact spliced.accepted
  · intro accepted
    rw [splice_eq_foldlM walked]
    obtain ⟨s, folded, _⟩ := Crossing.foldlM_realize_ok accepted (.start g)
    exact ⟨s, folded⟩

namespace Relabels

section

variable (relabels : Relabels f g h)

include relabels

theorem exists_splice_iff :
    (∃ s, h.splice settings op = .ok s) ↔ ∃ s, g.splice settings op = .ok s := by
  have accepted : ∀ order, g.postOrder = .ok order →
      ((∃ s, h.splice settings op = .ok s) ↔ ∃ s, g.splice settings op = .ok s) := by
    intro order walked
    rw [Graph.exists_splice_iff walked, Graph.exists_splice_iff (relabels.postOrder_eq walked),
      Graph.crossings_relabel relabels walked, List.forall_mem_map]
    rfl
  constructor
  · rintro ⟨s', splicing⟩
    obtain ⟨order', walked', _⟩ := Graph.spliced_of_splice splicing
    obtain ⟨order, walked, _⟩ := (relabels.postOrder_eq_ok_iff order').mp walked'
    exact (accepted order walked).mp ⟨s', splicing⟩
  · rintro ⟨s, splicing⟩
    obtain ⟨order, walked, _⟩ := Graph.spliced_of_splice splicing
    exact (accepted order walked).mpr ⟨s, splicing⟩

end

section

variable {order order' : List NodeId} {after after' : Graph P} (relabels : Relabels f g h)
  (reordered : Reordered g settings op order after order')
  (rewritten : Rewritten h settings op (h.crossings op (order.map f)) after')

include relabels reordered

theorem relabelCopies_injective {a b : NodeId} (first : a ∈ order') (second : b ∈ order')
    (same : g.relabelCopies h f a = g.relabelCopies h f b) : a = b := by
  have walked := reordered.before
  have apart : ∀ id ∈ order, ∀ k, f id ≠ h.copyId k := by
    intro id member k
    obtain ⟨node, _, found⟩ := relabels.node?_of_mem walked member
    exact Graph.ne_copyId found k
  rcases reordered.cases_of_mem first with old | ⟨j, c, _, rfl⟩
  · rw [Graph.relabelCopies_of_mem h f walked old] at same
    rcases reordered.cases_of_mem second with old' | ⟨k, d, _, rfl⟩
    · rw [Graph.relabelCopies_of_mem h f walked old'] at same
      exact relabels.injective_of_mem walked old old' same
    · rw [Graph.relabelCopies_copyId] at same
      exact absurd same (apart a old k)
  · rw [Graph.relabelCopies_copyId] at same
    rcases reordered.cases_of_mem second with old' | ⟨k, d, _, rfl⟩
    · rw [Graph.relabelCopies_of_mem h f walked old'] at same
      exact absurd same.symm (apart b old' j)
    · rw [Graph.relabelCopies_copyId] at same
      rw [h.copyId_injective same]

include rewritten

theorem node?_rewritten {id : NodeId} {node : Node P} (member : id ∈ order')
    (found : after.node? id = some node) :
    after'.node? (g.relabelCopies h f id) = some (node.relabel (g.relabelCopies h f)) := by
  have walked := reordered.before
  rcases reordered.cases_of_node member found with
    ⟨before, old, present, rfl⟩ | ⟨k, c, listed, rfl, rfl⟩
  · have there := relabels.nodes id before ((Graph.mem_postOrder_iff walked id).mp old) present
    rw [Graph.relabelCopies_of_mem h f walked old, rewritten.kept _ _ there,
      Graph.rerouteNode_relabel relabels walked op old present]
  · obtain ⟨consumer, own⟩ := Graph.own_of_listed listed
    have producer := (Graph.producer_of_postOrder walked consumer own.consumer own.reads).1
    rw [Graph.relabelCopies_copyId, rewritten.made k _
      (Graph.crossing_relabel relabels walked listed), Crossing.copyNode_relabel]
    refine congrArg some (Node.relabel_congr (fun a dependency => ?_))
    obtain rfl : a = c.entry.node := List.mem_singleton.mp dependency
    exact (Graph.relabelCopies_of_mem h f walked producer).symm

/-- What two relabelled graphs are rewritten to is relabelled again. -/
theorem rewritten_relabels : Relabels (g.relabelCopies h f) after after' := by
  have listed : ∀ id, after.Reachable id → id ∈ order' :=
    fun id reached => (Graph.mem_postOrder_iff reordered.after id).mpr reached
  constructor
  · intro a b first second same
    exact relabels.relabelCopies_injective reordered (listed a first) (listed b second) same
  · intro id reached
    obtain ⟨node, found⟩ := Graph.holds_of_postOrder reordered.after id (listed id reached)
    have found' := relabels.node?_rewritten reordered rewritten (listed id reached) found
    exact iff_of_true (Graph.has_of_node? found') (Graph.has_of_node? found)
  · rw [rewritten.outputs, reordered.rewritten.outputs, relabels.outputs]
    refine Array.map_congr_left (fun e output => ?_)
    have member := Graph.output_mem_postOrder reordered.before output
    rw [Entry.relabel, Entry.relabel, Graph.relabelCopies_of_mem h f reordered.before member]
  · intro id node reached found
    exact relabels.node?_rewritten reordered rewritten (listed id reached) found

end

end Relabels

/-- The copy is on a slot of the graph before: the slot reads it now, and it reads what the slot
read. -/
def CopyReport.Serves (report : CopyReport P) (g : Graph P) (copy consumer : NodeId)
    (slot : Nat) : Prop :=
  ∃ before entry after node, g.node? consumer = some before ∧ before.inputs[slot]? = some entry ∧
    report.graph.node? consumer = some after ∧ after.inputs[slot]? = some { node := copy } ∧
    report.graph.node? copy = some node ∧ node.inputs = #[entry]

/-- Two reports, on a graph and on the graph relabelled, that differ in ids only. -/
structure CopyReport.Corresponds (f : NodeId → NodeId) (g h : Graph P) (settings : CopySettings)
    (report report' : CopyReport P) : Prop where
  count : report'.copies.length = report.copies.length
  copies : ∀ (k : Nat) copy copy', report.copies[k]? = some copy → report'.copies[k]? = some copy' →
    ∃ node consumer slot, report.graph.node? copy = some node ∧
      report'.graph.node? copy' = some (node.relabel f) ∧ g.Reachable consumer ∧
      report.Serves g copy consumer slot ∧ report'.Serves h copy' (f consumer) slot
  devices : ∃ devices, report.graph.attrs.get .devices settings.attrKey = .ok devices ∧
    report'.graph.attrs.get .devices settings.attrKey = .ok devices
  graphs : ∃ f', (∀ id, g.Reachable id → f' id = f id) ∧ report'.copies = report.copies.map f' ∧
    Relabels f' report.graph report'.graph

structure SameResults (f : NodeId → NodeId) (g h : Graph P) : Prop where
  walks : (∃ order, g.postOrder = .ok order) ↔ ∃ order', h.postOrder = .ok order'
  order : ∀ order, g.postOrder = .ok order → h.postOrder = .ok (order.map f)
  numbers : (∃ n, Numbering.ofGraph g = .ok n) ↔ ∃ n', Numbering.ofGraph h = .ok n'
  numbering : ∀ n n', Numbering.ofGraph g = .ok n → Numbering.ofGraph h = .ok n' →
    n.Corresponds f g n'
  devices : ∀ devices, DeviceVector.ofGraph g = .ok devices ↔ DeviceVector.ofGraph h = .ok devices
  inserts : ∀ (settings : CopySettings) (ops : OpRegistry P) (free free' : Nat),
    (∃ report, (settings.insertCopies g ops free).result = .ok report) ↔
      ∃ report', (settings.insertCopies h ops free').result = .ok report'
  insertion : ∀ (settings : CopySettings) (ops : OpRegistry P) (free free' : Nat)
    (report report' : CopyReport P), (settings.insertCopies g ops free).result = .ok report →
    (settings.insertCopies h ops free').result = .ok report' →
    report.Corresponds f g h settings report'

section

variable {s : Splicing P} {order : List NodeId}

theorem Spliced.crossing_of_copy {crossings : List (Crossing P)} {k : Nat} {copy : NodeId}
    (spliced : Spliced g settings op crossings s) (made : s.copies.toList[k]? = some copy) :
    ∃ c, crossings[k]? = some c ∧ copy = g.copyId k := by
  rw [spliced.copies, Graph.copyIds, List.getElem?_map, Option.map_eq_some_iff] at made
  obtain ⟨i, position, rfl⟩ := made
  obtain ⟨inside, rfl⟩ := List.getElem?_eq_some_iff.mp position
  rw [List.length_range] at inside
  exact ⟨crossings[k], List.getElem?_eq_getElem inside, by rw [List.getElem_range]⟩

theorem Spliced.serves (spliced : Spliced g settings op (g.crossings op order) s)
    (walked : g.postOrder = .ok order) {k : Nat} {c : Crossing P}
    (listed : (g.crossings op order)[k]? = some c) (devices : Array Device) (free : Nat) :
    CopyReport.Serves ⟨settings.publish s.graph devices free, s.copies.toList⟩ g (g.copyId k)
      c.consumer c.slot := by
  have own := (Graph.own_of_listed listed).2
  exact ⟨_, _, _, _, own.consumer, own.reads, spliced.rewritten.kept _ _ own.consumer,
    Graph.inputs_rerouteNode_of_listed walked listed, spliced.rewritten.made k c listed, rfl⟩

end

namespace Relabels

variable (relabels : Relabels f g h)

include relabels

theorem splice_relabels {s s' : Splicing P} (splicing : g.splice settings op = .ok s)
    (splicing' : h.splice settings op = .ok s') :
    ∃ order, g.postOrder = .ok order ∧ Spliced g settings op (g.crossings op order) s ∧
      Spliced h settings op (h.crossings op (order.map f)) s' ∧
      Relabels (g.relabelCopies h f) s.graph s'.graph := by
  obtain ⟨order, order', spliced, reordered⟩ := Graph.reordered_of_splice splicing
  obtain ⟨same, walked', spliced'⟩ := Graph.spliced_of_splice splicing'
  cases (relabels.postOrder_eq reordered.before).symm.trans walked'
  exact ⟨order, reordered.before, spliced, spliced',
    relabels.rewritten_relabels reordered spliced'.rewritten⟩

theorem exists_report_iff (settings : CopySettings) (ops : OpRegistry P) (free free' : Nat) :
    (∃ report, (settings.insertCopies g ops free).result = .ok report) ↔
      ∃ report', (settings.insertCopies h ops free').result = .ok report' := by
  constructor
  · rintro ⟨report, succeeded⟩
    obtain ⟨op, s, devices, chosen, splicing, placed, _⟩ :=
      CopySettings.insertCopies_eq_ok succeeded
    obtain ⟨s', splicing'⟩ := relabels.exists_splice_iff.mpr ⟨s, splicing⟩
    obtain ⟨_, _, _, _, after⟩ := relabels.splice_relabels splicing splicing'
    have placed' := (after.devices_eq_ok_iff devices).mpr placed
    rw [CopySettings.insertCopies_of_splice chosen splicing' placed']
    exact ⟨_, rfl⟩
  · rintro ⟨report', succeeded⟩
    obtain ⟨op, s', devices, chosen, splicing', placed', _⟩ :=
      CopySettings.insertCopies_eq_ok succeeded
    obtain ⟨s, splicing⟩ := relabels.exists_splice_iff.mp ⟨s', splicing'⟩
    obtain ⟨_, _, _, _, after⟩ := relabels.splice_relabels splicing splicing'
    have placed := (after.devices_eq_ok_iff devices).mp placed'
    rw [CopySettings.insertCopies_of_splice chosen splicing placed]
    exact ⟨_, rfl⟩

theorem reports_correspond {ops : OpRegistry P} {free free' : Nat} {report report' : CopyReport P}
    (succeeded : (settings.insertCopies g ops free).result = .ok report)
    (succeeded' : (settings.insertCopies h ops free').result = .ok report') :
    report.Corresponds f g h settings report' := by
  obtain ⟨op, s, devices, chosen, splicing, placed, rfl⟩ :=
    CopySettings.insertCopies_eq_ok succeeded
  obtain ⟨same, s', devices', chosen', splicing', placed', rfl⟩ :=
    CopySettings.insertCopies_eq_ok succeeded'
  cases chosen.symm.trans chosen'
  obtain ⟨order, walked, spliced, spliced', after⟩ := relabels.splice_relabels splicing splicing'
  cases ((after.devices_eq_ok_iff devices).mpr placed).symm.trans placed'
  have copies : s'.copies.toList = s.copies.toList.map (g.relabelCopies h f) := by
    rw [spliced'.copies, spliced.copies, Graph.copyIds_relabel relabels walked]
  constructor
  · exact (congrArg List.length copies).trans (List.length_map _)
  · intro k copy copy' made made'
    obtain ⟨c, listed, rfl⟩ := spliced.crossing_of_copy made
    obtain ⟨_, _, rfl⟩ := spliced'.crossing_of_copy made'
    have listed' := Graph.crossing_relabel relabels walked listed
    have copied := spliced'.rewritten.made k _ listed'
    rw [Crossing.copyNode_relabel] at copied
    refine ⟨c.copyNode settings op, c.consumer, c.slot, spliced.rewritten.made k c listed, copied,
      ?_, ?_, ?_⟩
    · exact (Graph.mem_postOrder_iff walked _).mp (Graph.own_of_listed listed).1
    · exact spliced.serves walked listed devices free
    · exact spliced'.serves (relabels.postOrder_eq walked) listed' devices free'
  · exact ⟨devices, settings.get_publish s.graph devices free,
      settings.get_publish s'.graph devices free'⟩
  · refine ⟨g.relabelCopies h f, fun id reached => ?_, copies,
      after.publish settings devices free free'⟩
    exact Graph.relabelCopies_of_mem h f walked ((Graph.mem_postOrder_iff walked id).mpr reached)

end Relabels

/-- Graphs that differ in the ids of their nodes, and in what their outputs do not lead to, have
the same results. -/
theorem sameResults_of_relabels (relabels : Relabels f g h) : SameResults f g h := by
  constructor
  · constructor
    · rintro ⟨order, walked⟩
      exact ⟨order.map f, relabels.postOrder_eq walked⟩
    · rintro ⟨order', walked'⟩
      obtain ⟨order, walked, _⟩ := (relabels.postOrder_eq_ok_iff order').mp walked'
      exact ⟨order, walked⟩
  · exact fun order walked => relabels.postOrder_eq walked
  · exact relabels.exists_numbering_iff.symm
  · intro n n' numbered numbered'
    obtain ⟨order, walked⟩ := Numbering.walked_of_ofGraph numbered
    exact Numbering.corresponds relabels walked numbered numbered'
  · exact fun devices => (relabels.devices_eq_ok_iff devices).symm
  · exact relabels.exists_report_iff
  · exact fun settings ops free free' report report' => relabels.reports_correspond

/-- The square of `squareGraph` in another arena and in another order, beside a node that reads
itself and one that reads a node of a third arena. -/
def shuffledGraph : Graph .plain where
  arena := 7
  nodes := #[
    { attrs := { name := "ring", op := some { name := "loop" } }, inputs := #[{ node := ⟨7, 0⟩ }] },
    { attrs := { name := "sq", op := some { name := "mul" }, device := ⟨1⟩ }
      inputs := #[{ node := ⟨7, 3⟩ }, { node := ⟨7, 3⟩ }] },
    { attrs := { name := "loose", device := ⟨5⟩ }, controlDeps := #[⟨9, 4⟩, ⟨7, 8⟩] },
    { attrs := { name := "x", device := ⟨0⟩ } }]
  outputs := #[{ node := ⟨7, 1⟩ }]

def shuffle (id : NodeId) : NodeId := if id = ⟨0, 0⟩ then ⟨7, 3⟩ else ⟨7, 1⟩

theorem relabels_shuffle : Relabels shuffle squareGraph shuffledGraph := by
  have places : ∀ id, squareGraph.Reachable id → id = ⟨0, 0⟩ ∨ id = ⟨0, 1⟩ := by
    intro id reached
    simpa using (Graph.mem_postOrder_iff postOrder_squareGraph id).mpr reached
  constructor
  · intro a b first second same
    rcases places a first with rfl | rfl
    · rcases places b second with rfl | rfl
      · rfl
      · exact absurd same (by decide)
    · rcases places b second with rfl | rfl
      · exact absurd same (by decide)
      · rfl
  · intro id reached
    rcases places id reached with rfl | rfl
    · exact iff_of_true ⟨rfl, by decide⟩ ⟨rfl, by decide⟩
    · exact iff_of_true ⟨rfl, by decide⟩ ⟨rfl, by decide⟩
  · simp [squareGraph, shuffledGraph, shuffle, Entry.relabel]
  · intro id node reached found
    rcases places id reached with rfl | rfl
    · cases found
      simp [squareGraph, shuffledGraph, shuffle, Graph.node?, Node.relabel]
    · cases found
      simp [squareGraph, shuffledGraph, shuffle, Graph.node?, Node.relabel, Entry.relabel]

theorem sameResults_shuffled : SameResults shuffle squareGraph shuffledGraph ∧
    ∃ report', (CopySettings.insertCopies {} shuffledGraph .builtin 3).result = .ok report' ∧
      report'.copies.length = 2 ∧
      report'.graph.attrs.get .devices "device_index" = .ok #[⟨0⟩, ⟨1⟩, ⟨1⟩, ⟨1⟩] := by
  have same := sameResults_of_relabels relabels_shuffle
  obtain ⟨trace, spliced⟩ := splice_squareGraph
  have succeeded := congrArg Outcome.result (CopySettings.insertCopies_of_splice
    CopySettings.findCopyOp_builtin spliced ofGraph_squareCopied 0)
  obtain ⟨report', succeeded'⟩ := (same.inserts {} .builtin 0 3).mp ⟨_, succeeded⟩
  have corresponds := same.insertion {} .builtin 0 3 _ _ succeeded succeeded'
  obtain ⟨devices, published, published'⟩ := corresponds.devices
  rw [CopySettings.get_publish] at published
  cases published
  exact ⟨same, report', succeeded', corresponds.count, published'⟩

end Placement
