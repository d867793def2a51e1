import Placement.Proofs.Copy.Outcome
import Placement.Proofs.DeviceVector.Safety

namespace Placement

variable {P : Client} {g h : Graph P} {order : List NodeId}

theorem Graph.Has.ne_nextId {id : NodeId} (has : g.Has id) : id ≠ g.nextId := by
  rintro rfl
  exact Nat.lt_irrefl _ has.2

/-- The nodes of an order are in the graph `h`, with as many slots as they have in the graph `g`,
and all their slots read nodes that are in `h`. -/
def Intact (g : Graph P) (order : List NodeId) (h : Graph P) : Prop :=
  ∀ id ∈ order, ∃ before node, g.node? id = some before ∧ h.node? id = some node ∧
    node.inputs.size = before.inputs.size ∧ ∀ e ∈ node.inputs, h.Has e.node

theorem Intact.start (walked : g.postOrder = .ok order) : Intact g order g := by
  intro id member
  obtain ⟨node, found⟩ := Graph.holds_of_postOrder walked id member
  refine ⟨node, node, found, found, rfl, fun e input => ?_⟩
  obtain ⟨slot, reads⟩ := Array.getElem?_of_mem input
  obtain ⟨_, producer, present⟩ := Graph.producer_of_postOrder walked member found reads
  exact Graph.has_of_node? present

/-- One slot of a consumer can be looked at and rewritten: what is read for it is there, and so is
the slot itself, also when a copy has been added before it is written. -/
structure SlotInRange (h : Graph P) (consumer : NodeId) (slot : Nat) : Prop where
  reads : ∃ node entry, h.node? consumer = some node ∧ node.inputs[slot]? = some entry ∧
    h.Has entry.node
  writes : ∀ copy, ∃ node, (h.addNode copy).node? consumer = some node ∧ slot < node.inputs.size

theorem Intact.slotInRange (intact : Intact g order h) {consumer : NodeId} {before : Node P}
    {slot : Nat} (member : consumer ∈ order) (old : g.node? consumer = some before)
    (inside : slot < before.inputs.size) : SlotInRange h consumer slot := by
  obtain ⟨same, node, old', found, size, reads⟩ := intact consumer member
  obtain rfl : before = same := Option.some.inj (old.symm.trans old')
  rw [← size] at inside
  have entry : node.inputs[slot]? = some node.inputs[slot] := Array.getElem?_eq_getElem inside
  refine ⟨⟨node, _, found, entry, reads _ (Array.getElem_mem inside)⟩, fun copy => ?_⟩
  refine ⟨node, ?_, inside⟩
  rw [Graph.node?_addNode, if_neg (Graph.has_of_node? found).ne_nextId, found]

section

variable {s next : Splicing P} {consumer : NodeId} {slot : Nat}

theorem Splicing.has_insert (attrs : NodeAttrs P) (entry : Entry) {id : NodeId}
    (has : id = s.graph.nextId ∨ s.graph.Has id) :
    (s.insert attrs entry consumer slot).graph.Has id := by
  rcases has with rfl | ⟨arena, inside⟩
  · simp [Splicing.insert, Graph.Has, Graph.nextId, Graph.idAt]
  · refine ⟨by simp [Splicing.insert, arena], ?_⟩
    simp only [Splicing.insert, Graph.size_setInput, Graph.size_addNode]
    omega

/-- A copy takes no node away and leaves every slot in place. -/
theorem Intact.insert (intact : Intact g order s.graph) (attrs : NodeAttrs P) (entry : Entry)
    (member : consumer ∈ order) :
    Intact g order (s.insert attrs entry consumer slot).graph := by
  obtain ⟨_, _, _, present, _⟩ := intact consumer member
  have lookup := s.node?_insert attrs entry (Graph.has_of_node? present).ne_nextId slot
  intro id listed
  obtain ⟨before, node, old, found, size, reads⟩ := intact id listed
  by_cases here : id = consumer
  · refine ⟨before, _, old, by rw [lookup, if_pos here, found]; rfl, by simpa using size, ?_⟩
    intro e input
    rcases Array.mem_or_eq_of_mem_setIfInBounds input with kept | rfl
    · exact Splicing.has_insert attrs entry (.inr (reads e kept))
    · exact Splicing.has_insert attrs entry (.inl rfl)
  · refine ⟨before, node, old, ?_, size, fun e input => ?_⟩
    · rw [lookup, if_neg here, if_neg (Graph.has_of_node? found).ne_nextId, found]
    · exact Splicing.has_insert attrs entry (.inr (reads e input))

variable [CustomParsers P] {settings : CopySettings} {op : Operator P}

theorem Intact.spliceSlot {device : Device} (intact : Intact g order s.graph)
    (member : consumer ∈ order) (spliced : s.spliceSlot settings op consumer device slot = .ok next) :
    Intact g order next.graph := by
  simp only [Splicing.spliceSlot, except_bind_eq_ok_iff] at spliced
  obtain ⟨node, _, entry, _, producer, _, done⟩ := spliced
  split at done
  next =>
    cases done
    exact intact
  next =>
    simp only [Splicing.realize] at done
    split at done
    next => cases done
    next =>
      cases done
      exact Intact.insert (s := s.record _) intact _ entry member

theorem Intact.spliceNode (intact : Intact g order s.graph) (member : consumer ∈ order)
    (spliced : s.spliceNode settings op consumer = .ok next) : Intact g order next.graph := by
  simp only [Splicing.spliceNode, except_bind_eq_ok_iff] at spliced
  obtain ⟨node, _, done⟩ := spliced
  split at done
  next =>
    cases done
    exact intact
  next =>
    exact foldlM_invariant (motive := fun s => Intact g order s.graph) intact
      (fun _ _ _ _ intact => intact.spliceSlot member) done

/-- Where splicing comes to a node, everything that was there at the beginning still is. -/
theorem Intact.of_comesTo (walked : g.postOrder = .ok order)
    (comes : ComesTo (Splicing.spliceNode settings op) (.start g) order consumer s) :
    Intact g order s.graph :=
  comes.invariant (motive := fun s => Intact g order s.graph) (.start walked)
    (fun _ _ member _ intact => intact.spliceNode member)

theorem slotInRange_of_comesTo (walked : g.postOrder = .ok order)
    (outer : ComesTo (Splicing.spliceNode settings op) (.start g) order consumer s)
    {node : Node P} (found : s.graph.node? consumer = some node)
    (inner : ComesTo (Splicing.spliceSlot settings op consumer node.device) s
      (List.range node.inputs.size) slot next) : SlotInRange next.graph consumer slot := by
  have intact := Intact.of_comesTo walked outer
  have now : Intact g order next.graph :=
    inner.invariant (motive := fun s => Intact g order s.graph) intact
      (fun _ _ _ _ intact => intact.spliceSlot outer.mem)
  obtain ⟨before, same, old, found', size, _⟩ := intact consumer outer.mem
  obtain rfl : node = same := Option.some.inj (found.symm.trans found')
  exact now.slotInRange outer.mem old (size ▸ List.mem_range.mp inner.mem)

theorem reported_of_splice {interrupted : Interrupted P}
    (stopped : g.splice settings op = .error interrupted) :
    ∃ error, interrupted.fault = .reported error := by
  rcases g.answers_postOrder with ⟨order, walked⟩ | ⟨error, failed⟩
  · rw [Graph.splice_eq_foldlM walked] at stopped
    obtain ⟨c, s, _, failed⟩ := exists_comesTo_of_error stopped
    rcases op.accepts_or_rejects (c.requested settings op) with accepted | ⟨error, rejected⟩
    · rw [Crossing.realize_of_accepted accepted] at failed
      cases failed
    · rw [Crossing.realize_of_rejected rejected] at failed
      cases failed
      exact ⟨.op error, rfl⟩
  · rw [Graph.splice_of_unordered failed] at stopped
    cases stopped
    exact ⟨.graph error, rfl⟩

end

variable [CustomParsers P]

/-- Copies are inserted without reading or writing out of range. -/
structure InsertionInRange (settings : CopySettings) (g : Graph P) (ops : OpRegistry P)
    (free : Nat) : Prop where
  walk : ∀ w, Walk.Passes g w → Walk.InRange g w
  nodes : ∀ op order id s, settings.findCopyOp ops = .ok op → g.postOrder = .ok order →
    ComesTo (Splicing.spliceNode settings op) (.start g) order id s → s.graph.Has id
  slots : ∀ op order id s node slot current, settings.findCopyOp ops = .ok op →
    g.postOrder = .ok order → ComesTo (Splicing.spliceNode settings op) (.start g) order id s →
    s.graph.node? id = some node → node.applies op = false →
    ComesTo (Splicing.spliceSlot settings op id node.device) s (List.range node.inputs.size) slot
      current → SlotInRange current.graph id slot
  devices : ∀ op s, settings.findCopyOp ops = .ok op → g.splice settings op = .ok s →
    DeviceVector.InRange s.graph
  outcome : (settings.insertCopies g ops free).result.Answers

theorem CopySettings.answers_insertCopies {settings : CopySettings} {ops : OpRegistry P}
    (devices : ∀ op s, settings.findCopyOp ops = .ok op → g.splice settings op = .ok s →
      DeviceVector.InRange s.graph) (free : Nat) :
    (settings.insertCopies g ops free).result.Answers := by
  cases chosen : settings.findCopyOp ops with
  | error error => exact .inr ⟨_, insertCopies_of_unfound chosen g free⟩
  | ok op =>
    cases spliced : g.splice settings op with
    | error interrupted =>
      obtain ⟨error, reported⟩ := reported_of_splice spliced
      refine .inr ⟨error, ?_⟩
      rw [insertCopies_of_interrupted chosen spliced free, reported]
      rfl
    | ok s =>
      rcases (devices op s chosen spliced).outcome with ⟨vector, placed⟩ | ⟨error, failed⟩
      · rw [insertCopies_of_splice chosen spliced placed]
        exact .inl ⟨_, rfl⟩
      · exact .inr ⟨.graph error, insertCopies_of_unplaced chosen spliced failed free⟩

/-- Neither the device vector nor copy insertion reads or writes out of range, whatever dangling
ids, cycles and missing outputs there are in the graph, as long as words can number the nodes. -/
theorem insertion_inRange :
    (∀ h : Graph P, h.nodes.size < UInt32.size → DeviceVector.InRange h) ∧
    ∀ (settings : CopySettings) (g : Graph P) (ops : OpRegistry P) (free : Nat),
      (∀ op s, settings.findCopyOp ops = .ok op → g.splice settings op = .ok s →
        s.graph.nodes.size < UInt32.size) → InsertionInRange settings g ops free := by
  refine ⟨fun h => DeviceVector.inRange, fun settings g ops free small => ?_⟩
  have devices : ∀ op s, settings.findCopyOp ops = .ok op → g.splice settings op = .ok s →
      DeviceVector.InRange s.graph :=
    fun op s chosen spliced => DeviceVector.inRange (small op s chosen spliced)
  constructor
  · exact fun w => Walk.inRange_of_passes
  · intro op order id s _ walked comes
    obtain ⟨_, _, _, found, _⟩ := Intact.of_comesTo walked comes id comes.mem
    exact Graph.has_of_node? found
  · intro op order id s node slot current _ walked outer found _ inner
    exact slotInRange_of_comesTo walked outer found inner
  · exact devices
  · exact CopySettings.answers_insertCopies devices free

/-- The product of `squareGraph`, beside a node that nothing needs. It reads itself, a node of
another arena and the id that the second copy will get, and waits for a node that never is. -/
def driftGraph : Graph .plain :=
  { squareGraph with nodes := squareGraph.nodes.push {
      attrs := { name := "dead" }
      inputs := #[{ node := ⟨0, 2⟩ }, { node := ⟨7, 0⟩ }, { node := ⟨0, 4⟩ }]
      controlDeps := #[⟨0, 99⟩] } }

theorem insertion_inRange_drift :
    DeviceVector.InRange driftGraph ∧ InsertionInRange {} driftGraph .builtin 0 ∧
      ∃ s, driftGraph.splice {} .deviceCopy = .ok s ∧ DeviceVector.InRange s.graph := by
  have walked : driftGraph.postOrder = .ok [⟨0, 0⟩, ⟨0, 1⟩] := by cbv
  obtain ⟨vector, insertion⟩ := insertion_inRange (P := .plain)
  have inRange : InsertionInRange {} driftGraph .builtin 0 := by
    refine insertion {} driftGraph .builtin 0 (fun op s chosen spliced => ?_)
    cases CopySettings.findCopyOp_builtin.symm.trans chosen
    obtain ⟨order, walked', spliced⟩ := Graph.spliced_of_splice spliced
    cases walked.symm.trans walked'
    have two : (driftGraph.crossings .deviceCopy [⟨0, 0⟩, ⟨0, 1⟩]).length = 2 := rfl
    rw [spliced.rewritten.size, two]
    decide
  have spliced : ∃ s, driftGraph.splice {} .deviceCopy = .ok s := by
    rw [Graph.splice_eq_foldlM walked]
    exact ⟨_, rfl⟩
  obtain ⟨s, spliced⟩ := spliced
  exact ⟨vector driftGraph (by decide), inRange, s, spliced,
    inRange.devices _ s CopySettings.findCopyOp_builtin spliced⟩

end Placement
