import Placement.Copy.Crossing
import Placement.Proofs.Graph.PostOrder

namespace Placement

variable {P : Client} {g : Graph P}

theorem Node.applies_iff (node : Node P) (op : Operator P) :
    node.applies op = true ↔ node.op.map Operator.name = some op.name := by
  cases applied : node.op with
  | none => simp [Node.applies, applied]
  | some own => simp [Node.applies, applied, Operator.same]

theorem Node.applies_congr (node : Node P) {op other : Operator P} (named : other.name = op.name) :
    node.applies other = node.applies op := by
  simp only [Node.applies, Operator.same, named]

theorem Node.applies_eq_false_iff (node : Node P) (op : Operator P) :
    node.applies op = false ↔ ∀ own, node.op = some own → own.name ≠ op.name := by
  cases applied : node.op with
  | none => simp [Node.applies, applied]
  | some own => simp [Node.applies, applied, Operator.same]

namespace Crossing

/-- The crossing is one of the graph: its nodes are the graph's own, and it is not into a node
that applies the copy operator. -/
structure Of (g : Graph P) (op : Operator P) (c : Crossing P) : Prop where
  consumer : g.node? c.consumer = some c.consumerNode
  reads : c.consumerNode.inputs[c.slot]? = some c.entry
  producer : g.node? c.entry.node = some c.producerNode
  crosses : c.producerNode.device ≠ c.consumerNode.device
  plain : c.consumerNode.applies op = false

/-- Crossings are listed by the place of their consumer in an order, and then by slot. -/
def Earlier (order : List NodeId) (c d : Crossing P) : Prop :=
  order.idxOf c.consumer < order.idxOf d.consumer ∨ (c.consumer = d.consumer ∧ c.slot < d.slot)

def place (c : Crossing P) : NodeId × Nat := (c.consumer, c.slot)

def isInto (id : NodeId) (slot : Nat) (c : Crossing P) : Bool :=
  c.consumer == id && c.slot == slot

theorem isInto_eq_false_of_ne {id : NodeId} {slot : Nat} {c : Crossing P}
    (other : c.consumer ≠ id) : c.isInto id slot = false := by
  simp [isInto, other]

theorem at?_eq_some_iff {consumer : NodeId} {node : Node P} {slot : Nat} (c : Crossing P) :
    at? g consumer node slot = some c ↔
      c.consumer = consumer ∧ c.consumerNode = node ∧ c.slot = slot ∧
      node.inputs[slot]? = some c.entry ∧ g.node? c.entry.node = some c.producerNode ∧
      c.producerNode.device ≠ node.device := by
  unfold at?
  cases reads : node.inputs[slot]? with
  | none => simp
  | some entry =>
    cases found : g.node? entry.node with
    | none =>
      simp only [found, reduceCtorEq, Option.some.injEq, false_iff, not_and]
      rintro - - - rfl producer
      cases found.symm.trans producer
    | some producer =>
      obtain ⟨consumer', slot', entry', producer', node'⟩ := c
      by_cases same : producer.device = node.device
      · simp only [found, same, ↓reduceIte, reduceCtorEq, Option.some.injEq, false_iff, not_and]
        rintro - - - rfl known apart
        obtain rfl : producer = producer' := Option.some.inj (found.symm.trans known)
        exact apart same
      · simp only [found, same, ↓reduceIte, Option.some.injEq, Crossing.mk.injEq]
        constructor
        · rintro ⟨rfl, rfl, rfl, rfl, rfl⟩
          exact ⟨rfl, rfl, rfl, rfl, found, same⟩
        · rintro ⟨rfl, rfl, rfl, rfl, known, _⟩
          obtain rfl : producer = producer' := Option.some.inj (found.symm.trans known)
          exact ⟨rfl, rfl, rfl, rfl, rfl⟩

end Crossing

namespace Graph

variable {op : Operator P}

theorem mem_crossingsInto_iff (consumer : NodeId) (c : Crossing P) :
    c ∈ g.crossingsInto op consumer ↔ c.consumer = consumer ∧ c.Of g op := by
  unfold crossingsInto
  cases found : g.node? consumer with
  | none =>
    simp only [List.not_mem_nil, false_iff, not_and]
    rintro rfl own
    cases found.symm.trans own.consumer
  | some node =>
    by_cases mediates : node.applies op = true
    · simp only [mediates, ↓reduceIte, List.not_mem_nil, false_iff, not_and]
      rintro rfl own
      obtain rfl : node = c.consumerNode := Option.some.inj (found.symm.trans own.consumer)
      simp [own.plain] at mediates
    · simp only [mediates, Bool.false_eq_true, ↓reduceIte, List.mem_filterMap, List.mem_range,
        Crossing.at?_eq_some_iff]
      constructor
      · rintro ⟨slot, _, rfl, rfl, rfl, reads, producer, crosses⟩
        exact ⟨rfl, found, reads, producer, crosses, by simpa using mediates⟩
      · rintro ⟨rfl, own⟩
        obtain rfl : node = c.consumerNode := Option.some.inj (found.symm.trans own.consumer)
        refine ⟨c.slot, ?_, rfl, rfl, rfl, own.reads, own.producer, own.crosses⟩
        exact (Array.getElem?_eq_some_iff.mp own.reads).1

theorem mem_crossings_iff (order : List NodeId) (c : Crossing P) :
    c ∈ g.crossings op order ↔ c.consumer ∈ order ∧ c.Of g op := by
  simp only [crossings, List.mem_flatMap, mem_crossingsInto_iff]
  constructor
  · rintro ⟨consumer, member, rfl, own⟩
    exact ⟨member, own⟩
  · rintro ⟨member, own⟩
    exact ⟨c.consumer, member, rfl, own⟩

theorem own_of_listed {order : List NodeId} {k : Nat} {c : Crossing P}
    (listed : (g.crossings op order)[k]? = some c) : c.consumer ∈ order ∧ c.Of g op :=
  (mem_crossings_iff order c).mp (List.mem_of_getElem? listed)

theorem crossingsInto_pairwise (g : Graph P) (op : Operator P) (consumer : NodeId) :
    (g.crossingsInto op consumer).Pairwise
      (fun c d => c.consumer = d.consumer ∧ c.slot < d.slot) := by
  unfold crossingsInto
  split
  next => exact .nil
  next node found =>
    split
    next => exact .nil
    next =>
      refine List.pairwise_lt_range.filterMap _ (fun i j less c first d second => ?_)
      obtain ⟨rfl, _, rfl, _⟩ := (Crossing.at?_eq_some_iff c).mp first
      obtain ⟨same, _, rfl, _⟩ := (Crossing.at?_eq_some_iff d).mp second
      exact ⟨same.symm, less⟩

theorem pairwise_idxOf {order : List NodeId} (nodup : order.Nodup) :
    order.Pairwise (fun a b => order.idxOf a < order.idxOf b) := by
  rw [List.pairwise_iff_getElem]
  intro i j hi hj less
  rwa [nodup.idxOf_getElem i hi, nodup.idxOf_getElem j hj]

theorem crossings_pairwise (g : Graph P) (op : Operator P) {order : List NodeId}
    (nodup : order.Nodup) : (g.crossings op order).Pairwise (Crossing.Earlier order) := by
  refine List.pairwise_flatMap.mpr ⟨fun consumer _ => ?_, ?_⟩
  · exact (g.crossingsInto_pairwise op consumer).imp (fun later => .inr later)
  · refine (pairwise_idxOf nodup).imp (fun {a b} less c first d second => .inl ?_)
    obtain ⟨rfl, _⟩ := (mem_crossingsInto_iff a c).mp first
    obtain ⟨rfl, _⟩ := (mem_crossingsInto_iff b d).mp second
    exact less

theorem crossings_apart {order : List NodeId} (walked : g.postOrder = .ok order)
    (op : Operator P) :
    (g.crossings op order).Pairwise (fun d c => d.isInto c.consumer c.slot = false) := by
  refine (g.crossings_pairwise op (nodup_of_postOrder walked)).imp (fun {d c} earlier => ?_)
  rcases earlier with earlier | ⟨_, earlier⟩
  · exact Crossing.isInto_eq_false_of_ne (fun same => by simp [same] at earlier)
  · have different : d.slot ≠ c.slot := Nat.ne_of_lt earlier
    simp [Crossing.isInto, different]

theorem crossings_congr {h : Graph P} (nodes : ∀ id, g.node? id = h.node? id) (op : Operator P)
    (order : List NodeId) : g.crossings op order = h.crossings op order := by
  have slots : Crossing.at? g = Crossing.at? h := by
    funext consumer node slot
    simp only [Crossing.at?, nodes]
  have into : g.crossingsInto op = h.crossingsInto op := by
    funext consumer
    simp only [crossingsInto, nodes, slots]
  rw [crossings, into, crossings]

/-- A slot of a node in the order reads from another device, and the node does not itself apply
the copy operator. -/
def Crosses (g : Graph P) (copyOp : String) (order : List NodeId) (id : NodeId)
    (slot : Nat) : Prop :=
  id ∈ order ∧ ∃ consumer entry producer, g.node? id = some consumer ∧
    (∀ own, consumer.op = some own → own.name ≠ copyOp) ∧
    consumer.inputs[slot]? = some entry ∧ g.node? entry.node = some producer ∧
    producer.device ≠ consumer.device

theorem mem_places_iff {op : Operator P} (order : List NodeId) (id : NodeId) (slot : Nat) :
    (id, slot) ∈ (g.crossings op order).map Crossing.place ↔ g.Crosses op.name order id slot := by
  simp only [List.mem_map, mem_crossings_iff]
  constructor
  · rintro ⟨c, ⟨member, own⟩, same⟩
    obtain ⟨rfl, rfl⟩ := Prod.mk.inj same
    exact ⟨member, c.consumerNode, c.entry, c.producerNode, own.consumer,
      (Node.applies_eq_false_iff _ op).mp own.plain, own.reads, own.producer, own.crosses⟩
  · rintro ⟨member, consumer, entry, producer, found, plain, reads, present, crosses⟩
    exact ⟨⟨id, slot, entry, producer, consumer⟩, ⟨member, found, reads, present, crosses,
      (Node.applies_eq_false_iff _ op).mpr plain⟩, rfl⟩

end Graph
end Placement
