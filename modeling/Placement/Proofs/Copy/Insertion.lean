import Placement.Copy.Insertion
import Placement.Proofs.Copy.Devices

namespace Placement

variable {P : Client} {g : Graph P} {settings : CopySettings} {ops : OpRegistry P} {free : Nat}

def Operator.Unary (op : Operator P) : Prop :=
  op.numOutputs = 1 ∧ (op.numInputs = none ∨ op.numInputs = some 1)

theorem Operator.canCopy_iff (op : Operator P) : op.canCopy = true ↔ op.Unary := by
  simp [canCopy, Unary]

theorem CopySettings.findCopyOp_of_missing (missing : ops.find? settings.copyOp = none) :
    settings.findCopyOp ops = .error (.notRegistered settings.copyOp) := by
  simp [findCopyOp, OpRegistry.lookup, Catalog.lookupWith, missing, bind, Except.bind]

theorem CopySettings.findCopyOp_of_found {op : Operator P}
    (found : ops.find? settings.copyOp = some op) : settings.findCopyOp ops =
      if op.canCopy then .ok op else .error (.invalidCopyOp op.name op.numInputs op.numOutputs) := by
  simp [findCopyOp, OpRegistry.lookup, Catalog.lookupWith, found, bind, Except.bind, pure,
    Except.pure, throw, throwThe, MonadExceptOf.throw]

theorem CopySettings.findCopyOp_eq_ok_iff (op : Operator P) :
    settings.findCopyOp ops = .ok op ↔ ops.find? settings.copyOp = some op ∧ op.Unary := by
  cases found : ops.find? settings.copyOp with
  | none => simp [findCopyOp_of_missing found]
  | some registered =>
    rw [findCopyOp_of_found found, Option.some.injEq, ← Operator.canCopy_iff]
    split
    next fits =>
      rw [Except.ok.injEq]
      exact ⟨fun same => ⟨same, same ▸ fits⟩, fun both => both.1⟩
    next unfit =>
      simp only [reduceCtorEq, false_iff]
      rintro ⟨rfl, fits⟩
      exact unfit fits

theorem CopySettings.name_of_findCopyOp {op : Operator P}
    (chosen : settings.findCopyOp ops = .ok op) : op.name = settings.copyOp :=
  Catalog.nameOf_of_find? ((findCopyOp_eq_ok_iff op).mp chosen).1

def CopySettings.publish (settings : CopySettings) (g : Graph P) (devices : Array Device)
    (free : Nat) : Graph P :=
  { g with attrs := g.attrs.insert settings.attrKey ⟨free, ⟨.devices, devices⟩⟩ }

theorem CopySettings.find?_publish (settings : CopySettings) (g : Graph P)
    (devices : Array Device) (free : Nat) (key : String) :
    (settings.publish g devices free).attrs.find? key =
      if settings.attrKey = key then some ⟨free, ⟨.devices, devices⟩⟩ else g.attrs.find? key :=
  Store.find?_insert _ _ _ _

theorem CopySettings.find?_publish_self (settings : CopySettings) (g : Graph P)
    (devices : Array Device) (free : Nat) :
    (settings.publish g devices free).attrs.find? settings.attrKey =
      some ⟨free, ⟨.devices, devices⟩⟩ := by
  rw [find?_publish, if_pos rfl]

theorem CopySettings.get_publish (settings : CopySettings) (g : Graph P)
    (devices : Array Device) (free : Nat) :
    (settings.publish g devices free).attrs.get .devices settings.attrKey = .ok devices := by
  simp only [Store.get, find?_publish_self]
  rfl

theorem CopySettings.postOrder_publish (settings : CopySettings) (g : Graph P)
    (devices : Array Device) (free : Nat) :
    (settings.publish g devices free).postOrder = g.postOrder :=
  Graph.postOrder_congr (fun _ => rfl) rfl

variable [CustomParsers P]

theorem CopySettings.insertCopies_of_splice {op : Operator P} {s : Splicing P}
    {devices : Array Device} (chosen : settings.findCopyOp ops = .ok op)
    (spliced : g.splice settings op = .ok s)
    (placed : DeviceVector.ofGraph s.graph = .ok devices) (free : Nat) :
    settings.insertCopies g ops free =
      { trace := s.trace.toList ++ [.copiesInserted s.copies.size]
        drawn := 1
        result := .ok ⟨settings.publish s.graph devices free, s.copies.toList⟩ } := by
  simp [insertCopies, splice, chosen, spliced, placed, Run.ofChecked, bind, Run.bind, Run.emit,
    Run.allocate, pure, Run.pure, Store.allocate, publish]

theorem CopySettings.insertCopies_eq_ok {report : CopyReport P}
    (succeeded : (settings.insertCopies g ops free).result = .ok report) :
    ∃ op s devices, settings.findCopyOp ops = .ok op ∧ g.splice settings op = .ok s ∧
      DeviceVector.ofGraph s.graph = .ok devices ∧
      report = ⟨settings.publish s.graph devices free, s.copies.toList⟩ := by
  have parts := succeeded
  unfold insertCopies at parts
  obtain ⟨op, chosen, parts⟩ := (Run.bind_eq_ok_iff _ _ _ _).mp parts
  obtain ⟨copied, splicing, parts⟩ := (Run.bind_eq_ok_iff _ _ _ _).mp parts
  obtain ⟨devices, placed, _⟩ := (Run.bind_eq_ok_iff _ _ _ _).mp parts
  simp only [Run.ofChecked, Checked.within_eq_ok_iff, Checked.ofExcept_eq_ok_iff] at chosen placed
  cases spliced : g.splice settings op with
  | error interrupted =>
    simp [splice, spliced, bind, Run.bind, Run.emit, Run.ofChecked] at splicing
  | ok s =>
    obtain rfl : ⟨s.graph, s.copies.toList⟩ = copied := by
      simpa [splice, spliced, bind, Run.bind, Run.emit, pure, Run.pure] using splicing
    rw [insertCopies_of_splice chosen spliced placed] at succeeded
    exact ⟨op, s, devices, chosen, spliced, placed, (Except.ok.inj succeeded).symm⟩

theorem CopySettings.body_of_splice {op : Operator P} {s : Splicing P} {devices : Array Device}
    (chosen : settings.findCopyOp ops = .ok op) (spliced : g.splice settings op = .ok s)
    (placed : DeviceVector.ofGraph s.graph = .ok devices) (free : Nat) :
    (settings.body g ops free).result = .ok (settings.publish s.graph devices free) := by
  unfold body
  rw [Run.bind_eq_ok_iff, insertCopies_of_splice chosen spliced placed]
  exact ⟨_, rfl, rfl⟩

theorem CopySettings.body_eq_ok {after : Graph P}
    (succeeded : (settings.body g ops free).result = .ok after) :
    ∃ op s devices, settings.findCopyOp ops = .ok op ∧ g.splice settings op = .ok s ∧
      DeviceVector.ofGraph s.graph = .ok devices ∧
      after = settings.publish s.graph devices free := by
  unfold body at succeeded
  obtain ⟨report, inserted, returned⟩ := (Run.bind_eq_ok_iff _ _ _ _).mp succeeded
  obtain ⟨op, s, devices, chosen, spliced, placed, rfl⟩ := insertCopies_eq_ok inserted
  exact ⟨op, s, devices, chosen, spliced, placed, (Except.ok.inj returned).symm⟩

/-- The contract of copy insertion, for the listed slots that cross. -/
structure ExactRewrite (g : Graph P) (settings : CopySettings) (op : Operator P)
    (order : List NodeId) (pairs : List (NodeId × Nat)) (report : CopyReport P) : Prop where
  listed : ∀ id slot, (id, slot) ∈ pairs ↔ g.Crosses settings.copyOp order id slot
  sorted : pairs.Pairwise (fun a b =>
    order.idxOf a.1 < order.idxOf b.1 ∨ (a.1 = b.1 ∧ a.2 < b.2))
  fresh : report.copies = (List.range pairs.length).map (fun k => ⟨g.arena, g.nodes.size + k⟩)
  arena : report.graph.arena = g.arena
  size : report.graph.nodes.size = g.nodes.size + pairs.length
  copy : ∀ k id slot consumer entry producer, pairs[k]? = some (id, slot) →
    g.node? id = some consumer → consumer.inputs[slot]? = some entry →
    g.node? entry.node = some producer →
    ∃ made, op.Parses {
        name := settings.copyName producer.name consumer.name slot
        op := some op
        device := consumer.device
        dict := ∅
        payload := none } ⟨made, .ok ()⟩ ∧
      report.graph.node? ⟨g.arena, g.nodes.size + k⟩ =
        some { attrs := made, inputs := #[entry], controlDeps := #[] }
  kept : ∀ id node, g.node? id = some node → ∃ changed, report.graph.node? id = some changed ∧
    changed.attrs = node.attrs ∧ changed.controlDeps = node.controlDeps ∧
    changed.inputs.size = node.inputs.size ∧
    (∀ k slot, pairs[k]? = some (id, slot) →
      changed.inputs[slot]? = some (Entry.mk ⟨g.arena, g.nodes.size + k⟩ 0 0)) ∧
    (∀ slot, (id, slot) ∉ pairs → changed.inputs[slot]? = node.inputs[slot]?)
  outputs : report.graph.outputs = g.outputs
  attrs : ∀ key, key ≠ settings.attrKey → report.graph.attrs.find? key = g.attrs.find? key

section

variable {op : Operator P} {order : List NodeId} {s : Splicing P}

theorem Spliced.kept_slots (walked : g.postOrder = .ok order)
    (spliced : Spliced g settings op (g.crossings op order) s) {id : NodeId} {node : Node P}
    (found : g.node? id = some node) :
    ∃ changed, s.graph.node? id = some changed ∧ changed.attrs = node.attrs ∧
      changed.controlDeps = node.controlDeps ∧ changed.inputs.size = node.inputs.size ∧
      (∀ k slot, ((g.crossings op order).map Crossing.place)[k]? = some (id, slot) →
        changed.inputs[slot]? = some (Entry.mk (g.copyId k) 0 0)) ∧
      (∀ slot, (id, slot) ∉ (g.crossings op order).map Crossing.place →
        changed.inputs[slot]? = node.inputs[slot]?) := by
  refine ⟨_, spliced.rewritten.kept id node found, rfl, rfl, by simp [Graph.rerouteNode], ?_, ?_⟩
  · intro k slot listed
    rw [List.getElem?_map, Option.map_eq_some_iff] at listed
    obtain ⟨c, listed, same⟩ := listed
    obtain ⟨rfl, rfl⟩ := Prod.mk.inj same
    have own := (Graph.own_of_listed listed).2
    obtain rfl : node = c.consumerNode := Option.some.inj (found.symm.trans own.consumer)
    exact Graph.inputs_rerouteNode_of_listed walked listed
  · intro slot other
    have fresh : ∀ c ∈ g.crossings op order, c.isInto id slot = false := by
      intro c member
      by_contra here
      simp only [Crossing.isInto, Bool.not_eq_false, Bool.and_eq_true, beq_iff_eq] at here
      exact other (List.mem_map.mpr ⟨c, member, Prod.ext here.1 here.2⟩)
    have same : g.reroute (g.crossings op order) id slot = fun entry => entry :=
      funext (g.reroute_of_fresh fresh)
    simp [Graph.inputs_rerouteNode, same]

end

/-- A successful run makes one copy for each crossing of the graph that it was given, at the next
free ids and in the order of the crossings, and changes nothing else. -/
theorem insertCopies_exact {report : CopyReport P}
    (succeeded : (settings.insertCopies g ops free).result = .ok report) :
    ∃ op order pairs, settings.findCopyOp ops = .ok op ∧ g.postOrder = .ok order ∧
      ExactRewrite g settings op order pairs report := by
  obtain ⟨op, s, devices, chosen, spliced, _, rfl⟩ := CopySettings.insertCopies_eq_ok succeeded
  obtain ⟨order, walked, spliced⟩ := Graph.spliced_of_splice spliced
  have named := CopySettings.name_of_findCopyOp chosen
  have rewritten := spliced.rewritten
  refine ⟨op, order, (g.crossings op order).map Crossing.place, chosen, walked, ?_⟩
  constructor
  · intro id slot
    rw [Graph.mem_places_iff, named]
  · rw [List.pairwise_map]
    exact g.crossings_pairwise op (Graph.nodup_of_postOrder walked)
  · rw [List.length_map]
    exact spliced.copies
  · exact rewritten.arena
  · rw [List.length_map]
    exact rewritten.size
  · intro k id slot consumer entry producer listed found reads present
    rw [List.getElem?_map, Option.map_eq_some_iff] at listed
    obtain ⟨c, listed, same⟩ := listed
    obtain ⟨rfl, rfl⟩ := Prod.mk.inj same
    have own := (Graph.own_of_listed listed).2
    obtain rfl : consumer = c.consumerNode := Option.some.inj (found.symm.trans own.consumer)
    obtain rfl : entry = c.entry := Option.some.inj (reads.symm.trans own.reads)
    obtain rfl : producer = c.producerNode := Option.some.inj (present.symm.trans own.producer)
    exact ⟨_, spliced.parses (List.mem_of_getElem? listed), rewritten.made k c listed⟩
  · exact fun id node found => spliced.kept_slots walked found
  · exact rewritten.outputs
  · intro key other
    rw [CopySettings.find?_publish, if_neg (fun same => other same.symm), rewritten.attrs]

omit [CustomParsers P] in
theorem CopySettings.findCopyOp_builtin :
    CopySettings.findCopyOp (P := P) {} .builtin = .ok .deviceCopy := by cbv

theorem insertCopies_exact_square : ∃ report op order pairs,
    (CopySettings.insertCopies {} squareGraph .builtin 0).result = .ok report ∧
      report.copies = [⟨0, 2⟩, ⟨0, 3⟩] ∧ squareGraph.postOrder = .ok order ∧
      ExactRewrite squareGraph {} op order pairs report := by
  obtain ⟨trace, spliced⟩ := splice_squareGraph
  have succeeded := congrArg Outcome.result (CopySettings.insertCopies_of_splice
    CopySettings.findCopyOp_builtin spliced ofGraph_squareCopied 0)
  obtain ⟨op, order, pairs, _, walked, exact⟩ := insertCopies_exact succeeded
  exact ⟨_, op, order, pairs, succeeded, rfl, walked, exact⟩

end Placement
