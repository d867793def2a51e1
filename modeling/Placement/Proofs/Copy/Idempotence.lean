import Placement.Proofs.Copy.Insertion

namespace Placement

variable {P : Client} {g h : Graph P} {settings : CopySettings}

/-- No slot of a reached node waits for a copy, and the entries have these devices. -/
structure Mediated (copyOp : String) (devices : Array Device) (g : Graph P) : Prop where
  quiet : ∃ order, g.postOrder = .ok order ∧
    ∀ op : Operator P, op.name = copyOp → g.crossings op order = []
  placed : DeviceVector.ofGraph g = .ok devices

theorem Mediated.congr {copyOp : String} {devices : Array Device}
    (mediated : Mediated copyOp devices g) (nodes : ∀ id, h.node? id = g.node? id)
    (outputs : h.outputs = g.outputs) : Mediated copyOp devices h := by
  obtain ⟨order, walked, none⟩ := mediated.quiet
  constructor
  · refine ⟨order, (Graph.postOrder_congr nodes outputs).trans walked, fun op named => ?_⟩
    rw [Graph.crossings_congr nodes, none op named]
  · exact (DeviceVector.ofGraph_congr nodes outputs).trans mediated.placed

variable [CustomParsers P]

def Operator.KeepsNameAndDevice (op : Operator P) : Prop :=
  ∀ attrs made, op.Parses attrs ⟨made, .ok ()⟩ →
    made.op.map Operator.name = attrs.op.map Operator.name ∧ made.device = attrs.device

theorem Operator.keeps_of_parser {op : Operator P}
    (known : op.parser = none ∨ op.parser = some .deviceCopy) : op.KeepsNameAndDevice := by
  intro attrs made accepted
  obtain ⟨payload, rfl⟩ := attrs_of_accepted known accepted
  exact ⟨rfl, rfl⟩

theorem Mediated.splice_eq {devices : Array Device} {ops : OpRegistry P} {op : Operator P}
    (mediated : Mediated settings.copyOp devices g) (chosen : settings.findCopyOp ops = .ok op) :
    g.splice settings op = .ok (.start g) := by
  obtain ⟨order, walked, none⟩ := mediated.quiet
  rw [Graph.splice_eq_foldlM walked, none op (CopySettings.name_of_findCopyOp chosen)]
  rfl

section

variable {op : Operator P} {order order' : List NodeId} {devices : Array Device} {s : Splicing P}
  (spliced : Spliced g settings op (g.crossings op order) s) (keeps : op.KeepsNameAndDevice)

include spliced keeps

theorem Spliced.copy_applies {c : Crossing P} (member : c ∈ g.crossings op order) :
    (c.copyNode settings op).applies op = true := by
  rw [Node.applies_iff]
  exact (keeps _ _ (spliced.parses member)).1

theorem Spliced.device_copy {c : Crossing P} (member : c ∈ g.crossings op order) :
    (c.copyNode settings op).device = c.consumerNode.device :=
  (keeps _ _ (spliced.parses member)).2

theorem Spliced.not_crossing (walked : g.postOrder = .ok order) {id : NodeId} {node : Node P}
    (member : id ∈ order) (found : g.node? id = some node) (plain : node.applies op = false)
    {slot : Nat} {entry : Entry} {producer : Node P}
    (reads : (g.rerouteNode (g.crossings op order) id node).inputs[slot]? = some entry)
    (present : s.graph.node? entry.node = some producer) : producer.device = node.device := by
  rw [Graph.inputs_rerouteNode, Option.map_eq_some_iff] at reads
  obtain ⟨old, reads, rfl⟩ := reads
  rcases g.reroute_cases (g.crossings op order) id slot old with
    ⟨fresh, kept⟩ | ⟨k, c, listed, rfl, rfl, rerouted⟩
  · rw [kept] at present
    obtain ⟨_, producer', found'⟩ := Graph.producer_of_postOrder walked member found reads
    obtain rfl := Option.some.inj (present.symm.trans (spliced.rewritten.kept _ _ found'))
    by_contra crosses
    have crossing : (⟨id, slot, old, producer', node⟩ : Crossing P) ∈ g.crossings op order :=
      (Graph.mem_crossings_iff order _).mpr ⟨member, found, reads, found', crosses, plain⟩
    simpa [Crossing.isInto] using fresh _ crossing
  · rw [rerouted] at present
    obtain rfl := Option.some.inj (present.symm.trans (spliced.rewritten.made k c listed))
    have own := (Graph.own_of_listed listed).2
    obtain rfl : node = c.consumerNode := Option.some.inj (found.symm.trans own.consumer)
    exact spliced.device_copy keeps (List.mem_of_getElem? listed)

theorem Spliced.crossings_after (reordered : Reordered g settings op order s.graph order')
    {other : Operator P} (named : other.name = op.name) :
    s.graph.crossings other order' = [] := by
  rw [List.eq_nil_iff_forall_not_mem]
  intro c member
  obtain ⟨reached, own⟩ := (Graph.mem_crossings_iff order' c).mp member
  have plain : c.consumerNode.applies op = false := by
    rw [← Node.applies_congr _ named]
    exact own.plain
  rcases reordered.cases_of_node reached own.consumer with
    ⟨node, old, found, changed⟩ | ⟨k, d, listed, _, copy⟩
  · have reads := own.reads
    have crosses := own.crosses
    rw [changed] at reads plain crosses
    exact crosses (spliced.not_crossing keeps reordered.before old found plain reads own.producer)
  · rw [copy, spliced.copy_applies keeps (List.mem_of_getElem? listed)] at plain
    cases plain

end

variable {ops : OpRegistry P} {free : Nat}

theorem CopySettings.mediated_of_body {after : Graph P}
    (keeps : ∀ op, settings.findCopyOp ops = .ok op → op.KeepsNameAndDevice)
    (succeeded : (settings.body g ops free).result = .ok after) :
    ∃ devices, Mediated settings.copyOp devices after ∧
      after.attrs.find? settings.attrKey = some ⟨free, ⟨.devices, devices⟩⟩ := by
  obtain ⟨op, s, devices, chosen, spliced, placed, rfl⟩ := body_eq_ok succeeded
  obtain ⟨order, order', spliced, reordered⟩ := Graph.reordered_of_splice spliced
  have mediated : Mediated settings.copyOp devices s.graph := by
    refine ⟨⟨order', reordered.after, fun other named => ?_⟩, placed⟩
    refine spliced.crossings_after (keeps op chosen) reordered (named.trans ?_)
    exact (name_of_findCopyOp chosen).symm
  exact ⟨devices, mediated.congr (fun _ => rfl) rfl, find?_publish_self _ _ _ _⟩

/-- The graphs differ at most in the stamps of their attributes. -/
structure Graph.SameButStamps (a b : Graph P) : Prop where
  arena : a.arena = b.arena
  nodes : a.nodes = b.nodes
  outputs : a.outputs = b.outputs
  values : ∀ key, (a.attrs.find? key).map Shared.value = (b.attrs.find? key).map Shared.value

theorem Mediated.foldlM_body {devices : Array Device} {stamp : Nat} (rest : List (OpRegistry P))
    (valid : ∀ later ∈ rest, ∃ op, settings.findCopyOp later = .ok op)
    (mediated : Mediated settings.copyOp devices g)
    (stored : g.attrs.find? settings.attrKey = some ⟨stamp, ⟨.devices, devices⟩⟩) (free : Nat) :
    ∃ final, (rest.foldlM settings.body g free).result = .ok final ∧ final.SameButStamps g := by
  induction rest generalizing g stamp free with
  | nil => exact ⟨g, rfl, rfl, rfl, rfl, fun _ => rfl⟩
  | cons later rest ih =>
    obtain ⟨op, chosen⟩ := valid later (by simp)
    have ran := CopySettings.body_of_splice chosen (mediated.splice_eq chosen) mediated.placed free
    have mediated' : Mediated settings.copyOp devices (settings.publish g devices free) :=
      mediated.congr (fun _ => rfl) rfl
    have stored' := settings.find?_publish_self g devices free
    obtain ⟨final, folded, same⟩ := ih (fun ops member => valid ops (by simp [member])) mediated'
      stored' (free + (settings.body g later free).drawn)
    refine ⟨final, ?_, same.arena, same.nodes, same.outputs, fun key => ?_⟩
    · rw [List.foldlM_cons, Run.bind_eq_ok_iff]
      exact ⟨_, ran, folded⟩
    · rw [same.values, CopySettings.find?_publish]
      split
      next here => rw [← here, stored]; rfl
      next => rfl

/-- A run on what a run has returned makes no copy, calls no parser and publishes the same devices,
so any number of runs do what one does. -/
theorem insertCopies_idempotent {after : Graph P}
    (keeps : ∀ op, settings.findCopyOp ops = .ok op → op.KeepsNameAndDevice)
    (succeeded : (settings.body g ops free).result = .ok after) :
    ∃ devices, after.attrs.get .devices settings.attrKey = .ok devices ∧
      (∀ (later : CopySettings) (ops' : OpRegistry P) (op : Operator P) (free' : Nat),
        later.copyOp = settings.copyOp → later.findCopyOp ops' = .ok op →
        ∃ again, later.insertCopies after ops' free' =
            { trace := [.copiesInserted 0], drawn := 1, result := .ok ⟨again, []⟩ } ∧
          again.arena = after.arena ∧ again.nodes = after.nodes ∧ again.outputs = after.outputs ∧
          again.attrs.get .devices later.attrKey = .ok devices ∧
          ∀ key, key ≠ later.attrKey → again.attrs.find? key = after.attrs.find? key) ∧
      ∀ rest : List (OpRegistry P), (∀ ops' ∈ rest, ∃ op, settings.findCopyOp ops' = .ok op) →
        ∃ final, ((ops :: rest).foldlM settings.body g free).result = .ok final ∧
          final.SameButStamps after := by
  obtain ⟨devices, mediated, stored⟩ := CopySettings.mediated_of_body keeps succeeded
  refine ⟨devices, ?_, ?_, ?_⟩
  · simp only [Store.get, stored]
    rfl
  · intro later ops' op free' same chosen
    rw [← same] at mediated
    refine ⟨later.publish after devices free', ?_, rfl, rfl, rfl, later.get_publish _ _ _, ?_⟩
    · exact CopySettings.insertCopies_of_splice chosen (mediated.splice_eq chosen)
        mediated.placed free'
    · intro key other
      rw [CopySettings.find?_publish, if_neg (fun here => other here.symm)]
  · intro rest valid
    obtain ⟨final, folded, same⟩ := mediated.foldlM_body rest valid stored
      (free + (settings.body g ops free).drawn)
    refine ⟨final, ?_, same⟩
    rw [List.foldlM_cons, Run.bind_eq_ok_iff]
    exact ⟨after, succeeded, folded⟩

theorem insertCopies_idempotent_square : ∃ after devices,
    (CopySettings.body {} squareGraph .builtin 0).result = .ok after ∧
      after.attrs.get .devices "device_index" = .ok devices ∧
      ∃ again, CopySettings.insertCopies { attrKey := "again", slotSuffix := true } after
          .builtin 1 =
            { trace := [.copiesInserted 0], drawn := 1, result := .ok ⟨again, []⟩ } ∧
        again.nodes = after.nodes ∧ again.attrs.get .devices "again" = .ok devices ∧
      ∃ final, ([.builtin, .builtin, .builtin].foldlM (CopySettings.body {}) squareGraph 0).result =
          .ok final ∧ final.SameButStamps after := by
  obtain ⟨trace, spliced⟩ := splice_squareGraph
  have succeeded := CopySettings.body_of_splice CopySettings.findCopyOp_builtin spliced
    ofGraph_squareCopied 0
  obtain ⟨devices, stored, later, repeated⟩ := insertCopies_idempotent (fun op chosen => by
    cases chosen.symm.trans CopySettings.findCopyOp_builtin
    exact Operator.keeps_of_parser (.inr rfl)) succeeded
  obtain ⟨again, ran, _, nodes, _, published, _⟩ :=
    later { attrKey := "again", slotSuffix := true } .builtin .deviceCopy 1 rfl (by cbv)
  have valid : ∀ ops ∈ [OpRegistry.builtin, OpRegistry.builtin],
      ∃ op : Operator .plain, CopySettings.findCopyOp {} ops = .ok op := by
    intro ops member
    obtain rfl : ops = OpRegistry.builtin := by simpa using member
    exact ⟨_, CopySettings.findCopyOp_builtin⟩
  exact ⟨_, devices, succeeded, stored, again, ran, nodes, published, repeated _ valid⟩

end Placement
