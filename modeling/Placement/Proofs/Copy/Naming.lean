import Placement.Proofs.Copy.Relabelling
import Placement.Proofs.DeviceVector.Shape
import Placement.Proofs.Operator.DeviceCopy

namespace Placement

theorem split_at_last {α : Type} {sep : α} {front front' back back' : List α} (last : sep ∉ back)
    (last' : sep ∉ back') (same : front ++ sep :: back = front' ++ sep :: back') :
    front = front' ∧ back = back' := by
  induction front generalizing front' with
  | nil =>
    cases front' with
    | nil => exact ⟨rfl, (List.cons.inj same).2⟩
    | cons a front' =>
      obtain ⟨rfl, rfl⟩ := List.cons.inj same
      simp at last
  | cons a front ih =>
    cases front' with
    | nil =>
      obtain ⟨rfl, rfl⟩ := List.cons.inj same
      simp at last'
    | cons b front' =>
      obtain ⟨rfl, rest⟩ := List.cons.inj same
      obtain ⟨rfl, rfl⟩ := ih rest
      exact ⟨rfl, rfl⟩

namespace CopySettings

def withSuffix (settings : CopySettings) (suffix : Bool) : CopySettings :=
  { settings with slotSuffix := suffix }

theorem copyName_withSuffix (settings : CopySettings) (producer consumer : String) (slot : Nat) :
    (settings.withSuffix true).copyName producer consumer slot =
      (settings.withSuffix false).copyName producer consumer slot ++ "_" ++ slot.repr := rfl

theorem copyName_withSuffix_inj (settings : CopySettings) {p c p' c' : String} {i j : Nat} :
    (settings.withSuffix true).copyName p c i = (settings.withSuffix true).copyName p' c' j ↔
      i = j ∧ (settings.withSuffix false).copyName p c i =
        (settings.withSuffix false).copyName p' c' j := by
  rw [copyName_withSuffix, copyName_withSuffix]
  constructor
  · intro same
    have lists := congrArg String.toList same
    simp only [String.append_assoc, String.toList_append, Nat.toList_repr] at lists
    obtain ⟨names, slots⟩ := split_at_last Nat.underscore_not_in_toDigits
      Nat.underscore_not_in_toDigits lists
    have numbers := congrArg (fun digits => Nat.ofDigitChars 10 digits 0) slots
    simp only [Nat.ofDigitChars_ten_toDigits] at numbers
    exact ⟨numbers, String.toList_injective names⟩
  · rintro ⟨rfl, names⟩
    rw [names]

end CopySettings

variable {P : Client} {g : Graph P}

theorem CopyReport.Serves.copy_eq {report : CopyReport P} {copy copy' consumer : NodeId}
    {slot : Nat} (serves : report.Serves g copy consumer slot)
    (serves' : report.Serves g copy' consumer slot) : copy = copy' := by
  obtain ⟨_, _, after, _, _, _, found, reads, _⟩ := serves
  obtain ⟨_, _, after', _, _, _, found', reads', _⟩ := serves'
  obtain rfl : after = after' := Option.some.inj (found.symm.trans found')
  exact congrArg Entry.node (Option.some.inj (reads.symm.trans reads'))

variable [CustomParsers P] {settings : CopySettings} {op : Operator P}

def Operator.KeepsName (op : Operator P) : Prop :=
  ∀ attrs made, op.Parses attrs ⟨made, .ok ()⟩ → made.name = attrs.name

/-- Each copy is on one slot, and no other slot, of any consumer, gives a copy its name. -/
structure CopyReport.NamedBySlot (report : CopyReport P) (g : Graph P) : Prop where
  place : ∀ copy ∈ report.copies, ∃! place : NodeId × Nat, report.Serves g copy place.1 place.2
  bySlot : ∀ copy ∈ report.copies, ∀ copy' ∈ report.copies, ∀ node node' consumer consumer'
    slot slot', report.graph.node? copy = some node → report.graph.node? copy' = some node' →
    report.Serves g copy consumer slot → report.Serves g copy' consumer' slot' →
    slot ≠ slot' → node.name ≠ node'.name
  intoOne : ∀ copy ∈ report.copies, ∀ copy' ∈ report.copies, ∀ node node' consumer slot slot',
    report.graph.node? copy = some node → report.graph.node? copy' = some node' →
    report.Serves g copy consumer slot → report.Serves g copy' consumer slot' →
    copy ≠ copy' → node.name ≠ node'.name

section

variable {s : Splicing P} {order : List NodeId} {devices : Array Device} {free : Nat}
  (spliced : Spliced g settings op (g.crossings op order) s)

include spliced

/-- A copy serves the slot of its crossing and no other. -/
theorem Spliced.crossing_of_serves {copy consumer : NodeId} {slot : Nat}
    (made : copy ∈ s.copies.toList)
    (serves : CopyReport.Serves ⟨settings.publish s.graph devices free, s.copies.toList⟩ g copy
      consumer slot) :
    ∃ k c, (g.crossings op order)[k]? = some c ∧ copy = g.copyId k ∧ c.consumer = consumer ∧
      c.slot = slot := by
  obtain ⟨k, position⟩ := List.getElem?_of_mem made
  obtain ⟨c, listed, rfl⟩ := spliced.crossing_of_copy position
  obtain ⟨before, entry, after, node, found, read, found', reads, copied, inputs⟩ := serves
  cases (spliced.rewritten.kept consumer before found).symm.trans found'
  cases (spliced.rewritten.made k c listed).symm.trans copied
  rw [Graph.inputs_rerouteNode, read, Option.map_some, Option.some.injEq] at reads
  rcases g.reroute_cases (g.crossings op order) consumer slot entry with
    ⟨_, kept⟩ | ⟨j, d, listed', rfl, rfl, rerouted⟩
  · obtain rfl : c.entry = entry := by simpa [Crossing.copyNode] using inputs
    rw [kept] at reads
    exact absurd (congrArg Entry.node reads)
      (Graph.ne_copyId (Graph.own_of_listed listed).2.producer k)
  · rw [rerouted] at reads
    obtain rfl : j = k := g.copyId_injective (congrArg Entry.node reads)
    obtain rfl : c = d := Option.some.inj (listed.symm.trans listed')
    exact ⟨j, c, listed, rfl, rfl, rfl⟩

theorem Spliced.name_of_serves (keeps : op.KeepsName) {copy consumer : NodeId} {slot : Nat}
    {node : Node P} (made : copy ∈ s.copies.toList) (found : s.graph.node? copy = some node)
    (serves : CopyReport.Serves ⟨settings.publish s.graph devices free, s.copies.toList⟩ g copy
      consumer slot) : ∃ p c, node.name = settings.copyName p c slot := by
  obtain ⟨k, c, listed, rfl, _, rfl⟩ := spliced.crossing_of_serves made serves
  cases (spliced.rewritten.made k c listed).symm.trans found
  exact ⟨_, _, keeps _ _ (spliced.parses (List.mem_of_getElem? listed))⟩

end

section

variable {s : Splicing P} {order : List NodeId} {devices : Array Device} {free : Nat}
  (spliced : Spliced g (settings.withSuffix true) op (g.crossings op order) s)
  (keeps : op.KeepsName)

include spliced keeps

theorem Spliced.name_ne {copy copy' consumer consumer' : NodeId} {slot slot' : Nat}
    {node node' : Node P} (made : copy ∈ s.copies.toList) (made' : copy' ∈ s.copies.toList)
    (found : s.graph.node? copy = some node) (found' : s.graph.node? copy' = some node')
    (serves : CopyReport.Serves ⟨(settings.withSuffix true).publish s.graph devices free,
      s.copies.toList⟩ g copy consumer slot)
    (serves' : CopyReport.Serves ⟨(settings.withSuffix true).publish s.graph devices free,
      s.copies.toList⟩ g copy' consumer' slot')
    (other : slot ≠ slot') : node.name ≠ node'.name := by
  obtain ⟨p, c, name⟩ := spliced.name_of_serves keeps made found serves
  obtain ⟨p', c', name'⟩ := spliced.name_of_serves keeps made' found' serves'
  rw [name, name']
  intro equal
  exact other (settings.copyName_withSuffix_inj.mp equal).1

theorem Spliced.namedBySlot (walked : g.postOrder = .ok order) :
    CopyReport.NamedBySlot ⟨(settings.withSuffix true).publish s.graph devices free,
      s.copies.toList⟩ g := by
  constructor
  · intro copy made
    obtain ⟨k, position⟩ := List.getElem?_of_mem made
    obtain ⟨c, listed, rfl⟩ := spliced.crossing_of_copy position
    refine ⟨(c.consumer, c.slot), spliced.serves walked listed devices free, ?_⟩
    rintro ⟨consumer, slot⟩ serves
    obtain ⟨j, d, listed', same, rfl, rfl⟩ := spliced.crossing_of_serves made serves
    obtain rfl : k = j := g.copyId_injective same
    obtain rfl : c = d := Option.some.inj (listed.symm.trans listed')
    rfl
  · intro copy made copy' made' node node' consumer consumer' slot slot' found found' serves serves'
    exact spliced.name_ne keeps made made' found found' serves serves'
  · intro copy made copy' made' node node' consumer slot slot' found found' serves serves' other
    refine spliced.name_ne keeps made made' found found' serves serves' ?_
    rintro rfl
    exact other (serves.copy_eq serves')

end

def Node.suffixed (node : Node P) (slot : Nat) : Node P :=
  { node with attrs := { node.attrs with name := node.name ++ "_" ++ slot.repr } }

/-- The second report is the first one, but that every copy has the slot it serves behind its
name. -/
structure CopyReport.Suffixed (report : CopyReport P) (g : Graph P) (report' : CopyReport P) :
    Prop where
  copies : report'.copies = report.copies
  arena : report'.graph.arena = report.graph.arena
  size : report'.graph.nodes.size = report.graph.nodes.size
  outputs : report'.graph.outputs = report.graph.outputs
  attrs : report'.graph.attrs = report.graph.attrs
  kept : ∀ id, id ∉ report.copies → report'.graph.node? id = report.graph.node? id
  renamed : ∀ copy ∈ report.copies, ∃ node consumer slot, report.Serves g copy consumer slot ∧
    report.graph.node? copy = some node ∧ report'.graph.node? copy = some (node.suffixed slot)

section

variable (known : op.parser = none ∨ op.parser = some .deviceCopy)

include known

/-- A copy starts without texts, so neither of these parsers can reject it. -/
theorem Crossing.parses_requested (c : Crossing P) :
    op.Parses (c.requested settings op) ⟨{ c.requested settings op with
      payload := op.parser.map (fun _ => .copyTo c.consumerNode.device) }, .ok ()⟩ := by
  rcases known with absent | builtin
  · simp only [Operator.Parses, absent]
    rfl
  · have fits : (c.requested settings op).DestinationFits := .inl (by simp [requested])
    simp only [Operator.Parses, builtin, Parsing.deviceCopy_of_fits fits]
    rfl

theorem Crossing.copyNode_eq (c : Crossing P) :
    c.copyNode settings op = {
      attrs := { c.requested settings op with
        payload := op.parser.map (fun _ => .copyTo c.consumerNode.device) }
      inputs := #[c.entry] } := by
  rw [copyNode, (Operator.parses_iff _).mp (c.parses_requested known)]

theorem Crossing.copyNode_withSuffix (c : Crossing P) :
    c.copyNode (settings.withSuffix true) op =
      (c.copyNode (settings.withSuffix false) op).suffixed c.slot := by
  rw [c.copyNode_eq known, c.copyNode_eq known]
  rfl

theorem Crossing.unnamed_copyNode (c : Crossing P) (suffix suffix' : Bool) :
    (c.copyNode (settings.withSuffix suffix) op).unnamed =
      (c.copyNode (settings.withSuffix suffix') op).unnamed := by
  rw [c.copyNode_eq known, c.copyNode_eq known]
  rfl

end

namespace Rewritten

variable {crossings : List (Crossing P)} {after after' : Graph P} {settings' : CopySettings}

theorem node?_eq_none (rewritten : Rewritten g settings op crossings after) {id : NodeId}
    (missing : g.node? id = none) (other : id ∉ g.copyIds crossings) : after.node? id = none := by
  rw [← Option.not_isSome_iff_eq_none, ← Graph.has_iff_isSome_node?]
  rintro ⟨arena, inside⟩
  rw [rewritten.arena] at arena
  rw [rewritten.size] at inside
  have beyond : g.nodes.size ≤ id.index := by
    apply Nat.le_of_not_lt
    intro less
    have has := (g.has_iff_isSome_node? id).mp ⟨arena, less⟩
    simp [missing] at has
  refine other ((Graph.mem_copyIds_iff id).mpr ⟨id.index - g.nodes.size, _,
    List.getElem?_eq_getElem (by omega), ?_⟩)
  rw [Graph.copyId, Graph.idAt, Nat.add_sub_cancel' beyond, ← arena]

theorem node?_of_not_copy (rewritten : Rewritten g settings op crossings after)
    (rewritten' : Rewritten g settings' op crossings after') {id : NodeId}
    (other : id ∉ g.copyIds crossings) : after'.node? id = after.node? id := by
  cases found : g.node? id with
  | none => rw [rewritten.node?_eq_none found other, rewritten'.node?_eq_none found other]
  | some node => rw [rewritten.kept id node found, rewritten'.kept id node found]

theorem sameShape {suffix suffix' : Bool} (known : op.parser = none ∨ op.parser = some .deviceCopy)
    (rewritten : Rewritten g (settings.withSuffix suffix) op crossings after)
    (rewritten' : Rewritten g (settings.withSuffix suffix') op crossings after') :
    after.SameShape after' := by
  constructor
  · intro id
    by_cases copied : id ∈ g.copyIds crossings
    · obtain ⟨k, c, listed, rfl⟩ := (Graph.mem_copyIds_iff id).mp copied
      rw [rewritten.made k c listed, rewritten'.made k c listed]
      exact congrArg some (c.unnamed_copyNode known suffix' suffix)
    · rw [rewritten.node?_of_not_copy rewritten' copied]
  · intro e
    rw [rewritten'.outputs, rewritten.outputs]

end Rewritten

section

variable (known : op.parser = none ∨ op.parser = some .deviceCopy) {suffix : Bool}
  {s : Splicing P} (splicing : g.splice (settings.withSuffix suffix) op = .ok s)

include known splicing

theorem Graph.exists_splice_withSuffix (suffix' : Bool) :
    ∃ s', g.splice (settings.withSuffix suffix') op = .ok s' := by
  obtain ⟨order, walked, _⟩ := spliced_of_splice splicing
  exact (exists_splice_iff walked).mpr (fun c _ => ⟨_, c.parses_requested known⟩)

theorem DeviceVector.ofGraph_withSuffix {suffix' : Bool} {s' : Splicing P} {devices : Array Device}
    (splicing' : g.splice (settings.withSuffix suffix') op = .ok s')
    (placed : ofGraph s.graph = .ok devices) : ofGraph s'.graph = .ok devices := by
  obtain ⟨order, walked, spliced⟩ := Graph.spliced_of_splice splicing
  obtain ⟨again, walked', spliced'⟩ := Graph.spliced_of_splice splicing'
  cases walked.symm.trans walked'
  refine (spliced.rewritten.sameShape known spliced'.rewritten).devices_eq ?_ placed
  rw [spliced'.rewritten.outputs, spliced.rewritten.outputs]

end

theorem Spliced.suffixed {s s' : Splicing P} {order : List NodeId}
    (known : op.parser = none ∨ op.parser = some .deviceCopy) (walked : g.postOrder = .ok order)
    (spliced : Spliced g (settings.withSuffix false) op (g.crossings op order) s)
    (spliced' : Spliced g (settings.withSuffix true) op (g.crossings op order) s')
    (devices : Array Device) (free : Nat) :
    CopyReport.Suffixed ⟨(settings.withSuffix false).publish s.graph devices free, s.copies.toList⟩
      g ⟨(settings.withSuffix true).publish s'.graph devices free, s'.copies.toList⟩ := by
  have before := spliced.rewritten
  have after := spliced'.rewritten
  constructor
  · exact spliced'.copies.trans spliced.copies.symm
  · exact after.arena.trans before.arena.symm
  · exact after.size.trans before.size.symm
  · exact after.outputs.trans before.outputs.symm
  · simp only [CopySettings.publish, after.attrs, before.attrs]
    rfl
  · intro id other
    have other : id ∉ s.copies.toList := other
    rw [spliced.copies] at other
    exact before.node?_of_not_copy after other
  · intro copy made
    obtain ⟨k, position⟩ := List.getElem?_of_mem made
    obtain ⟨c, listed, rfl⟩ := spliced.crossing_of_copy position
    refine ⟨_, _, _, spliced.serves walked listed devices free, before.made k c listed, ?_⟩
    rw [← c.copyNode_withSuffix known]
    exact after.made k c listed

/-- What the slot suffix does to the names of copies, and to nothing else. -/
structure SlotSuffixes (settings : CopySettings) (g : Graph P) (ops : OpRegistry P)
    (free : Nat) : Prop where
  names : ∀ p c p' c' i j,
    (settings.withSuffix true).copyName p c i = (settings.withSuffix true).copyName p' c' j ↔
      i = j ∧ (settings.withSuffix false).copyName p c i =
        (settings.withSuffix false).copyName p' c' j
  apart : ∀ report, (∀ op, settings.findCopyOp ops = .ok op → op.KeepsName) →
    ((settings.withSuffix true).insertCopies g ops free).result = .ok report →
    report.NamedBySlot g
  succeeds : (∀ op, settings.findCopyOp ops = .ok op →
      op.parser = none ∨ op.parser = some .deviceCopy) →
    ((∃ report, ((settings.withSuffix false).insertCopies g ops free).result = .ok report) ↔
      ∃ report', ((settings.withSuffix true).insertCopies g ops free).result = .ok report')
  differs : (∀ op, settings.findCopyOp ops = .ok op →
      op.parser = none ∨ op.parser = some .deviceCopy) →
    ∀ report report', ((settings.withSuffix false).insertCopies g ops free).result = .ok report →
      ((settings.withSuffix true).insertCopies g ops free).result = .ok report' →
      report.Suffixed g report'

section

variable {ops : OpRegistry P} {free : Nat}
  (known : ∀ op, settings.findCopyOp ops = .ok op →
    op.parser = none ∨ op.parser = some .deviceCopy)

include known

theorem CopySettings.exists_report_withSuffix {suffix : Bool} {report : CopyReport P}
    (succeeded : ((settings.withSuffix suffix).insertCopies g ops free).result = .ok report)
    (suffix' : Bool) :
    ∃ report', ((settings.withSuffix suffix').insertCopies g ops free).result = .ok report' := by
  obtain ⟨op, s, devices, chosen, splicing, placed, _⟩ := insertCopies_eq_ok succeeded
  obtain ⟨s', splicing'⟩ := Graph.exists_splice_withSuffix (known op chosen) splicing suffix'
  have placed' := DeviceVector.ofGraph_withSuffix (known op chosen) splicing splicing' placed
  have chosen' : (settings.withSuffix suffix').findCopyOp ops = .ok op := chosen
  rw [insertCopies_of_splice chosen' splicing' placed']
  exact ⟨_, rfl⟩

theorem CopyReport.suffixed_withSuffix {report report' : CopyReport P}
    (succeeded : ((settings.withSuffix false).insertCopies g ops free).result = .ok report)
    (succeeded' : ((settings.withSuffix true).insertCopies g ops free).result = .ok report') :
    report.Suffixed g report' := by
  obtain ⟨op, s, devices, chosen, splicing, placed, rfl⟩ :=
    CopySettings.insertCopies_eq_ok succeeded
  obtain ⟨again, s', devices', chosen', splicing', placed', rfl⟩ :=
    CopySettings.insertCopies_eq_ok succeeded'
  cases chosen.symm.trans chosen'
  cases (DeviceVector.ofGraph_withSuffix (known op chosen) splicing splicing' placed).symm.trans
    placed'
  obtain ⟨order, walked, spliced⟩ := Graph.spliced_of_splice splicing
  obtain ⟨same, walked', spliced'⟩ := Graph.spliced_of_splice splicing'
  cases walked.symm.trans walked'
  exact spliced.suffixed (known op chosen) walked spliced' devices free

end

/-- The slot suffix keeps the names of copies for different slots apart, whatever the names of the
nodes, and changes nothing but names. -/
theorem copyNames_bySlot (settings : CopySettings) (g : Graph P) (ops : OpRegistry P)
    (free : Nat) : SlotSuffixes settings g ops free := by
  constructor
  · exact fun p c p' c' i j => settings.copyName_withSuffix_inj
  · intro report keeps succeeded
    obtain ⟨op, s, devices, chosen, splicing, _, rfl⟩ :=
      CopySettings.insertCopies_eq_ok succeeded
    obtain ⟨order, walked, spliced⟩ := Graph.spliced_of_splice splicing
    exact spliced.namedBySlot (keeps op chosen) walked
  · intro known
    constructor
    · exact fun ⟨_, succeeded⟩ => CopySettings.exists_report_withSuffix known succeeded true
    · exact fun ⟨_, succeeded⟩ => CopySettings.exists_report_withSuffix known succeeded false
  · exact fun known report report' => CopyReport.suffixed_withSuffix known

theorem copyNames_bySlot_square : ∃ report',
    (CopySettings.insertCopies { slotSuffix := true } squareGraph .builtin 0).result =
      .ok report' ∧ report'.copies = [⟨0, 2⟩, ⟨0, 3⟩] ∧ report'.NamedBySlot squareGraph := by
  have suffixes := copyNames_bySlot {} squareGraph .builtin 0
  have known : ∀ op, CopySettings.findCopyOp {} (.builtin : OpRegistry .plain) = .ok op →
      op.parser = none ∨ op.parser = some .deviceCopy := by
    intro op chosen
    cases CopySettings.findCopyOp_builtin.symm.trans chosen
    exact .inr rfl
  have keeps : ∀ op, CopySettings.findCopyOp {} (.builtin : OpRegistry .plain) = .ok op →
      op.KeepsName := by
    intro op chosen attrs made accepted
    obtain ⟨payload, rfl⟩ := Operator.attrs_of_accepted (known op chosen) accepted
    rfl
  obtain ⟨trace, spliced⟩ := splice_squareGraph
  have succeeded := congrArg Outcome.result (CopySettings.insertCopies_of_splice
    CopySettings.findCopyOp_builtin spliced ofGraph_squareCopied 0)
  obtain ⟨report', succeeded'⟩ := (suffixes.succeeds known).mp ⟨_, succeeded⟩
  have suffixed := suffixes.differs known _ report' succeeded succeeded'
  exact ⟨report', succeeded', suffixed.copies, suffixes.apart report' keeps succeeded'⟩

end Placement
