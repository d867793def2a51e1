import Placement.Proofs.Copy.Insertion

/-! When copy insertion succeeds, and what it reports otherwise. The slots and the number of
entries are checked only on the graph with the copies in it, and yet all conditions are on the
graph as it is given: a copy reads what its consumer read, and adds one entry. -/
namespace Placement

variable {P : Client} {g h : Graph P} {settings : CopySettings} {op : Operator P}
  {order order' : List NodeId}

/-- The error is that of an entry which the graph reads and which does not exist. -/
def Graph.InvalidRead (g : Graph P) (error : GraphError) : Prop :=
  ∃ e producer, g.Reads e ∧ g.node? e.node = some producer ∧ producer.numOutputs ≤ e.index ∧
    error = .invalidEntry producer.name e.index producer.numOutputs

/-- The place where numbering stops is an entry that is read, or a total that is too large. -/
theorem Graph.Unnumberable.cases {error : GraphError} (walked : g.postOrder = .ok order)
    (stops : g.Unnumberable order error) :
    g.InvalidRead error ∨
      UInt32.size ≤ g.entryCount order ∧ ∃ name, error = .tooManyEntries name := by
  cases stops with
  | input front back id node _ cut found _ _ invalid =>
    obtain ⟨e, input, producer, present, beyond, rfl⟩ := invalid.exists_mem
    have read : g.Reads e :=
      reads_of_input walked (by simp [cut]) found (Array.mem_toList_iff.mp input)
    exact .inl ⟨e, producer, read, present, beyond, rfl⟩
  | entries front back id node cut _ _ _ full =>
    have whole : order = (front ++ [id]) ++ back := by simp [cut]
    refine .inr ⟨?_, node.name, rfl⟩
    rw [whole, g.entryCount_append]
    omega
  | output _ _ _ invalid =>
    obtain ⟨e, listed, producer, present, beyond, rfl⟩ := invalid.exists_mem
    exact .inl ⟨e, producer, .inl (Array.mem_toList_iff.mp listed), present, beyond, rfl⟩

variable [CustomParsers P]

def Operator.KeepsOperator (op : Operator P) : Prop :=
  ∀ attrs made, op.Parses attrs ⟨made, .ok ()⟩ → made.op = attrs.op

theorem Operator.keepsOperator_of_parser {op : Operator P}
    (known : op.parser = none ∨ op.parser = some .deviceCopy) : op.KeepsOperator := by
  intro attrs made accepted
  obtain ⟨payload, rfl⟩ := attrs_of_accepted known accepted
  rfl

namespace Reordered

variable (reordered : Reordered g settings op order h order')

include reordered

/-- What the rewritten graph reads was read before, but for the copies themselves. -/
theorem reads_before {e : Entry} (read : h.Reads e) : g.Reads e ∨
    ∃ k c, (g.crossings op order)[k]? = some c ∧ e = { node := g.copyId k } := by
  rcases read with output | ⟨id, node, reached, found, input⟩
  · exact .inl (.inl (reordered.rewritten.outputs ▸ output))
  · have member := (Graph.mem_postOrder_iff reordered.after id).mpr reached
    rcases reordered.cases_of_node member found with
      ⟨before, old, found', rfl⟩ | ⟨k, c, listed, rfl, rfl⟩
    · obtain ⟨slot, reads⟩ := Array.getElem?_of_mem input
      rw [Graph.inputs_rerouteNode, Option.map_eq_some_iff] at reads
      obtain ⟨entry, reads, rfl⟩ := reads
      rcases g.reroute_cases (g.crossings op order) id slot entry with
        ⟨_, kept⟩ | ⟨k, c, listed, _, _, rerouted⟩
      · rw [kept]
        exact .inl (Graph.reads_of_input reordered.before old found' (Array.mem_of_getElem? reads))
      · exact .inr ⟨k, c, listed, rerouted⟩
    · obtain rfl : e = c.entry := by simpa [Crossing.copyNode] using input
      obtain ⟨consumer, own⟩ := Graph.own_of_listed listed
      exact .inl (Graph.reads_of_input reordered.before consumer own.consumer
        (Array.mem_of_getElem? own.reads))

variable (single : ∀ id ∈ g.copyIds (g.crossings op order), h.width id = 1)

include single

theorem validEntry_copy {k : Nat} {c : Crossing P}
    (listed : (g.crossings op order)[k]? = some c) : h.ValidEntry { node := g.copyId k } := by
  have made := reordered.rewritten.made k c listed
  have one := single _ ((Graph.mem_copyIds_iff _).mpr ⟨k, c, listed, rfl⟩)
  rw [Graph.width_of_node? made] at one
  refine ⟨_, made, UInt32.lt_iff_toNat_lt.mpr ?_⟩
  rw [one]
  exact Nat.zero_lt_one

theorem total_eq : h.entryCount order' =
    g.entryCount order + (g.crossings op order).length := by
  rw [reordered.entryCount_eq, Graph.entryCount_of_single single]
  simp [Graph.copyIds]

theorem numberable_after_iff : h.Numberable order' ↔
    (∀ e, g.Reads e → g.ValidEntry e) ∧
      g.entryCount order + (g.crossings op order).length < UInt32.size := by
  rw [Graph.numberable_iff reordered.after, reordered.total_eq single]
  refine and_congr_left (fun _ => ⟨fun valid e read => ?_, fun valid e read => ?_⟩)
  · obtain ⟨producer, found⟩ := Graph.Reads.producer reordered.before read
    exact (reordered.rewritten.validEntry_iff found).mp (valid e (reordered.reads_after read))
  · rcases reordered.reads_before read with before | ⟨k, c, listed, rfl⟩
    · obtain ⟨producer, found⟩ := Graph.Reads.producer reordered.before before
      exact (reordered.rewritten.validEntry_iff found).mpr (valid e before)
    · exact reordered.validEntry_copy single listed

theorem invalidRead_before {error : GraphError} (invalid : h.InvalidRead error) :
    g.InvalidRead error := by
  obtain ⟨e, producer, read, found, beyond, rfl⟩ := invalid
  rcases reordered.reads_before read with before | ⟨k, c, listed, rfl⟩
  · obtain ⟨producer', found'⟩ := Graph.Reads.producer reordered.before before
    obtain rfl := Option.some.inj
      (found.symm.trans (reordered.rewritten.kept e.node producer' found'))
    exact ⟨e, producer', before, found', beyond, rfl⟩
  · exact absurd (reordered.validEntry_copy single listed) (Graph.not_validEntry found beyond)

end Reordered

theorem Spliced.width_copy {s : Splicing P}
    (spliced : Spliced g settings op (g.crossings op order) s) (keeps : op.KeepsOperator)
    (one : op.numOutputs = 1) :
    ∀ id ∈ g.copyIds (g.crossings op order), s.graph.width id = 1 := by
  intro id member
  obtain ⟨k, c, listed, rfl⟩ := (Graph.mem_copyIds_iff id).mp member
  have own : (c.copyNode settings op).attrs.op = some op :=
    keeps _ _ (spliced.parses (List.mem_of_getElem? listed))
  rw [Graph.width_of_node? (spliced.rewritten.made k c listed), Node.numOutputs,
    NodeAttrs.numOutputs, own]
  exact congrArg UInt32.toNat one

section

variable {crossings front : List (Crossing P)} {c : Crossing P} {error : OpError}

omit [CustomParsers P] in
theorem Splicing.toList_record (s : Splicing P) (events : List (Event P)) :
    (s.record events).trace.toList = s.trace.toList ++ events := by
  simp [record]

theorem Crossing.foldlM_realize_ok
    (accepted : ∀ c ∈ crossings, op.Accepts (c.requested settings op)) (s : Splicing P) :
    ∃ final, crossings.foldlM (Crossing.realize settings op) s = .ok final ∧
      final.trace.toList = s.trace.toList ++ crossings.flatMap (Crossing.happens settings op) := by
  induction crossings generalizing s with
  | nil => exact ⟨s, rfl, by simp⟩
  | cons c crossings ih =>
    rw [List.foldlM_cons, Crossing.realize_of_accepted (accepted c (by simp))]
    obtain ⟨final, folded, trace⟩ := ih (fun d member => accepted d (by simp [member])) _
    refine ⟨final, folded, trace.trans ?_⟩
    rw [List.flatMap_cons, ← List.append_assoc, ← s.toList_record]
    rfl

theorem Crossing.foldlM_realize_error (back : List (Crossing P))
    (accepted : ∀ d ∈ front, op.Accepts (d.requested settings op))
    (rejected : op.Rejects (c.requested settings op) error) (s : Splicing P) :
    ∃ trace, (front ++ c :: back).foldlM (Crossing.realize settings op) s =
        .error ⟨trace, .reported (.op error)⟩ ∧
      trace.toList =
        s.trace.toList ++ (front ++ [c]).flatMap (Crossing.happens settings op) := by
  obtain ⟨middle, folded, trace⟩ := Crossing.foldlM_realize_ok accepted s
  rw [List.foldlM_append, folded]
  refine ⟨(middle.record (c.happens settings op)).trace, ?_, ?_⟩
  · simp only [bind, Except.bind, List.foldlM_cons, Crossing.realize_of_rejected rejected]
  · rw [middle.toList_record, trace, List.flatMap_append, List.flatMap_singleton,
      List.append_assoc]

end

variable {ops : OpRegistry P}

section

variable {s : Splicing P} {interrupted : Interrupted P} {fault : Fault GraphError}

theorem CopySettings.outcome_of_unfound {error : OpError}
    (failed : settings.findCopyOp ops = .error error) (g : Graph P) (free : Nat) :
    settings.insertCopies g ops free = ⟨[], 0, .report (.op error)⟩ := by
  simp [insertCopies, failed, Run.ofChecked, bind, Run.bind, Checked.report]

theorem CopySettings.outcome_of_interrupted (chosen : settings.findCopyOp ops = .ok op)
    (stopped : g.splice settings op = .error interrupted) (free : Nat) :
    settings.insertCopies g ops free =
      ⟨interrupted.trace.toList, 0, .error interrupted.fault⟩ := by
  simp [insertCopies, splice, chosen, stopped, Run.ofChecked, bind, Run.bind, Run.emit]

theorem CopySettings.outcome_of_unplaced (chosen : settings.findCopyOp ops = .ok op)
    (spliced : g.splice settings op = .ok s) (failed : DeviceVector.ofGraph s.graph = .error fault)
    (free : Nat) :
    settings.insertCopies g ops free = ⟨s.trace.toList, 0, .error (fault.map .graph)⟩ := by
  simp [insertCopies, splice, chosen, spliced, failed, Run.ofChecked, bind, Run.bind, Run.emit,
    pure, Run.pure]

theorem CopySettings.insertCopies_of_unfound {error : OpError}
    (failed : settings.findCopyOp ops = .error error) (g : Graph P) (free : Nat) :
    (settings.insertCopies g ops free).result = .report (.op error) :=
  congrArg Outcome.result (outcome_of_unfound failed g free)

theorem CopySettings.insertCopies_of_interrupted (chosen : settings.findCopyOp ops = .ok op)
    (stopped : g.splice settings op = .error interrupted) (free : Nat) :
    (settings.insertCopies g ops free).result = .error interrupted.fault :=
  congrArg Outcome.result (outcome_of_interrupted chosen stopped free)

theorem CopySettings.insertCopies_of_unplaced (chosen : settings.findCopyOp ops = .ok op)
    (spliced : g.splice settings op = .ok s) (failed : DeviceVector.ofGraph s.graph = .error fault)
    (free : Nat) : (settings.insertCopies g ops free).result = .error (fault.map .graph) :=
  congrArg Outcome.result (outcome_of_unplaced chosen spliced failed free)

end

structure Spliceable (settings : CopySettings) (g : Graph P) (ops : OpRegistry P)
    (op : Operator P) (order : List NodeId) : Prop where
  registered : ops.find? settings.copyOp = some op
  unary : op.Unary
  walked : g.postOrder = .ok order
  accepted : ∀ c ∈ g.crossings op order, op.Accepts (c.requested settings op)

structure Insertable (settings : CopySettings) (g : Graph P) (ops : OpRegistry P)
    (op : Operator P) (order : List NodeId) : Prop extends Spliceable settings g ops op order where
  valid : ∀ e, g.Reads e → g.ValidEntry e
  room : g.entryCount order + (g.crossings op order).length < UInt32.size

theorem Spliceable.reordered (spliceable : Spliceable settings g ops op order) :
    ∃ s order', settings.findCopyOp ops = .ok op ∧ g.splice settings op = .ok s ∧
      Spliced g settings op (g.crossings op order) s ∧
      Reordered g settings op order s.graph order' := by
  have chosen := (CopySettings.findCopyOp_eq_ok_iff op).mpr
    ⟨spliceable.registered, spliceable.unary⟩
  obtain ⟨s, folded, _⟩ := Crossing.foldlM_realize_ok spliceable.accepted (.start g)
  rw [← Graph.splice_eq_foldlM spliceable.walked] at folded
  obtain ⟨same, order', spliced, reordered⟩ := Graph.reordered_of_splice folded
  cases spliceable.walked.symm.trans reordered.before
  exact ⟨s, order', chosen, folded, spliced, reordered⟩

/-- The error is that of numbering the graph with the copies in it, and the graph as it is given
has the fault: it reads an entry that does not exist, or has too many with those of the copies. -/
structure NumberingError (settings : CopySettings) (g : Graph P) (op : Operator P)
    (order : List NodeId) (error : GraphError) : Prop where
  stops : ∃ s order', g.splice settings op = .ok s ∧ s.graph.postOrder = .ok order' ∧
    s.graph.Unnumberable order' error
  cause : g.InvalidRead error ∨
    UInt32.size ≤ g.entryCount order + (g.crossings op order).length ∧
      ∃ name, error = .tooManyEntries name

/-- What copy insertion results in, told from the graph, the settings and the registry. -/
structure InsertionOutcome (settings : CopySettings) (g : Graph P) (ops : OpRegistry P)
    (result : Checked PassError (CopyReport P)) : Prop where
  succeeds : (∃ report, result = .ok report) ↔ ∃ op order, Insertable settings g ops op order
  unregistered : ops.find? settings.copyOp = none →
    result = .report (.op (.notRegistered settings.copyOp))
  unfit : ∀ op, ops.find? settings.copyOp = some op → ¬ op.Unary →
    result = .report (.op (.invalidCopyOp op.name op.numInputs op.numOutputs))
  unordered : ∀ op fault, ops.find? settings.copyOp = some op → op.Unary →
    g.postOrder = .error fault → result = .error (fault.map .graph)
  rejected : ∀ op order front c back error, ops.find? settings.copyOp = some op → op.Unary →
    g.postOrder = .ok order → g.crossings op order = front ++ c :: back →
    (∀ d ∈ front, op.Accepts (d.requested settings op)) →
    op.Rejects (c.requested settings op) error → result = .report (.op error)
  unnumbered : ∀ op order, Spliceable settings g ops op order →
    ¬ Insertable settings g ops op order → ∃ error, result = .report (.graph error) ∧
      NumberingError settings g op order error

theorem CopySettings.insertable_of_insertCopies {free : Nat} {report : CopyReport P}
    (keeps : ∀ op, ops.find? settings.copyOp = some op → op.KeepsOperator)
    (succeeded : (settings.insertCopies g ops free).result = .ok report) :
    ∃ op order, Insertable settings g ops op order := by
  obtain ⟨op, s, devices, chosen, spliced, placed, _⟩ := insertCopies_eq_ok succeeded
  obtain ⟨registered, unary⟩ := (findCopyOp_eq_ok_iff op).mp chosen
  obtain ⟨order, order', spliced, reordered⟩ := Graph.reordered_of_splice spliced
  obtain ⟨n, numbered⟩ := DeviceVector.numbered_of_ofGraph placed
  have single := spliced.width_copy (keeps op registered) unary.1
  obtain ⟨valid, room⟩ := (reordered.numberable_after_iff single).mp
    (Numbering.numberable_of_ofGraph reordered.after numbered)
  exact ⟨op, order, ⟨registered, unary, reordered.before, spliced.accepted⟩, valid, room⟩

theorem Insertable.insertCopies_ok (insertable : Insertable settings g ops op order)
    (keeps : op.KeepsOperator)
    (few : order.length + (g.crossings op order).length < UInt32.size) (free : Nat) :
    ∃ report, (settings.insertCopies g ops free).result = .ok report := by
  obtain ⟨s, order', chosen, splicing, spliced, reordered⟩ := insertable.reordered
  have single := spliced.width_copy keeps insertable.unary.1
  have numberable := (reordered.numberable_after_iff single).mpr
    ⟨insertable.valid, insertable.room⟩
  obtain ⟨n, numbered⟩ := Numbering.ofGraph_ok_of_numberable reordered.after numberable
  have few' : order'.length < UInt32.size := by
    simpa [reordered.perm.length_eq, Graph.copyIds] using few
  have placed := DeviceVector.ofGraph_eq_placement reordered.after numbered few'
  rw [CopySettings.insertCopies_of_splice chosen splicing placed]
  exact ⟨_, rfl⟩

theorem Spliceable.unnumbered (spliceable : Spliceable settings g ops op order)
    (keeps : op.KeepsOperator) (refused : ¬ Insertable settings g ops op order) (free : Nat) :
    ∃ error, (settings.insertCopies g ops free).result = .report (.graph error) ∧
      NumberingError settings g op order error := by
  obtain ⟨s, order', chosen, splicing, spliced, reordered⟩ := spliceable.reordered
  have single := spliced.width_copy keeps spliceable.unary.1
  cases numbered : Numbering.ofGraph s.graph with
  | ok n =>
    obtain ⟨valid, room⟩ := (reordered.numberable_after_iff single).mp
      (Numbering.numberable_of_ofGraph reordered.after numbered)
    exact absurd ⟨spliceable, valid, room⟩ refused
  | error fault =>
    obtain ⟨error, rfl, stops⟩ := Numbering.unnumberable_of_ofGraph reordered.after numbered
    have failed : DeviceVector.ofGraph s.graph = .error (.reported error) := by
      simp [DeviceVector.ofGraph, numbered, bind, Except.bind]
    refine ⟨error, CopySettings.insertCopies_of_unplaced chosen splicing failed free,
      ⟨s, order', splicing, reordered.after, stops⟩, ?_⟩
    rw [← reordered.total_eq single]
    exact (stops.cases reordered.after).imp_left (reordered.invalidRead_before single)

/-- Copy insertion succeeds exactly when the graph, the settings and the registry allow it, and
otherwise reports the first thing that stands in its way. -/
theorem insertCopies_outcome
    (keeps : ∀ op, ops.find? settings.copyOp = some op → op.KeepsOperator)
    (few : ∀ op order, ops.find? settings.copyOp = some op → g.postOrder = .ok order →
      order.length + (g.crossings op order).length < UInt32.size) (free : Nat) :
    InsertionOutcome settings g ops (settings.insertCopies g ops free).result := by
  constructor
  · constructor
    · rintro ⟨report, succeeded⟩
      exact CopySettings.insertable_of_insertCopies keeps succeeded
    · rintro ⟨op, order, insertable⟩
      exact insertable.insertCopies_ok (keeps op insertable.registered)
        (few op order insertable.registered insertable.walked) free
  · intro missing
    exact CopySettings.insertCopies_of_unfound (CopySettings.findCopyOp_of_missing missing) g free
  · intro op found unfit
    rw [← Operator.canCopy_iff] at unfit
    have failed := CopySettings.findCopyOp_of_found found
    rw [if_neg unfit] at failed
    exact CopySettings.insertCopies_of_unfound failed g free
  · intro op fault found unary failed
    have chosen := (CopySettings.findCopyOp_eq_ok_iff op).mpr ⟨found, unary⟩
    have stopped : g.splice settings op = .error ⟨#[], fault.map .graph⟩ := by
      simp only [Graph.splice, failed, Checked.within_error]
      rfl
    exact CopySettings.insertCopies_of_interrupted chosen stopped free
  · intro op order front c back error found unary walked cut accepted verdict
    have chosen := (CopySettings.findCopyOp_eq_ok_iff op).mpr ⟨found, unary⟩
    obtain ⟨trace, stopped, _⟩ := Crossing.foldlM_realize_error back accepted verdict (.start g)
    rw [← cut, ← Graph.splice_eq_foldlM walked] at stopped
    exact CopySettings.insertCopies_of_interrupted chosen stopped free
  · intro op order spliceable refused
    exact spliceable.unnumbered (keeps op spliceable.registered) refused free

def looseGraph : Graph .plain where
  arena := 0
  nodes := #[
    { attrs := { name := "x", device := ⟨0⟩ } },
    { attrs := { name := "sq", op := some { name := "mul" }, device := ⟨1⟩ }
      inputs := #[{ node := ⟨0, 0⟩ }, { node := ⟨0, 0⟩, index := 3 }] }]
  outputs := #[{ node := ⟨0, 1⟩ }]

theorem insertCopies_outcome_square :
    (∃ report, (CopySettings.insertCopies {} squareGraph .builtin 0).result = .ok report) ∧
      ∃ error, (CopySettings.insertCopies {} looseGraph .builtin 0).result =
        .report (.graph error) ∧ looseGraph.InvalidRead error := by
  obtain ⟨registered, unary⟩ :=
    (CopySettings.findCopyOp_eq_ok_iff _).mp CopySettings.findCopyOp_builtin
  have spliceable : ∀ (g : Graph .plain) order, g.postOrder = .ok order →
      Spliceable {} g .builtin .deviceCopy order := by
    intro g order walked
    refine ⟨registered, unary, walked, fun c _ => ?_⟩
    exact ⟨{ c.requested {} .deviceCopy with payload := some (.copyTo c.consumerNode.device) },
      by simp [Operator.Parses, Operator.deviceCopy, Parsing.deviceCopy, Parsing.accept,
        Crossing.requested]⟩
  have outcome : ∀ (g : Graph .plain) order, g.postOrder = .ok order →
      order.length + (g.crossings .deviceCopy order).length < UInt32.size →
      InsertionOutcome {} g .builtin (CopySettings.insertCopies {} g .builtin 0).result := by
    intro g order walked few
    refine insertCopies_outcome (fun op found => ?_) (fun op order' found walked' => ?_) 0
    · cases registered.symm.trans found
      exact Operator.keepsOperator_of_parser (.inr rfl)
    · cases registered.symm.trans found
      cases walked.symm.trans walked'
      exact few
  have walked : looseGraph.postOrder = .ok [⟨0, 0⟩, ⟨0, 1⟩] := by cbv
  have square : (squareGraph.crossings .deviceCopy [⟨0, 0⟩, ⟨0, 1⟩]).length = 2 := rfl
  have loose : (looseGraph.crossings .deviceCopy [⟨0, 0⟩, ⟨0, 1⟩]).length = 2 := rfl
  constructor
  · have numberable : squareGraph.Numberable [⟨0, 0⟩, ⟨0, 1⟩] := by decide
    refine (outcome squareGraph _ postOrder_squareGraph (by rw [square]; decide)).succeeds.mpr
      ⟨_, _, spliceable squareGraph _ postOrder_squareGraph,
        ((Graph.numberable_iff postOrder_squareGraph).mp numberable).1, ?_⟩
    rw [square]
    decide
  · have refused : ¬ Insertable {} looseGraph .builtin .deviceCopy [⟨0, 0⟩, ⟨0, 1⟩] := by
      intro insertable
      have read : looseGraph.Reads { node := ⟨0, 0⟩, index := 3 } :=
        Graph.reads_of_input walked (by simp : (⟨0, 1⟩ : NodeId) ∈ _) rfl (by simp [looseGraph])
      exact absurd (insertable.valid _ read) (by decide)
    obtain ⟨error, reported, _, invalid | ⟨full, _⟩⟩ :=
      (outcome looseGraph _ walked (by rw [loose]; decide)).unnumbered _ _
        (spliceable looseGraph _ walked) refused
    · exact ⟨error, reported, invalid⟩
    · rw [loose] at full
      exact absurd full (by decide)

end Placement
