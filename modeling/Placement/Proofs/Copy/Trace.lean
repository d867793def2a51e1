import Placement.Proofs.Copy.Outcome

/-! What happens during copy insertion, in order, also when it fails. For each crossing of the
graph as it is given a copy is announced and the parser is called, until a copy is rejected. What
the parser does to the attributes of one copy is not seen in those of another. -/
namespace Placement

variable {P : Client}

def Event.call? : Event P → Option (AttrParser P × NodeAttrs P)
  | .parserCalled parser attrs => some (parser, attrs)
  | _ => none

namespace Crossing

/-- The line that announces the copy on a crossing. -/
def line (settings : CopySettings) (c : Crossing P) : LogLine where
  level := .debug
  text := "__copy_" ++ c.producerNode.name ++ "_to_" ++ c.consumerNode.name
    ++ (if settings.slotSuffix then "_" ++ c.slot.repr else "") ++ ": "
    ++ c.producerNode.name ++ " (" ++ c.producerNode.device.text ++ ") -> "
    ++ c.consumerNode.name ++ " (" ++ c.consumerNode.device.text ++ ")"

theorem line_eq (settings : CopySettings) (c : Crossing P) :
    c.line settings = ⟨.debug, (c.plan settings).text⟩ := by
  unfold line CopyPlan.text plan CopySettings.plan CopySettings.copyName
  cases settings.slotSuffix with
  | false => simp [String.append_assoc]
  | true => simp [String.append_assoc]

theorem filterMap_logLine?_happens (settings : CopySettings) (op : Operator P)
    (crossings : List (Crossing P)) :
    (crossings.flatMap (happens settings op)).filterMap Event.logLine? =
      crossings.map (line settings) := by
  have one : ∀ c : Crossing P, (c.happens settings op).filterMap Event.logLine? =
      [c.line settings] := by
    intro c
    rw [line_eq]
    unfold happens
    cases op.parser with
    | none => rfl
    | some parser => rfl
  rw [List.filterMap_flatMap, List.map_eq_flatMap]
  simp only [one]

theorem filterMap_call?_happens (settings : CopySettings) (op : Operator P)
    (crossings : List (Crossing P)) :
    (crossings.flatMap (happens settings op)).filterMap Event.call? = match op.parser with
      | none => []
      | some parser => crossings.map (fun c => (parser, c.requested settings op)) := by
  rw [List.filterMap_flatMap]
  unfold happens
  cases op.parser with
  | none => simp [Event.call?]
  | some parser => exact List.map_eq_flatMap.symm

theorem not_copiesInserted_mem_happens (settings : CopySettings) (op : Operator P) (c : Crossing P)
    (count : Nat) : .copiesInserted count ∉ c.happens settings op := by
  unfold happens
  cases op.parser with
  | none => simp
  | some parser => simp

end Crossing

def CopyReport.closing : Checked PassError (CopyReport P) → List (Event P)
  | .ok report => [.copiesInserted report.copies.length]
  | .error _ => []

theorem CopyReport.copiesInserted_mem_closing_iff (result : Checked PassError (CopyReport P))
    (count : Nat) : .copiesInserted count ∈ closing result ↔
      ∃ report, result = .ok report ∧ report.copies.length = count := by
  cases result with
  | error fault => simp [closing]
  | ok report => simp [closing, eq_comm]

theorem CopyReport.filterMap_call?_closing (result : Checked PassError (CopyReport P)) :
    (closing result).filterMap Event.call? = [] := by
  cases result with
  | error fault => rfl
  | ok report => rfl

theorem CopyReport.filterMap_logLine?_closing (result : Checked PassError (CopyReport P)) :
    (closing result).filterMap Event.logLine? = match result with
      | .ok report => [⟨.info, "insert_copy(" ++ report.copies.length.repr ++ ")"⟩]
      | .error _ => [] := by
  cases result with
  | error fault => rfl
  | ok report => rfl

def Splicing.ending : Except (Interrupted P) (Splicing P) → List (Event P)
  | .ok s => s.trace.toList
  | .error interrupted => interrupted.trace.toList

variable [CustomParsers P]

/-- The crossings for which a copy is attempted: all of them, or those up to the first whose copy
the operator's parser rejects. -/
inductive Crossing.Attempts (settings : CopySettings) (op : Operator P) :
    List (Crossing P) → List (Crossing P) → Prop where
  | all (crossings : List (Crossing P))
      (accepted : ∀ c ∈ crossings, op.Accepts (c.requested settings op)) :
      Attempts settings op crossings crossings
  | cut (front back : List (Crossing P)) (c : Crossing P) (error : OpError)
      (accepted : ∀ d ∈ front, op.Accepts (d.requested settings op))
      (rejected : op.Rejects (c.requested settings op) error) :
      Attempts settings op (front ++ c :: back) (front ++ [c])

namespace Crossing

variable {settings : CopySettings} {op : Operator P} {crossings attempted : List (Crossing P)}

theorem exists_attempts (settings : CopySettings) (op : Operator P)
    (crossings : List (Crossing P)) : ∃ attempted, Attempts settings op crossings attempted := by
  induction crossings with
  | nil => exact ⟨[], .all [] (by simp)⟩
  | cons c crossings ih =>
    rcases op.accepts_or_rejects (c.requested settings op) with first | ⟨error, rejected⟩
    · obtain ⟨attempted, attempts⟩ := ih
      cases attempts with
      | all _ accepted => exact ⟨_, .all _ (List.forall_mem_cons.mpr ⟨first, accepted⟩)⟩
      | cut front back d error accepted rejected =>
        exact ⟨_, .cut (c :: front) back d error (List.forall_mem_cons.mpr ⟨first, accepted⟩)
          rejected⟩
    · exact ⟨_, .cut [] crossings c error (by simp) rejected⟩

theorem Attempts.eq_of_accepted (attempts : Attempts settings op crossings attempted)
    (accepted : ∀ c ∈ crossings, op.Accepts (c.requested settings op)) :
    attempted = crossings := by
  cases attempts with
  | all => rfl
  | cut front back c error _ rejected =>
    exact absurd (accepted c (by simp)) (Operator.not_accepts_of_rejects rejected)

/-- A copy is announced and its parser called before the verdict is known, so a rejected copy has
left its events too. -/
theorem Attempts.ending_foldlM (attempts : Attempts settings op crossings attempted)
    (s : Splicing P) : Splicing.ending (crossings.foldlM (realize settings op) s) =
      s.trace.toList ++ attempted.flatMap (happens settings op) := by
  cases attempts with
  | all _ accepted =>
    obtain ⟨final, folded, trace⟩ := foldlM_realize_ok accepted s
    rw [folded]
    exact trace
  | cut front back c error accepted rejected =>
    obtain ⟨trace, stopped, events⟩ := foldlM_realize_error back accepted rejected s
    rw [stopped]
    exact events

end Crossing

variable {g : Graph P} {settings : CopySettings} {ops : OpRegistry P} {op : Operator P}

theorem Graph.ending_splice {order : List NodeId} {attempted : List (Crossing P)}
    (walked : g.postOrder = .ok order)
    (attempts : Crossing.Attempts settings op (g.crossings op order) attempted) :
    Splicing.ending (g.splice settings op) =
      attempted.flatMap (Crossing.happens settings op) := by
  rw [splice_eq_foldlM walked, attempts.ending_foldlM]
  rfl

/-- Splicing does not say that it is finished; this is left to copy insertion. -/
theorem Graph.not_copiesInserted_mem_ending (g : Graph P) (settings : CopySettings)
    (op : Operator P) (count : Nat) :
    .copiesInserted count ∉ Splicing.ending (g.splice settings op) := by
  cases walked : g.postOrder with
  | error fault =>
    rw [splice_of_unordered walked]
    exact List.not_mem_nil
  | ok order =>
    obtain ⟨attempted, attempts⟩ := Crossing.exists_attempts settings op (g.crossings op order)
    rw [ending_splice walked attempts]
    intro listed
    obtain ⟨c, _, inside⟩ := List.mem_flatMap.mp listed
    exact c.not_copiesInserted_mem_happens settings op count inside

theorem CopySettings.trace_insertCopies (chosen : settings.findCopyOp ops = .ok op)
    (g : Graph P) (free : Nat) :
    (settings.insertCopies g ops free).trace = Splicing.ending (g.splice settings op) ++
      CopyReport.closing (settings.insertCopies g ops free).result := by
  cases spliced : g.splice settings op with
  | error interrupted =>
    rw [outcome_of_interrupted chosen spliced]
    exact (List.append_nil _).symm
  | ok s =>
    cases placed : DeviceVector.ofGraph s.graph with
    | error fault =>
      rw [outcome_of_unplaced chosen spliced placed]
      exact (List.append_nil _).symm
    | ok devices =>
      rw [insertCopies_of_splice chosen spliced placed]
      simp [Splicing.ending, CopyReport.closing]

theorem CopySettings.accepted_of_insertCopies {report : CopyReport P} {order : List NodeId}
    {free : Nat} (succeeded : (settings.insertCopies g ops free).result = .ok report)
    (chosen : settings.findCopyOp ops = .ok op) (walked : g.postOrder = .ok order) :
    (∀ c ∈ g.crossings op order, op.Accepts (c.requested settings op)) ∧
      report.copies.length = (g.crossings op order).length := by
  obtain ⟨_, s, devices, chosen', spliced, _, rfl⟩ := insertCopies_eq_ok succeeded
  cases chosen.symm.trans chosen'
  obtain ⟨_, walked', spliced⟩ := Graph.spliced_of_splice spliced
  cases walked.symm.trans walked'
  refine ⟨spliced.accepted, ?_⟩
  rw [spliced.copies]
  simp [Graph.copyIds]

/-- What copy insertion does on its way to its result, told from the graph as it is given. -/
structure InsertionTrace (settings : CopySettings) (g : Graph P) (ops : OpRegistry P)
    (outcome : Outcome P (CopyReport P)) : Prop where
  unfound : ∀ error, settings.findCopyOp ops = .error error → outcome.trace = []
  unordered : ∀ fault, g.postOrder = .error fault → outcome.trace = []
  listing : ∀ op order, g.postOrder = .ok order →
    (∀ c, c ∈ g.crossings op order ↔ c.consumer ∈ order ∧ c.Of g op) ∧
      (g.crossings op order).Pairwise (Crossing.Earlier order)
  attempts : ∀ op order, ∃ attempted,
    Crossing.Attempts settings op (g.crossings op order) attempted
  events : ∀ op order attempted, settings.findCopyOp ops = .ok op → g.postOrder = .ok order →
    Crossing.Attempts settings op (g.crossings op order) attempted →
    outcome.trace = attempted.flatMap (Crossing.happens settings op) ++
      CopyReport.closing outcome.result
  calls : ∀ op order attempted, settings.findCopyOp ops = .ok op → g.postOrder = .ok order →
    Crossing.Attempts settings op (g.crossings op order) attempted →
    outcome.trace.filterMap Event.call? = match op.parser with
      | none => []
      | some parser => attempted.map (fun c => (parser, c.requested settings op))
  lines : ∀ op order attempted, settings.findCopyOp ops = .ok op → g.postOrder = .ok order →
    Crossing.Attempts settings op (g.crossings op order) attempted →
    outcome.trace.filterMap Event.logLine? = attempted.map (Crossing.line settings) ++
      match outcome.result with
      | .ok report => [⟨.info, "insert_copy(" ++ report.copies.length.repr ++ ")"⟩]
      | .error _ => []
  finished : ∀ count, .copiesInserted count ∈ outcome.trace ↔
    ∃ report, outcome.result = .ok report ∧ report.copies.length = count
  complete : ∀ report op order attempted, outcome.result = .ok report →
    settings.findCopyOp ops = .ok op → g.postOrder = .ok order →
    Crossing.Attempts settings op (g.crossings op order) attempted →
    attempted = g.crossings op order ∧
      report.copies.length = (g.crossings op order).length

/-- Copy insertion announces the copies that the crossings of the given graph ask for and calls the
parser for each of them, up to the first that is rejected, and says that it is done only if it
is. -/
theorem insertCopies_trace (settings : CopySettings) (g : Graph P) (ops : OpRegistry P)
    (free : Nat) : InsertionTrace settings g ops (settings.insertCopies g ops free) := by
  have whole : ∀ op order attempted, settings.findCopyOp ops = .ok op → g.postOrder = .ok order →
      Crossing.Attempts settings op (g.crossings op order) attempted →
      (settings.insertCopies g ops free).trace =
        attempted.flatMap (Crossing.happens settings op) ++
        CopyReport.closing (settings.insertCopies g ops free).result := by
    intro op order attempted chosen walked attempts
    rw [CopySettings.trace_insertCopies chosen, Graph.ending_splice walked attempts]
  constructor
  · intro error failed
    rw [CopySettings.outcome_of_unfound failed]
  · intro fault failed
    cases chosen : settings.findCopyOp ops with
    | error error => rw [CopySettings.outcome_of_unfound chosen]
    | ok op =>
      rw [CopySettings.outcome_of_interrupted chosen (Graph.splice_of_unordered failed settings op)]
  · intro op order walked
    exact ⟨Graph.mem_crossings_iff order, g.crossings_pairwise op (Graph.nodup_of_postOrder walked)⟩
  · exact fun op order => Crossing.exists_attempts settings op _
  · exact whole
  · intro op order attempted chosen walked attempts
    rw [whole op order attempted chosen walked attempts, List.filterMap_append,
      Crossing.filterMap_call?_happens, CopyReport.filterMap_call?_closing, List.append_nil]
  · intro op order attempted chosen walked attempts
    rw [whole op order attempted chosen walked attempts, List.filterMap_append,
      Crossing.filterMap_logLine?_happens, CopyReport.filterMap_logLine?_closing]
  · intro count
    cases chosen : settings.findCopyOp ops with
    | error error => simp [CopySettings.outcome_of_unfound chosen, Checked.report]
    | ok op =>
      rw [CopySettings.trace_insertCopies chosen, List.mem_append,
        CopyReport.copiesInserted_mem_closing_iff]
      simp [Graph.not_copiesInserted_mem_ending]
  · intro report op order attempted succeeded chosen walked attempts
    obtain ⟨accepted, count⟩ := CopySettings.accepted_of_insertCopies succeeded chosen walked
    exact ⟨attempts.eq_of_accepted accepted, count⟩

/-- A client whose parsers reject all copies to one device, and rename the others. -/
abbrev barrier : Client where
  Parser := Device
  Kind := Empty

instance : CustomParsers barrier where
  parse barred attrs :=
    if attrs.device = barred then .reject attrs (.invalidAttr "move" attrs.name "barred")
    else .accept { attrs with name := "moved" }

def moveOp : Operator barrier := { name := "move", parser := some (.custom ⟨2⟩) }

def branchGraph : Graph barrier where
  arena := 0
  nodes := #[
    { attrs := { name := "x", device := ⟨0⟩ } },
    { attrs := { name := "near", device := ⟨1⟩ }, inputs := #[{ node := ⟨0, 0⟩ }] },
    { attrs := { name := "far", device := ⟨2⟩ }
      inputs := #[{ node := ⟨0, 0⟩ }, { node := ⟨0, 1⟩ }] }]
  outputs := #[{ node := ⟨0, 2⟩ }]

theorem insertCopies_trace_branch :
    let outcome := CopySettings.insertCopies { copyOp := "move" } branchGraph
      (Catalog.single moveOp) 0
    outcome.trace = [
      .copyPlanned ⟨"__copy_x_to_near", "x", ⟨0⟩, "near", ⟨1⟩⟩,
      .parserCalled (.custom ⟨2⟩) { name := "__copy_x_to_near", op := some moveOp, device := ⟨1⟩ },
      .copyPlanned ⟨"__copy_x_to_far", "x", ⟨0⟩, "far", ⟨2⟩⟩,
      .parserCalled (.custom ⟨2⟩) { name := "__copy_x_to_far", op := some moveOp, device := ⟨2⟩ }] ∧
    outcome.trace.filterMap Event.logLine? = [
      ⟨.debug, "__copy_x_to_near: x (dev0) -> near (dev1)"⟩,
      ⟨.debug, "__copy_x_to_far: x (dev0) -> far (dev2)"⟩] := by
  have chosen : CopySettings.findCopyOp { copyOp := "move" } (Catalog.single moveOp) =
      .ok moveOp := by cbv
  have walked : branchGraph.postOrder = .ok [⟨0, 0⟩, ⟨0, 1⟩, ⟨0, 2⟩] := by cbv
  have stopped : ∃ trace error, branchGraph.splice { copyOp := "move" } moveOp =
      .error ⟨trace, .reported error⟩ := by
    rw [Graph.splice_eq_foldlM walked]
    exact ⟨_, _, rfl⟩
  obtain ⟨_, _, stopped⟩ := stopped
  have failed := CopySettings.insertCopies_of_interrupted chosen stopped 0
  have crossings : ∃ near far rest,
      branchGraph.crossings moveOp [⟨0, 0⟩, ⟨0, 1⟩, ⟨0, 2⟩] = [near] ++ far :: rest ∧
      near.consumerNode.device = ⟨1⟩ ∧ far.consumerNode.device = ⟨2⟩ ∧
      [near, far].flatMap (Crossing.happens { copyOp := "move" } moveOp) = [
        .copyPlanned ⟨"__copy_x_to_near", "x", ⟨0⟩, "near", ⟨1⟩⟩,
        .parserCalled (.custom ⟨2⟩)
          { name := "__copy_x_to_near", op := some moveOp, device := ⟨1⟩ },
        .copyPlanned ⟨"__copy_x_to_far", "x", ⟨0⟩, "far", ⟨2⟩⟩,
        .parserCalled (.custom ⟨2⟩)
          { name := "__copy_x_to_far", op := some moveOp, device := ⟨2⟩ }] :=
    ⟨_, _, _, rfl, rfl, rfl, rfl⟩
  obtain ⟨near, far, rest, split, atNear, atFar, happens⟩ := crossings
  have attempts : Crossing.Attempts { copyOp := "move" } moveOp
      (branchGraph.crossings moveOp [⟨0, 0⟩, ⟨0, 1⟩, ⟨0, 2⟩]) [near, far] := by
    rw [split]
    refine .cut [near] rest far
      (.invalidAttr "move" (far.requested { copyOp := "move" } moveOp).name "barred") ?_ ?_
    · simp [Operator.Accepts, Operator.Parses, moveOp, CustomParsers.parse, Parsing.accept,
        Crossing.requested, atNear]
    · simp [Operator.Rejects, Operator.Parses, moveOp, CustomParsers.parse, Parsing.reject,
        Crossing.requested, atFar]
  have events := (insertCopies_trace _ _ _ 0).events _ _ _ chosen walked attempts
  rw [failed, happens] at events
  refine ⟨events, ?_⟩
  rw [events]
  cbv

end Placement
