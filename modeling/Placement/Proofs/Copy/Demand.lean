import Placement.Proofs.Copy.Renumbering
import Placement.Proofs.DeviceVector.Shape

/-! Graphs that differ in the order and repetition of their outputs. The walks list their nodes in
other orders, so the copies are made in other orders too. Which slots are rewritten, and what
stands there then, is the same. -/
namespace Placement

variable {P : Client} {g h : Graph P}

/-- Two graphs that differ only in their outputs, which ask for the same entries. -/
structure Graph.SameDemand (g h : Graph P) : Prop where
  arena : h.arena = g.arena
  nodes : h.nodes = g.nodes
  attrs : h.attrs = g.attrs
  outputs : ∀ e, e ∈ h.outputs ↔ e ∈ g.outputs

/-- The nodes that the outputs lead to, and the copies that are due, are fewer than words. -/
def CopySettings.Fits (settings : CopySettings) (g : Graph P) (ops : OpRegistry P) : Prop :=
  ∀ op order, settings.findCopyOp ops = .ok op → g.postOrder = .ok order →
    order.length + (g.crossings op order).length < UInt32.size

namespace Graph.SameDemand

theorem symm (same : g.SameDemand h) : h.SameDemand g where
  arena := same.arena.symm
  nodes := same.nodes.symm
  attrs := same.attrs.symm
  outputs e := (same.outputs e).symm

variable (same : g.SameDemand h)

include same

theorem node?_eq (id : NodeId) : h.node? id = g.node? id := by
  rw [node?, same.arena, same.nodes, node?]

theorem sameShape : g.SameShape h where
  nodes id := congrArg (Option.map Node.unnamed) (same.node?_eq id)
  outputs := same.outputs

theorem copyId_eq : h.copyId = g.copyId := by
  funext k
  rw [copyId, idAt, same.arena, same.nodes, copyId, idAt]

theorem rerouteNode_eq : h.rerouteNode = g.rerouteNode := by
  have slots : h.reroute = g.reroute := by
    funext crossings id slot e
    simp only [reroute, same.copyId_eq]
  funext crossings id node
  simp only [rerouteNode, slots]

/-- The two graphs have the same crossings, listed by consumer in the order of the walk. -/
theorem crossings_perm (op : Operator P) {order order' : List NodeId}
    (walked : g.postOrder = .ok order) (walked' : h.postOrder = .ok order') :
    (h.crossings op order').Perm (g.crossings op order) := by
  rw [crossings_congr same.node?_eq]
  exact (same.sameShape.postOrder_perm walked walked').flatMap_right _

theorem fits {settings : CopySettings} {ops : OpRegistry P} (fits : settings.Fits g ops) :
    settings.Fits h ops := by
  intro op order' chosen walked'
  obtain ⟨order, walked⟩ := same.symm.sameShape.exists_postOrder walked'
  have short := fits op order chosen walked
  rwa [← (same.sameShape.postOrder_perm walked walked').length_eq,
    ← (same.crossings_perm op walked walked').length_eq] at short

end Graph.SameDemand

variable [CustomParsers P] {settings : CopySettings} {op : Operator P}

namespace Graph.SameDemand

section

variable (same : g.SameDemand h)

include same

/-- What the other graph is rewritten to is this graph rewritten, but for the outputs. -/
theorem rewritten {crossings : List (Crossing P)} {after : Graph P}
    (rewritten : Rewritten h settings op crossings after) :
    Rewritten g settings op crossings { after with outputs := g.outputs } where
  arena := rewritten.arena.trans same.arena
  size := by rw [← same.nodes]; exact rewritten.size
  outputs := rfl
  attrs := rewritten.attrs.trans same.attrs
  kept := by
    intro id node found
    rw [← same.rerouteNode_eq]
    exact rewritten.kept id node ((same.node?_eq id).trans found)
  made := by
    intro k c listed
    rw [← same.copyId_eq]
    exact rewritten.made k c listed

theorem exists_splice {s : Splicing P} (splicing : g.splice settings op = .ok s) :
    ∃ s', h.splice settings op = .ok s' := by
  obtain ⟨order, walked, spliced⟩ := spliced_of_splice splicing
  obtain ⟨order', walked'⟩ := same.sameShape.exists_postOrder walked
  refine (exists_splice_iff walked').mpr (fun c member => spliced.accepted c ?_)
  exact (same.crossings_perm op walked walked').mem_iff.mp member

end

end Graph.SameDemand

def CopyReport.Rewrites (report : CopyReport P) (g : Graph P) (consumer : NodeId)
    (slot : Nat) : Prop :=
  ∃ before after, g.node? consumer = some before ∧ report.graph.node? consumer = some after ∧
    after.inputs[slot]? ≠ before.inputs[slot]?

/-- The two reports, on graphs with the same demand, are the same once the copies of the first
take the ids that `f` gives them. A node that the outputs do not lead to is in both as it was. -/
structure CopyReport.Renumbered (f : NodeId → NodeId) (g h : Graph P) (settings : CopySettings)
    (report report' : CopyReport P) : Prop where
  slots : ∀ consumer slot, report.Rewrites g consumer slot ↔ report'.Rewrites h consumer slot
  served : ∀ consumer slot, report.Rewrites g consumer slot → ∃ copy ∈ report.copies, ∃ node,
    report.Serves g copy consumer slot ∧ report'.Serves h (f copy) consumer slot ∧
    report.graph.node? copy = some node ∧ report'.graph.node? (f copy) = some node
  serves : ∀ copy ∈ report.copies, ∃ consumer slot, report.Rewrites g consumer slot ∧
    report.Serves g copy consumer slot
  copies : (report.copies.map f).Perm report'.copies
  fixed : ∀ id, g.Has id → f id = id
  arena : report'.graph.arena = report.graph.arena
  size : report'.graph.nodes.size = report.graph.nodes.size
  reached : ∀ id node, g.Reachable id ∨ id ∈ report.copies → report.graph.node? id = some node →
    report'.graph.node? (f id) = some (node.relabel f)
  unreached : ∀ id, g.Has id → ¬ g.Reachable id → report.graph.node? id = g.node? id ∧
    report'.graph.node? id = g.node? id
  devices : ∃ devices devices', report.graph.attrs.get .devices settings.attrKey = .ok devices ∧
    report'.graph.attrs.get .devices settings.attrKey = .ok devices' ∧
    ∀ order, report.graph.postOrder = .ok order → order.length < UInt32.size →
      devices'.toList.Perm devices.toList

theorem Spliced.rewrites_iff {s : Splicing P} {order : List NodeId}
    (spliced : Spliced g settings op (g.crossings op order) s) (walked : g.postOrder = .ok order)
    (devices : Array Device) (free : Nat) (consumer : NodeId) (slot : Nat) :
    CopyReport.Rewrites ⟨settings.publish s.graph devices free, s.copies.toList⟩ g consumer slot ↔
      ∃ c ∈ g.crossings op order, c.consumer = consumer ∧ c.slot = slot := by
  constructor
  · rintro ⟨before, after, found, found', differs⟩
    cases (spliced.rewritten.kept consumer before found).symm.trans found'
    rw [Graph.inputs_rerouteNode] at differs
    cases reads : before.inputs[slot]? with
    | none => simp [reads] at differs
    | some e =>
      rcases g.reroute_cases (g.crossings op order) consumer slot e with
        ⟨_, kept⟩ | ⟨k, c, listed, into, place, _⟩
      · simp [reads, kept] at differs
      · exact ⟨c, List.mem_of_getElem? listed, into, place⟩
  · rintro ⟨c, member, rfl, rfl⟩
    obtain ⟨k, listed⟩ := List.getElem?_of_mem member
    have own := (Graph.own_of_listed listed).2
    refine ⟨_, _, own.consumer, spliced.rewritten.kept _ _ own.consumer, ?_⟩
    rw [Graph.inputs_rerouteNode_of_listed walked listed, own.reads]
    intro equal
    exact Graph.ne_copyId own.producer k (congrArg Entry.node (Option.some.inj equal)).symm

namespace Graph.SameDemand

section

variable {s s' : Splicing P} {order order' walk : List NodeId} (same : g.SameDemand h)
  (reordered : Reordered g settings op order s.graph walk) (walked' : h.postOrder = .ok order')
  (spliced : Spliced g settings op (g.crossings op order) s)
  (spliced' : Spliced h settings op (h.crossings op order') s')

include same reordered walked'

theorem crossing_of_listed {j : Nat} {c : Crossing P}
    (listed : (g.crossings op order)[j]? = some c) :
    ∃ k, (h.crossings op order')[k]? = some c ∧
      g.renumber (g.crossings op order) (h.crossings op order') (g.copyId j) = h.copyId k := by
  have member := (same.crossings_perm op reordered.before walked').mem_iff.mpr
    (List.mem_of_getElem? listed)
  obtain ⟨k, listed'⟩ := List.getElem?_of_mem member
  refine ⟨k, listed', ?_⟩
  rw [same.copyId_eq, renumber_copyId (crossings_apart walked' op) listed listed']

include spliced'

theorem renumber_relabels :
    Relabels (g.renumber (g.crossings op order) (h.crossings op order')) s.graph
      { s'.graph with outputs := g.outputs } :=
  reordered.renumber_relabels (same.rewritten spliced'.rewritten)
    (fun _ => (same.crossings_perm op reordered.before walked').mem_iff)
    (crossings_apart walked' op)

/-- Between the two results stands a third graph: the copies are those of the second result, the
outputs those of the first. -/
theorem exists_devices (few : walk.length < UInt32.size) {devices : Array Device}
    (placed : DeviceVector.ofGraph s.graph = .ok devices) :
    ∃ devices', DeviceVector.ofGraph s'.graph = .ok devices' ∧
      devices'.toList.Perm devices.toList := by
  have relabels := same.renumber_relabels reordered walked' spliced'
  have shape : SameShape { s'.graph with outputs := g.outputs } s'.graph := by
    refine ⟨fun id => rfl, fun e => ?_⟩
    rw [spliced'.rewritten.outputs]
    exact same.outputs e
  exact shape.exists_devices (relabels.postOrder_eq reordered.after) (by simpa using few)
    ((relabels.devices_eq_ok_iff devices).mpr placed)

include spliced

theorem copies_perm : (s.copies.toList.map
    (g.renumber (g.crossings op order) (h.crossings op order'))).Perm s'.copies.toList := by
  have perm := same.crossings_perm op reordered.before walked'
  have nodup : (g.copyIds (g.crossings op order)).Nodup :=
    List.nodup_range.map (fun _ _ equal => g.copyId_injective equal)
  have nodup' : (h.copyIds (h.crossings op order')).Nodup :=
    List.nodup_range.map (fun _ _ equal => h.copyId_injective equal)
  rw [spliced.copies, spliced'.copies]
  refine (List.perm_ext_iff_of_nodup (nodup.map_on fun a first b second equal => ?_)
    nodup').mpr (fun id => ?_)
  · exact reordered.renumber_injective (fun c => perm.mem_iff) (crossings_apart walked' op)
      (reordered.copyIds_subset first) (reordered.copyIds_subset second) equal
  · rw [List.mem_map, mem_copyIds_iff]
    constructor
    · rintro ⟨copy, made, rfl⟩
      obtain ⟨j, c, listed, rfl⟩ := (mem_copyIds_iff copy).mp made
      obtain ⟨k, listed', renumbered⟩ := same.crossing_of_listed reordered walked' listed
      exact ⟨k, c, listed', renumbered.symm⟩
    · rintro ⟨k, c, listed', rfl⟩
      obtain ⟨j, listed⟩ := List.getElem?_of_mem (perm.mem_iff.mp (List.mem_of_getElem? listed'))
      refine ⟨g.copyId j, (mem_copyIds_iff _).mpr ⟨j, c, listed, rfl⟩, ?_⟩
      rw [renumber_copyId (crossings_apart walked' op) listed listed', same.copyId_eq]

theorem serve_alike {j : Nat} {c : Crossing P} (listed : (g.crossings op order)[j]? = some c)
    (devices devices' : Array Device) (free free' : Nat) :
    ∃ copy ∈ s.copies.toList, ∃ node,
      CopyReport.Serves ⟨settings.publish s.graph devices free, s.copies.toList⟩ g copy c.consumer
        c.slot ∧
      CopyReport.Serves ⟨settings.publish s'.graph devices' free', s'.copies.toList⟩ h
        (g.renumber (g.crossings op order) (h.crossings op order') copy) c.consumer c.slot ∧
      s.graph.node? copy = some node ∧
      s'.graph.node? (g.renumber (g.crossings op order) (h.crossings op order') copy) =
        some node := by
  obtain ⟨k, listed', renumbered⟩ := same.crossing_of_listed reordered walked' listed
  refine ⟨g.copyId j, ?_, c.copyNode settings op,
    spliced.serves reordered.before listed devices free, ?_, spliced.rewritten.made j c listed, ?_⟩
  · rw [spliced.copies]
    exact (mem_copyIds_iff _).mpr ⟨j, c, listed, rfl⟩
  · rw [renumbered]
    exact spliced'.serves walked' listed' devices' free'
  · rw [renumbered]
    exact spliced'.rewritten.made k c listed'

theorem node?_renumber {id : NodeId} {node : Node P}
    (reached : g.Reachable id ∨ id ∈ s.copies.toList) (found : s.graph.node? id = some node) :
    s'.graph.node? (g.renumber (g.crossings op order) (h.crossings op order') id) =
      some (node.relabel (g.renumber (g.crossings op order) (h.crossings op order'))) := by
  have member : id ∈ walk := by
    rcases reached with reached | copied
    · exact reordered.mem_after ((mem_postOrder_iff reordered.before id).mpr reached)
    · rw [spliced.copies] at copied
      exact reordered.copyIds_subset copied
  exact (same.renumber_relabels reordered walked' spliced').nodes id node
    ((mem_postOrder_iff reordered.after id).mp member) found

theorem node?_of_unreached {id : NodeId} (has : g.Has id) (unreached : ¬ g.Reachable id) :
    s.graph.node? id = g.node? id ∧ s'.graph.node? id = g.node? id := by
  have outside : id ∉ order := mt (mem_postOrder_iff reordered.before id).mp unreached
  have has' : h.Has id := by rwa [Has, same.arena, same.nodes]
  have outside' : id ∉ order' := by
    rw [mem_postOrder_iff walked']
    exact mt same.symm.sameShape.reachable unreached
  constructor
  · exact spliced.rewritten.node?_of_not_mem has outside
  · rw [spliced'.rewritten.node?_of_not_mem has' outside', same.node?_eq]

theorem reports_renumbered {devices devices' : Array Device} (free free' : Nat)
    (placed : DeviceVector.ofGraph s.graph = .ok devices)
    (placed' : DeviceVector.ofGraph s'.graph = .ok devices') :
    CopyReport.Renumbered (g.renumber (g.crossings op order) (h.crossings op order')) g h settings
      ⟨settings.publish s.graph devices free, s.copies.toList⟩
      ⟨settings.publish s'.graph devices' free', s'.copies.toList⟩ := by
  have walked := reordered.before
  have perm := same.crossings_perm op walked walked'
  have rewrites := spliced.rewrites_iff walked devices free
  constructor
  · intro consumer slot
    rw [rewrites, spliced'.rewrites_iff walked']
    simp only [perm.mem_iff]
  · intro consumer slot rewritten
    obtain ⟨c, member, rfl, rfl⟩ := (rewrites consumer slot).mp rewritten
    obtain ⟨j, listed⟩ := List.getElem?_of_mem member
    exact same.serve_alike reordered walked' spliced spliced' listed devices devices' free free'
  · intro copy made
    obtain ⟨j, made⟩ := List.getElem?_of_mem made
    obtain ⟨c, listed, rfl⟩ := spliced.crossing_of_copy made
    refine ⟨c.consumer, c.slot, ?_, spliced.serves walked listed devices free⟩
    exact (rewrites _ _).mpr ⟨c, List.mem_of_getElem? listed, rfl, rfl⟩
  · exact same.copies_perm reordered walked' spliced spliced'
  · intro id has
    exact renumber_of_has has
  · exact (spliced'.rewritten.arena.trans same.arena).trans spliced.rewritten.arena.symm
  · calc s'.graph.nodes.size
        = h.nodes.size + (h.crossings op order').length := spliced'.rewritten.size
      _ = g.nodes.size + (g.crossings op order).length := by rw [same.nodes, perm.length_eq]
      _ = s.graph.nodes.size := spliced.rewritten.size.symm
  · exact fun id node => same.node?_renumber reordered walked' spliced spliced'
  · exact fun id => same.node?_of_unreached reordered walked' spliced spliced'
  · refine ⟨devices, devices', settings.get_publish s.graph devices free,
      settings.get_publish s'.graph devices' free', fun after walked few => ?_⟩
    rw [CopySettings.postOrder_publish] at walked
    cases reordered.after.symm.trans walked
    obtain ⟨found, again, permuted⟩ := same.exists_devices reordered walked' spliced' few placed
    cases placed'.symm.trans again
    exact permuted

end

section

variable {ops : OpRegistry P} {report report' : CopyReport P} (same : g.SameDemand h)

include same

theorem exists_report {free : Nat} (fits : settings.Fits g ops)
    (succeeded : (settings.insertCopies g ops free).result = .ok report) (free' : Nat) :
    ∃ report', (settings.insertCopies h ops free').result = .ok report' := by
  obtain ⟨op, s, devices, chosen, splicing, placed, _⟩ :=
    CopySettings.insertCopies_eq_ok succeeded
  obtain ⟨s', splicing'⟩ := same.exists_splice splicing
  obtain ⟨order, walk, _, reordered⟩ := reordered_of_splice splicing
  obtain ⟨order', walked', spliced'⟩ := spliced_of_splice splicing'
  have few : walk.length < UInt32.size := by
    simpa [reordered.perm.length_eq, copyIds] using fits op order chosen reordered.before
  obtain ⟨devices', placed', _⟩ := same.exists_devices reordered walked' spliced' few placed
  rw [CopySettings.insertCopies_of_splice chosen splicing' placed']
  exact ⟨_, rfl⟩

theorem exists_renumbered {free free' : Nat}
    (succeeded : (settings.insertCopies g ops free).result = .ok report)
    (succeeded' : (settings.insertCopies h ops free').result = .ok report') :
    ∃ f, CopyReport.Renumbered f g h settings report report' := by
  obtain ⟨op, s, devices, chosen, splicing, placed, rfl⟩ :=
    CopySettings.insertCopies_eq_ok succeeded
  obtain ⟨again, s', devices', chosen', splicing', placed', rfl⟩ :=
    CopySettings.insertCopies_eq_ok succeeded'
  cases chosen.symm.trans chosen'
  obtain ⟨order, walk, spliced, reordered⟩ := reordered_of_splice splicing
  obtain ⟨order', walked', spliced'⟩ := spliced_of_splice splicing'
  exact ⟨_, same.reports_renumbered reordered walked' spliced spliced' free free' placed placed'⟩

end

end Graph.SameDemand

structure SameUpToOrder (g h : Graph P) : Prop where
  walks : (∃ order, g.postOrder = .ok order) ↔ ∃ order', h.postOrder = .ok order'
  order : ∀ order order', g.postOrder = .ok order → h.postOrder = .ok order' → order'.Perm order
  numbers : (∃ n, Numbering.ofGraph g = .ok n) ↔ ∃ n', Numbering.ofGraph h = .ok n'
  numbering : ∀ n n', Numbering.ofGraph g = .ok n → Numbering.ofGraph h = .ok n' →
    n'.numNodes = n.numNodes ∧ n'.numEntries = n.numEntries
  inserts : ∀ (settings : CopySettings) (ops : OpRegistry P) (free free' : Nat),
    settings.Fits g ops → ((∃ report, (settings.insertCopies g ops free).result = .ok report) ↔
      ∃ report', (settings.insertCopies h ops free').result = .ok report')
  insertion : ∀ (settings : CopySettings) (ops : OpRegistry P) (free free' : Nat)
    (report report' : CopyReport P), (settings.insertCopies g ops free).result = .ok report →
    (settings.insertCopies h ops free').result = .ok report' →
    ∃ f, CopyReport.Renumbered f g h settings report report'

/-- The order and the repetition of the outputs do not change what is rewritten. -/
theorem sameUpToOrder_of_sameDemand (same : g.SameDemand h) : SameUpToOrder g h := by
  have shape := same.sameShape
  constructor
  · constructor
    · exact fun ⟨_, walked⟩ => shape.exists_postOrder walked
    · exact fun ⟨_, walked'⟩ => shape.symm.exists_postOrder walked'
  · exact fun _ _ walked walked' => shape.postOrder_perm walked walked'
  · constructor
    · rintro ⟨n, numbered⟩
      obtain ⟨n', numbered', _⟩ := shape.exists_numbering numbered
      exact ⟨n', numbered'⟩
    · rintro ⟨n', numbered'⟩
      obtain ⟨n, numbered, _⟩ := shape.symm.exists_numbering numbered'
      exact ⟨n, numbered⟩
  · intro n n' numbered numbered'
    obtain ⟨found, again, counts⟩ := shape.exists_numbering numbered
    obtain rfl : n' = found := Except.ok.inj (numbered'.symm.trans again)
    exact counts
  · intro settings ops free free' fits
    constructor
    · exact fun ⟨_, succeeded⟩ => same.exists_report fits succeeded free'
    · exact fun ⟨_, succeeded'⟩ => same.symm.exists_report (same.fits fits) succeeded' free
  · exact fun settings ops free free' report report' => same.exists_renumbered

def fanGraph (outputs : Array Entry) : Graph .plain where
  arena := 0
  nodes := #[
    { attrs := { name := "x", device := ⟨0⟩ } },
    { attrs := { name := "a", op := some { name := "neg" }, device := ⟨1⟩ }
      inputs := #[{ node := ⟨0, 0⟩ }] },
    { attrs := { name := "b", op := some { name := "neg" }, device := ⟨2⟩ }
      inputs := #[{ node := ⟨0, 0⟩ }] }]
  outputs := outputs

def fanCopied : Graph .plain where
  arena := 0
  nodes := #[
    { attrs := { name := "x", device := ⟨0⟩ } },
    { attrs := { name := "a", op := some { name := "neg" }, device := ⟨1⟩ }
      inputs := #[{ node := ⟨0, 3⟩ }] },
    { attrs := { name := "b", op := some { name := "neg" }, device := ⟨2⟩ }
      inputs := #[{ node := ⟨0, 4⟩ }] },
    { attrs := {
        name := "__copy_x_to_a"
        op := some .deviceCopy
        device := ⟨1⟩
        payload := some (.copyTo ⟨1⟩) }
      inputs := #[{ node := ⟨0, 0⟩ }] },
    { attrs := {
        name := "__copy_x_to_b"
        op := some .deviceCopy
        device := ⟨2⟩
        payload := some (.copyTo ⟨2⟩) }
      inputs := #[{ node := ⟨0, 0⟩ }] }]
  outputs := #[{ node := ⟨0, 1⟩ }, { node := ⟨0, 2⟩ }]

theorem postOrder_fanCopied :
    fanCopied.postOrder = .ok [⟨0, 0⟩, ⟨0, 3⟩, ⟨0, 1⟩, ⟨0, 4⟩, ⟨0, 2⟩] := by cbv

theorem ofGraph_fanCopied :
    DeviceVector.ofGraph fanCopied = .ok #[⟨0⟩, ⟨1⟩, ⟨1⟩, ⟨2⟩, ⟨2⟩] := by
  obtain ⟨n, numbered⟩ := Numbering.ofGraph_ok_of_numberable postOrder_fanCopied (by decide)
  rw [DeviceVector.ofGraph_eq_placement postOrder_fanCopied numbered (by decide)]
  rfl

theorem postOrder_fanGraph : (fanGraph #[{ node := ⟨0, 1⟩ }, { node := ⟨0, 2⟩ }]).postOrder =
    .ok [⟨0, 0⟩, ⟨0, 1⟩, ⟨0, 2⟩] := by cbv

theorem splice_fanGraph : ∃ trace,
    (fanGraph #[{ node := ⟨0, 1⟩ }, { node := ⟨0, 2⟩ }]).splice {} .deviceCopy =
      .ok ⟨fanCopied, #[⟨0, 3⟩, ⟨0, 4⟩], trace⟩ := by
  rw [Graph.splice_eq_foldlM postOrder_fanGraph]
  exact ⟨_, rfl⟩

theorem sameDemand_fanGraph :
    (fanGraph #[{ node := ⟨0, 1⟩ }, { node := ⟨0, 2⟩ }]).SameDemand
      (fanGraph #[{ node := ⟨0, 2⟩ }, { node := ⟨0, 1⟩ }, { node := ⟨0, 2⟩ }]) where
  arena := rfl
  nodes := rfl
  attrs := rfl
  outputs e := by
    simp only [fanGraph, List.mem_toArray, List.mem_cons, List.not_mem_nil, or_false]
    tauto

theorem sameUpToOrder_fanGraph :
    SameUpToOrder (fanGraph #[{ node := ⟨0, 1⟩ }, { node := ⟨0, 2⟩ }])
      (fanGraph #[{ node := ⟨0, 2⟩ }, { node := ⟨0, 1⟩ }, { node := ⟨0, 2⟩ }]) ∧
    ∃ report' devices', (CopySettings.insertCopies {} (fanGraph #[{ node := ⟨0, 2⟩ },
        { node := ⟨0, 1⟩ }, { node := ⟨0, 2⟩ }]) .builtin 3).result = .ok report' ∧
      report'.copies.length = 2 ∧
      report'.graph.attrs.get .devices "device_index" = .ok devices' ∧
      devices'.toList.Perm [⟨0⟩, ⟨1⟩, ⟨1⟩, ⟨2⟩, ⟨2⟩] := by
  have same := sameUpToOrder_of_sameDemand sameDemand_fanGraph
  obtain ⟨trace, spliced⟩ := splice_fanGraph
  have succeeded := congrArg Outcome.result (CopySettings.insertCopies_of_splice
    CopySettings.findCopyOp_builtin spliced ofGraph_fanCopied 0)
  have fits : CopySettings.Fits {} (fanGraph #[{ node := ⟨0, 1⟩ }, { node := ⟨0, 2⟩ }])
      .builtin := by
    intro op order chosen walked
    cases CopySettings.findCopyOp_builtin.symm.trans chosen
    cases postOrder_fanGraph.symm.trans walked
    decide
  obtain ⟨report', succeeded'⟩ := (same.inserts {} .builtin 0 3 fits).mp ⟨_, succeeded⟩
  obtain ⟨f, renumbered⟩ := same.insertion {} .builtin 0 3 _ _ succeeded succeeded'
  obtain ⟨devices, devices', published, published', perm⟩ := renumbered.devices
  rw [CopySettings.get_publish] at published
  cases published
  have permuted := perm _
    ((CopySettings.postOrder_publish _ _ _ _).trans postOrder_fanCopied) (by decide)
  exact ⟨same, report', devices', succeeded', renumbered.copies.length_eq.symm, published',
    permuted⟩

end Placement
