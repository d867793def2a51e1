import Placement.Proofs.DeviceVector

/-! Walks, numbers and devices do not depend on the names of nodes, nor on the order in which the
outputs are listed and how often. The walk may list its nodes in another order then, so that
numbers and devices are the same up to their order. -/
namespace Placement

variable {P : Client}

def Node.unnamed (node : Node P) : Node P := { node with attrs := { node.attrs with name := "" } }

section

variable {node node' : Node P} (alike : node'.unnamed = node.unnamed)

include alike

theorem Node.device_of_alike : node'.device = node.device :=
  (congrArg Node.device alike :)

theorem Node.numOutputs_of_alike : node'.numOutputs = node.numOutputs :=
  (congrArg Node.numOutputs alike :)

theorem Node.inputs_of_alike : node'.inputs = node.inputs :=
  (congrArg Node.inputs alike :)

theorem Node.controlDeps_of_alike : node'.controlDeps = node.controlDeps :=
  (congrArg Node.controlDeps alike :)

theorem Node.isVariable_of_alike : node'.isVariable = node.isVariable :=
  (congrArg Node.isVariable alike :)

theorem Node.dependencies_of_alike : node'.dependencies = node.dependencies :=
  (congrArg Node.dependencies alike :)

end

theorem Graph.Unfolds.exists_of_each {g : Graph P} {ids : List NodeId}
    (each : ∀ id ∈ ids, ∃ listing, g.Unfolds [id] listing) : ∃ listing, g.Unfolds ids listing := by
  induction ids with
  | nil => exact ⟨[], .nil⟩
  | cons id ids ih =>
    obtain ⟨own, single⟩ := each id (by simp)
    obtain ⟨rest, others⟩ := ih (fun a member => each a (by simp [member]))
    exact ⟨own ++ rest, single.append others⟩

/-- Two graphs that differ in the names of their nodes at most, and in the order and repetition of
their outputs. -/
structure Graph.SameShape (g h : Graph P) : Prop where
  nodes : ∀ id, (h.node? id).map Node.unnamed = (g.node? id).map Node.unnamed
  outputs : ∀ e, e ∈ h.outputs ↔ e ∈ g.outputs

namespace Graph.SameShape

variable {g h : Graph P}

theorem symm (same : g.SameShape h) : h.SameShape g where
  nodes id := (same.nodes id).symm
  outputs e := (same.outputs e).symm

section

variable (same : g.SameShape h)

include same

theorem node?_of_found {id : NodeId} {node : Node P} (found : g.node? id = some node) :
    ∃ node', h.node? id = some node' ∧ node'.unnamed = node.unnamed := by
  have there := same.nodes id
  rw [found, Option.map_some, Option.map_eq_some_iff] at there
  exact there

theorem node?_of_missing {id : NodeId} (missing : g.node? id = none) : h.node? id = none := by
  simpa [missing] using same.nodes id

theorem width_eq (id : NodeId) : h.width id = g.width id := by
  cases found : g.node? id with
  | none => simp [width, found, same.node?_of_missing found]
  | some node =>
    obtain ⟨node', found', alike⟩ := same.node?_of_found found
    rw [width_of_node? found, width_of_node? found', Node.numOutputs_of_alike alike]

theorem entryDevices_eq (id : NodeId) : h.entryDevices id = g.entryDevices id := by
  cases found : g.node? id with
  | none => simp [entryDevices, found, same.node?_of_missing found]
  | some node =>
    obtain ⟨node', found', alike⟩ := same.node?_of_found found
    rw [entryDevices_of_node? found, entryDevices_of_node? found',
      Node.numOutputs_of_alike alike, Node.device_of_alike alike]

theorem dependsOn {a b : NodeId} (depends : g.DependsOn a b) : h.DependsOn a b := by
  obtain ⟨node, found, dependency⟩ := depends
  obtain ⟨node', found', alike⟩ := same.node?_of_found found
  exact ⟨node', found', Node.dependencies_of_alike alike ▸ dependency⟩

theorem reachable {id : NodeId} (reached : g.Reachable id) : h.Reachable id := by
  induction reached with
  | output entry listed => exact .output entry ((same.outputs entry).mpr listed)
  | dependency a b _ depends ih => exact .dependency a b ih (same.dependsOn depends)

theorem unfolds {ids listing : List NodeId} (unfolds : g.Unfolds ids listing) :
    h.Unfolds ids listing := by
  induction unfolds with
  | nil => exact .nil
  | cons id ids below rest node found _ _ ihBelow ihRest =>
    obtain ⟨node', found', alike⟩ := same.node?_of_found found
    rw [← Node.dependencies_of_alike alike] at ihBelow
    exact .cons id ids below rest node' found' ihBelow ihRest

theorem reads {e : Entry} (read : g.Reads e) : h.Reads e := by
  rcases read with output | ⟨id, node, reached, found, input⟩
  · exact .inl ((same.outputs e).mpr output)
  · obtain ⟨node', found', alike⟩ := same.node?_of_found found
    exact .inr ⟨id, node', same.reachable reached, found', Node.inputs_of_alike alike ▸ input⟩

theorem validEntry {e : Entry} (valid : g.ValidEntry e) : h.ValidEntry e := by
  obtain ⟨producer, found, small⟩ := valid
  obtain ⟨producer', found', alike⟩ := same.node?_of_found found
  exact ⟨producer', found', Node.numOutputs_of_alike alike ▸ small⟩

/-- Every output unfolds on its own, in whatever place it is listed. -/
theorem exists_postOrder {order : List NodeId} (walked : g.postOrder = .ok order) :
    ∃ order', h.postOrder = .ok order' := by
  obtain ⟨listing, forest, _⟩ := (postOrder_eq_ok_iff g order).mp walked
  have each : ∀ id ∈ h.roots, ∃ listing, h.Unfolds [id] listing := by
    intro id root
    obtain ⟨e, output, rfl⟩ := List.mem_map.mp root
    have listed : e ∈ g.outputs := (same.outputs e).mp (Array.mem_toList_iff.mp output)
    have member : e.node ∈ listing :=
      forest.roots_subset (List.mem_map_of_mem (Array.mem_toList_iff.mpr listed))
    obtain ⟨own, single, _⟩ := forest.settled e.node member
    exact ⟨own, same.unfolds single⟩
  obtain ⟨listing', forest'⟩ := Unfolds.exists_of_each each
  exact ⟨listing'.eraseDups, (postOrder_eq_ok_iff h _).mpr ⟨listing', forest', rfl⟩⟩

theorem postOrder_eq (outputs : h.outputs = g.outputs) {order : List NodeId}
    (walked : g.postOrder = .ok order) : h.postOrder = .ok order := by
  obtain ⟨listing, forest, firsts⟩ := (postOrder_eq_ok_iff g order).mp walked
  have roots : h.roots = g.roots := by rw [roots, outputs, roots]
  exact (postOrder_eq_ok_iff h order).mpr ⟨listing, roots ▸ same.unfolds forest, firsts⟩

end

section

variable (same : g.SameShape h) {order order' : List NodeId} (walked : g.postOrder = .ok order)
  (walked' : h.postOrder = .ok order')

include same walked walked'

theorem postOrder_perm : order'.Perm order := by
  refine (List.perm_ext_iff_of_nodup (nodup_of_postOrder walked')
    (nodup_of_postOrder walked)).mpr (fun id => ?_)
  rw [mem_postOrder_iff walked', mem_postOrder_iff walked]
  exact ⟨same.symm.reachable, same.reachable⟩

theorem entryCount_eq : h.entryCount order' = g.entryCount order := by
  rw [entryCount_perm (same.postOrder_perm walked walked')]
  exact entryCount_congr (fun id _ => same.width_eq id)

theorem placement_perm : (h.placement order').Perm (g.placement order) := by
  have devices : h.entryDevices = g.entryDevices := funext same.entryDevices_eq
  rw [placement, devices, placement]
  exact (same.postOrder_perm walked walked').flatMap_right _

theorem numberable (numberable : g.Numberable order) : h.Numberable order' := by
  obtain ⟨valid, small⟩ := (numberable_iff walked).mp numberable
  refine (numberable_iff walked').mpr ⟨fun e read => ?_, ?_⟩
  · exact same.validEntry (valid e (same.symm.reads read))
  · rw [same.entryCount_eq walked walked']
    exact small

end

theorem exists_numbering (same : g.SameShape h) {n : Numbering}
    (numbered : Numbering.ofGraph g = .ok n) : ∃ n', Numbering.ofGraph h = .ok n' ∧
      n'.numNodes = n.numNodes ∧ n'.numEntries = n.numEntries := by
  obtain ⟨order, walked⟩ := Numbering.walked_of_ofGraph numbered
  obtain ⟨order', walked'⟩ := same.exists_postOrder walked
  have numberable := Numbering.numberable_of_ofGraph walked numbered
  obtain ⟨n', numbered'⟩ := Numbering.ofGraph_ok_of_numberable walked'
    (same.numberable walked walked' numberable)
  refine ⟨n', numbered', ?_, ?_⟩
  · rw [Numbering.numNodes_eq walked' numbered', Numbering.numNodes_eq walked numbered]
    exact (same.postOrder_perm walked walked').length_eq
  · rw [Numbering.numEntries_eq walked' numbered', Numbering.numEntries_eq walked numbered]
    exact same.entryCount_eq walked walked'

section

variable (same : g.SameShape h)

include same

theorem numberEntry_eq {numbers : Std.HashMap NodeId UInt32} {e : Entry} {edge : NumberedEntry}
    (numbered : Numbering.numberEntry g numbers e = .ok edge) :
    Numbering.numberEntry h numbers e = .ok edge := by
  obtain ⟨producer, found, _⟩ := Numbering.valid_of_numberEntry numbered
  obtain ⟨producer', found', alike⟩ := same.node?_of_found found
  simp only [Numbering.numberEntry, found, found', Node.numOutputs_of_alike alike]
    at numbered ⊢
  split
  next beyond => simp [if_pos beyond, Checked.report] at numbered
  next inside => simpa only [if_neg inside] using numbered

theorem mapM_numberEntry_eq {numbers : Std.HashMap NodeId UInt32} {entries : List Entry}
    {edges : List NumberedEntry}
    (numbered : entries.mapM (Numbering.numberEntry g numbers) = .ok edges) :
    entries.mapM (Numbering.numberEntry h numbers) = .ok edges := by
  rw [mapM_eq_ok_iff] at numbered ⊢
  exact numbered.imp (fun _ _ => same.numberEntry_eq)

theorem add_eq {numbers : Std.HashMap NodeId UInt32} {p q : Numbering.Progress} {id : NodeId}
    (added : p.add g numbers id = .ok q) : p.add h numbers id = .ok q := by
  rw [Numbering.Progress.add_eq_ok_iff] at added ⊢
  obtain ⟨node, inputs, controlDeps, next, found, reads, controls, total, rfl⟩ := added
  obtain ⟨node', found', alike⟩ := same.node?_of_found found
  refine ⟨node', inputs, controlDeps, next, found', ?_, ?_, ?_, ?_⟩
  · rw [Node.inputs_of_alike alike]
    exact same.mapM_numberEntry_eq reads
  · rw [Node.controlDeps_of_alike alike]
    exact controls
  · rw [Node.numOutputs_of_alike alike]
    exact total
  · rw [Node.isVariable_of_alike alike]

theorem numbering_eq (outputs : h.outputs = g.outputs) {n : Numbering}
    (numbered : Numbering.ofGraph g = .ok n) : Numbering.ofGraph h = .ok n := by
  obtain ⟨order, walked⟩ := Numbering.walked_of_ofGraph numbered
  obtain ⟨p, edges, counted, listed, rfl⟩ :=
    (Numbering.ofGraph_eq_ok_iff walked n).mp numbered
  refine (Numbering.ofGraph_eq_ok_iff (same.postOrder_eq outputs walked) _).mpr
    ⟨p, edges, foldlM_of_steps (fun _ _ _ => same.add_eq) counted, ?_, rfl⟩
  rw [outputs]
  exact same.mapM_numberEntry_eq listed

theorem deviceOf_eq : DeviceVector.deviceOf h = DeviceVector.deviceOf g := by
  funext n number
  unfold DeviceVector.deviceOf
  cases (n.node number : Checked GraphError NumberedNode) with
  | error fault => rfl
  | ok own =>
    cases found : g.node? own.source with
    | none => simp [same.node?_of_missing found, found, bind, Except.bind, Checked.present]
    | some node =>
      obtain ⟨node', found', alike⟩ := same.node?_of_found found
      simp [found', found, bind, Except.bind, Checked.present, Node.device_of_alike alike]

/-- With the outputs in one order there is one numbering, and so the devices are the same, however
many nodes there are. -/
theorem devices_eq (outputs : h.outputs = g.outputs) {devices : Array Device}
    (placed : DeviceVector.ofGraph g = .ok devices) : DeviceVector.ofGraph h = .ok devices := by
  obtain ⟨n, numbered⟩ := DeviceVector.numbered_of_ofGraph placed
  have vector : DeviceVector.ofNumbering h n = DeviceVector.ofNumbering g n :=
    DeviceVector.ofNumbering_congr (congrFun same.deviceOf_eq n) rfl rfl
  simp only [DeviceVector.ofGraph, numbered, same.numbering_eq outputs numbered, bind,
    Except.bind] at placed ⊢
  rw [vector, placed]

/-- The orders of the two walks differ, and so do the places of the devices. -/
theorem exists_devices {order : List NodeId} (walked : g.postOrder = .ok order)
    (few : order.length < UInt32.size) {devices : Array Device}
    (placed : DeviceVector.ofGraph g = .ok devices) :
    ∃ devices', DeviceVector.ofGraph h = .ok devices' ∧ devices'.toList.Perm devices.toList := by
  obtain ⟨n, numbered⟩ := DeviceVector.numbered_of_ofGraph placed
  obtain ⟨n', numbered', _⟩ := same.exists_numbering numbered
  obtain ⟨order', walked'⟩ := same.exists_postOrder walked
  have few' : order'.length < UInt32.size := by
    rw [(same.postOrder_perm walked walked').length_eq]
    exact few
  cases placed.symm.trans (DeviceVector.ofGraph_eq_placement walked numbered few)
  exact ⟨_, DeviceVector.ofGraph_eq_placement walked' numbered' few',
    same.placement_perm walked walked'⟩

end

end Graph.SameShape
end Placement
