import Placement.DeviceVector
import Placement.Proofs.Loop
import Placement.Proofs.Numbering.EntryIds

namespace Placement

variable {P : Client} {g : Graph P}

namespace Graph

def entryDevices (g : Graph P) (id : NodeId) : List Device :=
  match g.node? id with
  | some node => List.replicate node.numOutputs.toNat node.device
  | none => []

def placement (g : Graph P) (order : List NodeId) : List Device := order.flatMap g.entryDevices

theorem entryDevices_of_node? {id : NodeId} {node : Node P} (found : g.node? id = some node) :
    g.entryDevices id = List.replicate node.numOutputs.toNat node.device := by
  simp [entryDevices, found]

theorem length_entryDevices (g : Graph P) (id : NodeId) :
    (g.entryDevices id).length = g.width id := by
  cases found : g.node? id with
  | none => simp [entryDevices, width, found]
  | some node => simp [entryDevices, width, found]

theorem length_placement (g : Graph P) (order : List NodeId) :
    (g.placement order).length = g.entryCount order := by
  induction order with
  | nil => rfl
  | cons id order ih =>
    simp only [placement, List.flatMap_cons, List.length_append, length_entryDevices, entryCount]
    rw [← ih]
    rfl

theorem placement_append (g : Graph P) (front back : List NodeId) :
    g.placement (front ++ back) = g.placement front ++ g.placement back := List.flatMap_append

theorem placement_cons (g : Graph P) (id : NodeId) (ids : List NodeId) :
    g.placement (id :: ids) = g.entryDevices id ++ g.placement ids := List.flatMap_cons

theorem placement_getElem? {order : List NodeId} {j : Nat} {id : NodeId} {node : Node P}
    (listed : order[j]? = some id) (found : g.node? id = some node) {slot : Nat}
    (small : slot < node.numOutputs.toNat) :
    (g.placement order)[g.entryCount (order.take j) + slot]? = some node.device := by
  obtain ⟨inside, here⟩ := List.getElem?_eq_some_iff.mp listed
  have cut : order.drop j = id :: order.drop (j + 1) := by
    rw [List.drop_eq_getElem_cons inside, here]
  have own : slot < (g.entryDevices id).length := by
    rw [length_entryDevices, width_of_node? found]
    exact small
  have parts : g.placement order =
      g.placement (order.take j) ++ (g.entryDevices id ++ g.placement (order.drop (j + 1))) := by
    rw [← placement_cons, ← cut, ← placement_append, List.take_append_drop]
  rw [parts, ← length_placement, List.getElem?_append_right (by omega), Nat.add_sub_cancel_left,
    List.getElem?_append_left own, entryDevices_of_node? found]
  simp [small]

end Graph

namespace DeviceVector

theorem foldlM_fixed {ε α σ : Type} {f : σ → α → Except ε σ} {s : σ} {l : List α}
    (still : ∀ a ∈ l, f s a = .ok s) : l.foldlM f s = .ok s := by
  induction l with
  | nil => rfl
  | cons a l ih =>
    rw [List.foldlM_cons, still a (by simp)]
    exact ih (fun b member => still b (by simp [member]))

theorem toList_fill_loop (device : Device) (count first : Nat) (devices : Array Device)
    (room : first + count ≤ devices.size) :
    ((List.range' first count).foldl (fun devices entry => devices.setIfInBounds entry device)
      devices).toList =
      devices.toList.take first ++ List.replicate count device ++
        devices.toList.drop (first + count) := by
  induction count generalizing first devices with
  | zero => simp
  | succ count ih =>
    rw [List.range'_succ, List.foldl_cons, ih (first + 1) _ (by simp; omega)]
    have inside : first < devices.toList.length := by simp; omega
    have before : (devices.toList.set first device).take (first + 1) =
        devices.toList.take first ++ [device] := by
      rw [List.take_add_one, List.take_set_of_le (Nat.le_refl first),
        List.getElem?_set_self inside]
      rfl
    have after : (devices.toList.set first device).drop (first + 1 + count) =
        devices.toList.drop (first + (count + 1)) := by
      rw [List.drop_set_of_lt (by omega)]
      congr 1
      omega
    rw [Array.toList_setIfInBounds, before, after, List.replicate_succ]
    simp

theorem seedNode_eq_ok {n : Numbering} {devices next : Array Device} {number : UInt32}
    (seeds : seedNode g n devices number = .ok next) :
    ∃ device first following stop, deviceOf g n number = .ok device ∧
      (n.entryId number 0 : Checked GraphError Nat) = .ok first ∧
      addWords? number 1 = some following ∧
      (n.entryId following 0 : Checked GraphError Nat) = .ok stop ∧
      fill devices first stop device = .ok next := by
  simp only [seedNode, except_bind_eq_ok_iff, Checked.present_eq_ok_iff] at seeds
  obtain ⟨device, own, first, begins, following, counted, stop, ends, filled⟩ := seeds
  exact ⟨device, first, following, stop, own, begins, counted, ends, filled⟩

section

variable {n : Numbering} {devices next : Array Device}

theorem size_fill {first stop : Nat} {device : Device}
    (filled : fill devices first stop device = .ok next) : next.size = devices.size := by
  unfold fill at filled
  split at filled
  next inside =>
    cases filled
    rw [← Array.length_toList, toList_fill_loop _ _ _ _ (by omega)]
    simp
    omega
  next => cases filled

theorem size_write {entry : Nat} {device : Device}
    (written : write devices entry device = .ok next) : next.size = devices.size := by
  unfold write at written
  split at written
  next =>
    cases written
    simp
  next => cases written

theorem size_seedNode {number : UInt32} (seeds : seedNode g n devices number = .ok next) :
    next.size = devices.size := by
  obtain ⟨_, _, _, _, _, _, _, _, filled⟩ := seedNode_eq_ok seeds
  exact size_fill filled

theorem size_writeEdge {e : NumberedEntry} (writes : writeEdge g n devices e = .ok next) :
    next.size = devices.size := by
  simp only [writeEdge, except_bind_eq_ok_iff] at writes
  obtain ⟨_, _, _, _, written⟩ := writes
  exact size_write written

theorem size_writeEdges {edges : List NumberedEntry}
    (writes : edges.foldlM (writeEdge g n) devices = .ok next) : next.size = devices.size :=
  foldlM_invariant (motive := fun d => d.size = devices.size) rfl
    (fun _ _ _ _ size written => (size_writeEdge written).trans size) writes

theorem size_overwritten (writes : overwritten g n devices = .ok next) :
    next.size = devices.size :=
  foldlM_invariant (motive := fun d => d.size = devices.size) rfl
    (fun _ _ _ _ size written => (size_writeEdges written).trans size) writes

theorem size_seeded (seeds : seeded g n = .ok devices) : devices.size = n.numEntries :=
  foldlM_invariant (motive := fun d => d.size = n.numEntries) (by simp)
    (fun _ _ _ _ size seeds => (size_seedNode seeds).trans size) seeds

end

section

variable {order : List NodeId} (walked : g.postOrder = .ok order) {n : Numbering}
  (numbered : Numbering.ofGraph g = .ok n) (few : order.length < UInt32.size)

include walked numbered few

theorem entryIdFor_eq {j : Nat} {id : NodeId} (listed : order[j]? = some id) :
    (n.entryIdFor { node := id } : Checked GraphError (Option Nat)) =
      .ok (some (g.entryCount (order.take j))) := by
  have inside := (List.getElem?_eq_some_iff.mp listed).1
  have number : n.nodeNumber? id = some j.toUInt32 := by
    rw [Numbering.nodeNumber?, Numbering.numbers_of_ofGraph walked numbered]
    exact Numbering.numberNodes_of_getElem? (Graph.nodup_of_postOrder walked) listed
  have entry : (n.entryId j.toUInt32 0 : Checked GraphError Nat) = _ :=
    Numbering.entryId_zero walked numbered few (by omega)
  simp [Numbering.entryIdFor, number, entry, bind, Except.bind, pure, Except.pure]

theorem deviceOf_eq {j : Nat} {id : NodeId} {node : Node P} (listed : order[j]? = some id)
    (found : g.node? id = some node) : deviceOf g n j.toUInt32 = .ok node.device := by
  have inside := (List.getElem?_eq_some_iff.mp listed).1
  have word : j.toUInt32.toNat = j := toNat_toUInt32 (by omega)
  rw [← Numbering.source_getElem? walked numbered] at listed
  obtain ⟨own, here, rfl⟩ := Option.map_eq_some_iff.mp listed
  simp [deviceOf, Numbering.node, word, here, Checked.present, found, bind, Except.bind, pure,
    Except.pure]

/-- Seeding a node extends the devices known so far by those of its entries. -/
theorem seedNode_eq {j : Nat} {id : NodeId} (listed : order[j]? = some id) {blank : Nat}
    {devices : Array Device}
    (known : devices.toList = g.placement (order.take j) ++ List.replicate blank Device.unset)
    (room : g.width id ≤ blank) :
    ∃ seeded, seedNode g n devices j.toUInt32 = .ok seeded ∧
      seeded.toList = g.placement (order.take (j + 1)) ++
        List.replicate (blank - g.width id) Device.unset := by
  obtain ⟨inside, here⟩ := List.getElem?_eq_some_iff.mp listed
  obtain ⟨node, found⟩ := Graph.holds_of_postOrder walked id (List.mem_of_getElem? listed)
  have total := (Numbering.numberable_of_ofGraph walked numbered).small
  have prefixes : order.take (j + 1) = order.take j ++ [id] := by
    rw [List.take_add_one, listed]
    rfl
  have grown : g.entryCount (order.take (j + 1)) = g.entryCount (order.take j) + g.width id := by
    rw [prefixes, g.entryCount_append, g.entryCount_singleton]
  have first : (n.entryId j.toUInt32 0 : Checked GraphError Nat) = _ :=
    Numbering.entryId_zero walked numbered few (by omega)
  have following := addWords?_toUInt32_one (i := j) (by omega)
  have stop : (n.entryId (j + 1).toUInt32 0 : Checked GraphError Nat) = _ :=
    Numbering.entryId_zero walked numbered few (by omega)
  have size : devices.size = g.entryCount (order.take j) + blank := by
    rw [← Array.length_toList, known]
    simp [Graph.length_placement]
  have fits : g.entryCount (order.take j) ≤ g.entryCount (order.take (j + 1)) ∧
      g.entryCount (order.take (j + 1)) ≤ devices.size := by omega
  simp only [seedNode, deviceOf_eq walked numbered few listed found, first, following, stop,
    Checked.present, bind, Except.bind, fill, if_pos fits]
  refine ⟨_, rfl, ?_⟩
  have count : g.entryCount (order.take (j + 1)) - g.entryCount (order.take j) = g.width id := by
    omega
  have single : g.placement [id] = List.replicate (g.width id) node.device := by
    rw [Graph.width_of_node? found, ← Graph.entryDevices_of_node? found]
    exact List.flatMap_singleton g.entryDevices id
  rw [count, toList_fill_loop _ _ _ _ (by omega), known, ← g.length_placement, prefixes,
    Graph.placement_append, single, List.take_left, List.drop_append]
  simp

theorem foldlM_seedNode (count j : Nat) (cut : j + count = order.length) {devices : Array Device}
    (known : devices.toList = g.placement (order.take j) ++
      List.replicate (g.entryCount (order.drop j)) Device.unset) :
    ∃ seeded, ((List.range' j count).map Nat.toUInt32).foldlM (seedNode g n) devices = .ok seeded ∧
      seeded.toList = g.placement order := by
  induction count generalizing j devices with
  | zero =>
    refine ⟨devices, rfl, ?_⟩
    rw [known, List.take_of_length_le (by omega), List.drop_eq_nil_of_le (by omega)]
    simp [Graph.entryCount]
  | succ count ih =>
    have listed : order[j]? = some order[j] := List.getElem?_eq_getElem (by omega)
    have rest : g.entryCount (order.drop j) =
        g.width order[j] + g.entryCount (order.drop (j + 1)) := by
      rw [List.drop_eq_getElem_cons (by omega), Graph.entryCount]
    obtain ⟨seeded, step, known'⟩ := seedNode_eq walked numbered few listed known (by omega)
    rw [rest, Nat.add_sub_cancel_left] at known'
    obtain ⟨final, folded, all⟩ := ih (j + 1) (by omega) known'
    refine ⟨final, ?_, all⟩
    rw [List.range'_succ, List.map_cons, List.foldlM_cons, step]
    exact folded

theorem writeEdge_eq {devices : Array Device} (known : devices.toList = g.placement order)
    {e : Entry} {edge : NumberedEntry} (member : e.node ∈ order)
    (read : Numbering.numberEntry g (Numbering.numberNodes order) e = .ok edge) :
    writeEdge g n devices edge = .ok devices := by
  obtain ⟨producer, found, small⟩ := Numbering.valid_of_numberEntry read
  obtain ⟨j, listed, rfl, entry, _⟩ :=
    Numbering.entryId_of_numberEntry walked numbered few member read
  have here := Graph.placement_getElem? listed found (UInt32.lt_iff_toNat_lt.mp small)
  rw [← known, Array.getElem?_toList] at here
  obtain ⟨bound, value⟩ := Array.getElem?_eq_some_iff.mp here
  have unchanged : devices.setIfInBounds (g.entryCount (order.take j) + e.index.toNat)
      producer.device = devices := by
    rw [← value]
    simp [Array.setIfInBounds, bound]
  simp only [writeEdge, entry, deviceOf_eq walked numbered few listed found, bind, Except.bind,
    write, if_pos bound, unchanged]

theorem seeded_eq : seeded g n = .ok (g.placement order).toArray := by
  have start : (Array.replicate n.numEntries Device.unset).toList =
      g.placement (order.take 0) ++ List.replicate (g.entryCount (order.drop 0)) Device.unset := by
    simp [Numbering.numEntries_eq walked numbered, Graph.placement]
  obtain ⟨final, folded, known⟩ :=
    foldlM_seedNode walked numbered few order.length 0 (by omega) start
  have all : n.numNodes.toUInt32.toNat = order.length := by
    rw [Numbering.numNodes_eq walked numbered, toNat_toUInt32 few]
  rw [← List.range_eq_range', ← all] at folded
  rw [← known]
  exact folded

theorem overwritten_eq {devices : Array Device} (known : devices.toList = g.placement order) :
    overwritten g n devices = .ok devices := by
  apply foldlM_fixed
  intro own listed
  apply foldlM_fixed
  intro edge member
  obtain ⟨e, producer, read⟩ := Numbering.exists_numberEntry walked numbered
    (.inr ⟨own, Array.mem_toList_iff.mp listed, member⟩)
  exact writeEdge_eq walked numbered few known producer read

/-- As long as words can number the nodes, a numbered graph has a device vector: the devices of its
nodes in the order of the walk, each as often as the node has outputs. -/
theorem ofGraph_eq_placement : ofGraph g = .ok (g.placement order).toArray := by
  have first := seeded_eq walked numbered few
  have second : overwritten g n (g.placement order).toArray = .ok _ :=
    overwritten_eq walked numbered few rfl
  simp only [ofGraph, ofNumbering, numbered, bind, Except.bind, first, second]

end

theorem numbered_of_ofGraph {devices : Array Device} (placed : ofGraph g = .ok devices) :
    ∃ n, Numbering.ofGraph g = .ok n := by
  cases numbered : Numbering.ofGraph g with
  | error fault => simp [ofGraph, numbered, bind, Except.bind] at placed
  | ok n => exact ⟨n, rfl⟩

theorem size_of_ofGraph {n : Numbering} {devices : Array Device}
    (numbered : Numbering.ofGraph g = .ok n) (placed : ofGraph g = .ok devices) :
    devices.size = n.numEntries := by
  simp only [ofGraph, ofNumbering, numbered, except_bind_eq_ok_iff, Except.ok.injEq] at placed
  obtain ⟨_, rfl, first, seeds, writes⟩ := placed
  rw [size_overwritten writes, size_seeded seeds]

/-- The devices depend on the graph in those of the numbered nodes, and on the numbering in the
entries and the edges. -/
theorem ofNumbering_congr {h : Graph P} {n n' : Numbering} (sources : deviceOf h n' = deviceOf g n)
    (firsts : n'.firstEntries = n.firstEntries)
    (inputs : n'.nodes.map NumberedNode.inputs = n.nodes.map NumberedNode.inputs) :
    ofNumbering h n' = ofNumbering g n := by
  have entries : (n'.entryId : UInt32 → UInt32 → Checked GraphError Nat) = n.entryId := by
    funext number slot
    rw [Numbering.entryId, Numbering.entryId, firsts]
  have seeds : seedNode h n' = seedNode g n := by
    funext devices number
    simp only [seedNode, sources, entries]
  have edges : writeEdge h n' = writeEdge g n := by
    funext devices edge
    simp only [writeEdge, sources, entries]
  have count : n'.numNodes = n.numNodes := by
    simpa [Numbering.numNodes] using congrArg Array.size inputs
  have total : n'.numEntries = n.numEntries := by
    rw [Numbering.numEntries, Numbering.numEntries, firsts]
  have rounds : ∀ (g : Graph P) (n : Numbering), overwritten g n =
      (n.nodes.map NumberedNode.inputs).toList.foldlM
        (fun devices edges => edges.foldlM (writeEdge g n) devices) := by
    intro g n
    funext devices
    rw [Array.toList_map, List.foldlM_map]
    rfl
  simp only [ofNumbering, seeded, seedNumbers, rounds, seeds, edges, count, total, inputs]

theorem ofGraph_congr {h : Graph P} (nodes : ∀ id, g.node? id = h.node? id)
    (outputs : g.outputs = h.outputs) : ofGraph g = ofGraph h := by
  have sources : deviceOf g = deviceOf h := by
    funext n number
    simp only [deviceOf, nodes]
  have devices : ofNumbering g = ofNumbering h :=
    funext (fun n => ofNumbering_congr (congrFun sources n) rfl rfl)
  rw [ofGraph, ofGraph, Numbering.ofGraph_congr nodes outputs, devices]

end DeviceVector
end Placement
