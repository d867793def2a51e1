import Placement.Proofs.Copy.Insertion

namespace Placement

variable {P : Client} {g : Graph P} {order : List NodeId} {n : Numbering} {devices : Array Device}

namespace DeviceVector

/-- There is one device for each entry, and at the number of an output it is that of its node. -/
structure Aligned (g : Graph P) (n : Numbering) (devices : Array Device) : Prop where
  size : devices.size = n.numEntries
  entries : ∀ number slot own node, n.nodes[number.toNat]? = some own →
    g.node? own.source = some node → slot < node.numOutputs →
    ∃ i, (n.entryId number slot : Checked GraphError Nat) = .ok i ∧ devices[i]? = some node.device

/-- The devices of the nodes in the order of the walk, each as often as the node has outputs. The
first round of writing leaves them, and the second changes nothing. -/
structure Filled (g : Graph P) (order : List NodeId) (n : Numbering) (devices : Array Device) :
    Prop extends Aligned g n devices where
  content : devices.toList = g.placement order
  first : seeded g n = .ok devices
  second : overwritten g n devices = .ok devices

section

variable (walked : g.postOrder = .ok order) (numbered : Numbering.ofGraph g = .ok n)
  (few : order.length < UInt32.size)

include walked numbered few

theorem aligned_of_placement (content : devices.toList = g.placement order) :
    Aligned g n devices := by
  constructor
  · rw [← Array.length_toList, content, Graph.length_placement,
      Numbering.numEntries_eq walked numbered]
  · intro number slot own node here found small
    have listed : order[number.toNat]? = some own.source := by
      rw [← Numbering.source_getElem? walked numbered, here]
      rfl
    have has : n.HasOutput g number slot := ⟨own, node, here, found, small⟩
    have entry := (Numbering.entryId_of_hasOutput walked numbered few has).1
    have device := Graph.placement_getElem? listed found (UInt32.lt_iff_toNat_lt.mp small)
    rw [← content, Array.getElem?_toList] at device
    exact ⟨_, entry, device⟩

theorem filled_placement : Filled g order n (g.placement order).toArray where
  toAligned := aligned_of_placement walked numbered few rfl
  content := rfl
  first := seeded_eq walked numbered few
  second := overwritten_eq walked numbered few rfl

end

theorem ofGraph_of_unnumbered {fault : Fault GraphError}
    (failed : Numbering.ofGraph g = .error fault) : ofGraph g = .error fault := by
  simp [ofGraph, failed, bind, Except.bind]

theorem aligned_of_ofGraph (walked : g.postOrder = .ok order) (few : order.length < UInt32.size)
    (numbered : Numbering.ofGraph g = .ok n) (placed : ofGraph g = .ok devices) :
    Aligned g n devices := by
  cases placed.symm.trans (ofGraph_eq_placement walked numbered few)
  exact aligned_of_placement walked numbered few rfl

end DeviceVector

variable [CustomParsers P]

/-- The device vector of a graph is an error of its numbering or, as long as words can number the
nodes, tells the device of every entry. The one that copy insertion publishes is that of the graph
it returns. -/
theorem deviceVector_aligned (settings : CopySettings) (g : Graph P) (ops : OpRegistry P)
    (free : Nat) :
    (∀ fault, Numbering.ofGraph g = .error fault → DeviceVector.ofGraph g = .error fault) ∧
    (∀ order n, g.postOrder = .ok order → order.length < UInt32.size →
      Numbering.ofGraph g = .ok n → ∃ devices, DeviceVector.ofGraph g = .ok devices ∧
        DeviceVector.Filled g order n devices) ∧
    ∀ report, (settings.insertCopies g ops free).result = .ok report → ∃ devices n,
      report.graph.attrs.get .devices settings.attrKey = .ok devices ∧
      DeviceVector.ofGraph report.graph = .ok devices ∧
      Numbering.ofGraph report.graph = .ok n ∧ devices.size = n.numEntries ∧
      ∀ order, report.graph.postOrder = .ok order → order.length < UInt32.size →
        DeviceVector.Aligned report.graph n devices := by
  refine ⟨fun fault => DeviceVector.ofGraph_of_unnumbered, ?_, ?_⟩
  · intro order n walked few numbered
    exact ⟨_, DeviceVector.ofGraph_eq_placement walked numbered few,
      DeviceVector.filled_placement walked numbered few⟩
  · intro report succeeded
    obtain ⟨op, s, devices, _, _, placed, rfl⟩ := CopySettings.insertCopies_eq_ok succeeded
    have same : DeviceVector.ofGraph (settings.publish s.graph devices free) =
        DeviceVector.ofGraph s.graph := DeviceVector.ofGraph_congr (fun _ => rfl) rfl
    have published := same.trans placed
    obtain ⟨n, numbered⟩ := DeviceVector.numbered_of_ofGraph published
    exact ⟨devices, n, settings.get_publish _ _ _, published, numbered,
      DeviceVector.size_of_ofGraph numbered published, fun order walked few =>
        DeviceVector.aligned_of_ofGraph walked few numbered published⟩

inductive Literal where
  | text
deriving DecidableEq

instance : TypeUniverse Literal := ⟨fun _ => String, fun _ => "&str"⟩

abbrev literals : Client where
  Parser := Empty
  Kind := Literal

instance : CustomParsers literals := ⟨Empty.elim⟩

/-- A crossing, and a value of the client's own type under the key that is to receive the
devices. -/
def staleGraph : Graph literals where
  arena := 0
  nodes := #[
    { attrs := { name := "x", device := ⟨0⟩ } },
    { attrs := { name := "y", op := some { name := "relu" }, device := ⟨1⟩ }
      inputs := #[{ node := ⟨0, 0⟩ }] }]
  outputs := #[{ node := ⟨0, 1⟩ }]
  attrs := Store.empty.insert "device_index" ⟨0, ⟨.custom .text, "stale"⟩⟩

def staleCopied : Graph literals where
  arena := 0
  nodes := #[
    { attrs := { name := "x", device := ⟨0⟩ } },
    { attrs := { name := "y", op := some { name := "relu" }, device := ⟨1⟩ }
      inputs := #[{ node := ⟨0, 2⟩ }] },
    { attrs := {
        name := "__copy_x_to_y"
        op := some .deviceCopy
        device := ⟨1⟩
        payload := some (.copyTo ⟨1⟩) }
      inputs := #[{ node := ⟨0, 0⟩ }] }]
  outputs := #[{ node := ⟨0, 1⟩ }]
  attrs := staleGraph.attrs

theorem deviceVector_aligned_stale :
    staleGraph.attrs.get (.custom .text) "device_index" = .ok "stale" ∧
      (∃ devices n, Numbering.ofGraph staleGraph = .ok n ∧
        DeviceVector.Filled staleGraph [⟨0, 0⟩, ⟨0, 1⟩] n devices) ∧
      ∃ report devices n, (CopySettings.insertCopies {} staleGraph .builtin 1).result =
          .ok report ∧ report.graph.attrs.get .devices "device_index" = .ok devices ∧
        Numbering.ofGraph report.graph = .ok n ∧
        DeviceVector.Aligned report.graph n devices := by
  have walked : staleGraph.postOrder = .ok [⟨0, 0⟩, ⟨0, 1⟩] := by cbv
  have walked' : staleCopied.postOrder = .ok [⟨0, 0⟩, ⟨0, 2⟩, ⟨0, 1⟩] := by cbv
  obtain ⟨_, vector, published⟩ := deviceVector_aligned {} staleGraph .builtin 1
  refine ⟨by simp [Store.get, staleGraph, Store.find?_insert, AttrValue.at?], ?_, ?_⟩
  · obtain ⟨n, numbered⟩ := Numbering.ofGraph_ok_of_numberable walked (by decide)
    obtain ⟨devices, _, filled⟩ := vector _ n walked (by decide) numbered
    exact ⟨devices, n, numbered, filled⟩
  · have spliced : ∃ trace, staleGraph.splice {} .deviceCopy =
        .ok ⟨staleCopied, #[⟨0, 2⟩], trace⟩ := by
      rw [Graph.splice_eq_foldlM walked]
      exact ⟨_, rfl⟩
    obtain ⟨trace, spliced⟩ := spliced
    obtain ⟨n, numbered⟩ := Numbering.ofGraph_ok_of_numberable walked' (by decide)
    have succeeded := congrArg Outcome.result (CopySettings.insertCopies_of_splice
      CopySettings.findCopyOp_builtin spliced
      (DeviceVector.ofGraph_eq_placement walked' numbered (by decide)) 1)
    obtain ⟨devices, n, stored, _, numbered', _, aligned⟩ := published _ succeeded
    exact ⟨_, devices, n, succeeded, stored, numbered',
      aligned _ ((CopySettings.postOrder_publish _ _ _ _).trans walked') (by decide)⟩

end Placement
