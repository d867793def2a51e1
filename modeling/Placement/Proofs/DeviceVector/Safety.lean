import Mathlib.Data.List.Perm.Subperm
import Placement.Proofs.DeviceVector
import Placement.Proofs.Graph.Outcome
import Placement.Proofs.Graph.Rounds

/-! The device vector is computed without reading or writing out of range. Loops are looked at
where they come to a member of their list, so that an access is shown to be in range in the state
in which it is made, also when the loop is stopped later on. -/
namespace Placement

variable {P : Client} {g : Graph P} {order : List NodeId} {n : Numbering}

def Checked.Answers {ε α : Type} (result : Checked ε α) : Prop :=
  (∃ a, result = .ok a) ∨ ∃ error, result = .report error

namespace Graph

theorem answers_postOrder (g : Graph P) : g.postOrder.Answers := by
  cases walked : g.postOrder with
  | ok order => exact .inl ⟨order, rfl⟩
  | error fault =>
    obtain ⟨error, rfl, _⟩ := explains_of_postOrder walked
    exact .inr ⟨error, rfl⟩

theorem length_postOrder_le (walked : g.postOrder = .ok order) :
    order.length ≤ g.nodes.size := by
  have inside : order ⊆ (List.range g.nodes.size).map g.idAt := by
    intro id member
    obtain ⟨node, found⟩ := holds_of_postOrder walked id member
    refine List.mem_map.mpr ⟨id.index, ?_, idAt_of_node? found⟩
    exact List.mem_range.mpr (index_lt_of_node? found)
  have short := (List.subperm_of_subset (nodup_of_postOrder walked) inside).length_le
  simpa using short

end Graph

namespace Numbering

/-- The node with this number can be asked for, and so can the node of the graph it stands for. -/
def Locates (g : Graph P) (n : Numbering) (number : UInt32) : Prop :=
  number.toNat < n.numNodes ∧ ∃ own, n.nodes[number.toNat]? = some own ∧ g.Has own.source

theorem locates_of_listed (walked : g.postOrder = .ok order) (numbered : ofGraph g = .ok n)
    (few : order.length < UInt32.size) {j : Nat} {id : NodeId} (listed : order[j]? = some id) :
    n.Locates g j.toUInt32 := by
  have inside := (List.getElem?_eq_some_iff.mp listed).1
  have word : j.toUInt32.toNat = j := toNat_toUInt32 (by omega)
  obtain ⟨node, found⟩ := Graph.holds_of_postOrder walked id (List.mem_of_getElem? listed)
  rw [← source_getElem? walked numbered] at listed
  obtain ⟨own, here, rfl⟩ := Option.map_eq_some_iff.mp listed
  refine ⟨?_, own, by rw [word]; exact here, Graph.has_of_node? found⟩
  rw [word, numNodes_eq walked numbered]
  exact inside

theorem answers_ofGraph (g : Graph P) : (ofGraph g).Answers := by
  cases walked : g.postOrder with
  | error fault =>
    obtain ⟨error, rfl, _⟩ := Graph.explains_of_postOrder walked
    exact .inr ⟨error, by simp [ofGraph, walked, bind, Except.bind, Checked.report]⟩
  | ok order =>
    cases numbered : ofGraph g with
    | ok n => exact .inl ⟨n, rfl⟩
    | error fault =>
      obtain ⟨error, rfl, _⟩ := unnumberable_of_ofGraph walked numbered
      exact .inr ⟨error, rfl⟩

/-- Where numbering comes to a node, the node is in the graph, and the first entry of the node
that is to be numbered is known. -/
theorem add_inRange (walked : g.postOrder = .ok order) {id : NodeId} {p : Progress}
    (comes : ComesTo (Progress.add g (numberNodes order)) .start order id p) :
    g.Has id ∧ p.firstEntries[p.nodes.size]? = some p.nextEntry := by
  obtain ⟨node, found⟩ := Graph.holds_of_postOrder walked id comes.mem
  refine ⟨Graph.has_of_node? found, ?_⟩
  obtain ⟨front, back, _, passed⟩ := comes
  have counted := Counted.foldlM front (.start g _) passed
  have size : p.nodes.size = front.length := by
    rw [← Array.length_toList, ← List.length_map, counted.sources]
    rfl
  obtain ⟨first, listed, value⟩ := counted.firsts front.length (Nat.le_refl _)
  rw [size, listed, UInt32.toNat_inj.mp (value.trans ?_)]
  rw [counted.next, List.nil_append, List.take_length]

end Numbering

namespace DeviceVector

variable {devices : Array Device}

structure SeedInRange (g : Graph P) (n : Numbering) (devices : Array Device) (number : UInt32) :
    Prop where
  node : n.Locates g number
  range : ∃ following first stop, addWords? number 1 = some following ∧
    following.toNat ≤ n.numNodes ∧ (n.entryId number 0 : Checked GraphError Nat) = .ok first ∧
    (n.entryId following 0 : Checked GraphError Nat) = .ok stop ∧ first ≤ stop ∧
    stop ≤ devices.size

structure EdgeInRange (g : Graph P) (n : Numbering) (devices : Array Device) (e : NumberedEntry) :
    Prop where
  node : n.Locates g e.node
  entry : ∃ i, (n.entryId e.node e.index : Checked GraphError Nat) = .ok i ∧ i < devices.size

section

variable (walked : g.postOrder = .ok order) (numbered : Numbering.ofGraph g = .ok n)
  (few : order.length < UInt32.size)

include walked numbered few

theorem seed_inRange {number : UInt32}
    (comes : ComesTo (seedNode g n) (Array.replicate n.numEntries Device.unset)
      (seedNumbers n) number devices) :
    SeedInRange g n devices number := by
  have size : devices.size = n.numEntries :=
    comes.invariant (by simp) (fun _ _ _ _ size seeds => (size_seedNode seeds).trans size)
  obtain ⟨j, member, rfl⟩ := List.mem_map.mp comes.mem
  have inside : j < order.length := by
    rw [Numbering.numNodes_eq walked numbered, toNat_toUInt32 few] at member
    exact List.mem_range.mp member
  have listed : order[j]? = some order[j] := List.getElem?_eq_getElem inside
  have following := addWords?_toUInt32_one (i := j) (by omega)
  have word : (j + 1).toUInt32.toNat = j + 1 := toNat_toUInt32 (by omega)
  refine ⟨Numbering.locates_of_listed walked numbered few listed, _, _, _, following, ?_,
    Numbering.entryId_zero walked numbered few (by omega),
    Numbering.entryId_zero walked numbered few (by omega), ?_, ?_⟩
  · rw [word, Numbering.numNodes_eq walked numbered]
    exact inside
  · have grows := g.entryCount_take_le listed (Nat.lt_add_one j)
    omega
  · have parts := g.entryCount_append (order.take (j + 1)) (order.drop (j + 1))
    rw [List.take_append_drop] at parts
    rw [size, Numbering.numEntries_eq walked numbered]
    omega

theorem edge_inRange {own : NumberedNode} {e : NumberedEntry} (listed : own ∈ n.nodes)
    (member : e ∈ own.inputs) (size : devices.size = n.numEntries) :
    EdgeInRange g n devices e := by
  obtain ⟨entry, producer, read⟩ :=
    Numbering.exists_numberEntry walked numbered (.inr ⟨own, listed, member⟩)
  obtain ⟨j, here, rfl, number, below⟩ :=
    Numbering.entryId_of_numberEntry walked numbered few producer read
  exact ⟨Numbering.locates_of_listed walked numbered few here, _, number, size ▸ below⟩

end

/-- The device vector of a graph is computed without reading or writing out of range. -/
structure InRange (g : Graph P) : Prop where
  walk : ∀ w, Walk.Passes g w → Walk.InRange g w
  numbers : ∀ order id p, g.postOrder = .ok order →
    ComesTo (Numbering.Progress.add g (Numbering.numberNodes order)) .start order id p →
    g.Has id ∧ p.firstEntries[p.nodes.size]? = some p.nextEntry
  seeds : ∀ n number devices, Numbering.ofGraph g = .ok n →
    ComesTo (seedNode g n) (Array.replicate n.numEntries Device.unset)
      (seedNumbers n) number devices →
    SeedInRange g n devices number
  edges : ∀ n first own devices e current, Numbering.ofGraph g = .ok n → seeded g n = .ok first →
    ComesTo (fun devices node => node.inputs.foldlM (writeEdge g n) devices) first n.nodes.toList
      own devices →
    ComesTo (writeEdge g n) devices own.inputs e current → EdgeInRange g n current e
  outcome : (ofGraph g).Answers

theorem inRange (small : g.nodes.size < UInt32.size) : InRange g := by
  have few : ∀ order, g.postOrder = .ok order → order.length < UInt32.size :=
    fun order walked => Nat.lt_of_le_of_lt (Graph.length_postOrder_le walked) small
  constructor
  · exact fun w => Walk.inRange_of_passes
  · exact fun order id p walked comes => Numbering.add_inRange walked comes
  · intro n number devices numbered comes
    obtain ⟨order, walked⟩ := Numbering.walked_of_ofGraph numbered
    exact seed_inRange walked numbered (few order walked) comes
  · intro n first own devices e current numbered seeds outer inner
    obtain ⟨order, walked⟩ := Numbering.walked_of_ofGraph numbered
    have before : devices.size = n.numEntries := outer.invariant (size_seeded seeds)
      (fun _ _ _ _ size writes => (size_writeEdges writes).trans size)
    have now : current.size = n.numEntries := inner.invariant before
      (fun _ _ _ _ size written => (size_writeEdge written).trans size)
    exact edge_inRange walked numbered (few order walked) (Array.mem_toList_iff.mp outer.mem)
      inner.mem now
  · rcases Numbering.answers_ofGraph g with ⟨n, numbered⟩ | ⟨error, failed⟩
    · obtain ⟨order, walked⟩ := Numbering.walked_of_ofGraph numbered
      exact .inl ⟨_, ofGraph_eq_placement walked numbered (few order walked)⟩
    · exact .inr ⟨error, by simp [ofGraph, failed, Checked.report, bind, Except.bind]⟩

end DeviceVector

end Placement
