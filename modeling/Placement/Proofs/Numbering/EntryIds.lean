import Placement.Proofs.Numbering

namespace Placement

theorem toNat_toUInt32 {i : Nat} (small : i < UInt32.size) : i.toUInt32.toNat = i := by
  simpa using Nat.mod_eq_of_lt small

theorem addWords?_toUInt32_one {i : Nat} (small : i + 1 < UInt32.size) :
    addWords? i.toUInt32 1 = some (i + 1).toUInt32 := by
  have word := toNat_toUInt32 (i := i) (by omega)
  rw [addWords?, if_pos (by rw [word]; simp; omega)]
  simp

variable {P : Client} {g : Graph P}

namespace Numbering

theorem walked_of_ofGraph {n : Numbering} (numbered : ofGraph g = .ok n) :
    ∃ order, g.postOrder = .ok order := by
  cases walked : g.postOrder with
  | error fault => simp [ofGraph, walked, bind, Except.bind] at numbered
  | ok order => exact ⟨order, rfl⟩

section

variable {order : List NodeId} (walked : g.postOrder = .ok order) {n : Numbering}
  (numbered : ofGraph g = .ok n)

include walked numbered

theorem sources_eq : n.nodes.toList.map NumberedNode.source = order := by
  obtain ⟨p, counted, nodes, _⟩ := counted_of_ofGraph walked numbered
  rw [nodes]
  exact counted.sources

theorem numNodes_eq : n.numNodes = order.length := by
  rw [numNodes, ← sources_eq walked numbered]
  simp

theorem source_getElem? (j : Nat) : n.nodes[j]?.map NumberedNode.source = order[j]? := by
  rw [← sources_eq walked numbered]
  simp

theorem numEntries_eq : n.numEntries = g.entryCount order := by
  obtain ⟨p, counted, _, firsts⟩ := counted_of_ofGraph walked numbered
  obtain ⟨last, listed, value⟩ := counted.firsts order.length (Nat.le_refl _)
  have back : n.firstEntries.back? = some last := by
    rw [firsts, Array.back?_eq_getElem?, counted.size]
    exact listed
  simpa [numEntries, back] using value

theorem entryCount_take_lt (j : Nat) : g.entryCount (order.take j) < UInt32.size := by
  have total := (numberable_of_ofGraph walked numbered).small
  have parts := g.entryCount_append (order.take j) (order.drop j)
  rw [List.take_append_drop] at parts
  omega

theorem entryId_eq (j : Nat) (inside : j ≤ order.length) (small : j < UInt32.size) (slot : UInt32)
    (room : g.entryCount (order.take j) + slot.toNat < UInt32.size) :
    (n.entryId j.toUInt32 slot : Checked GraphError Nat) =
      .ok (g.entryCount (order.take j) + slot.toNat) := by
  obtain ⟨p, counted, _, firsts⟩ := counted_of_ofGraph walked numbered
  obtain ⟨first, listed, value⟩ := counted.firsts j inside
  have sum : addWords? first slot = some (first + slot) := if_pos (by omega)
  have total := toNat_of_addWords? sum
  simp only [entryId, toNat_toUInt32 small, firsts, listed, Checked.present, sum, bind,
    Except.bind, pure, Except.pure, total, value]

variable (few : order.length < UInt32.size)

include few

theorem entryId_zero {j : Nat} (inside : j ≤ order.length) :
    (n.entryId j.toUInt32 0 : Checked GraphError Nat) = .ok (g.entryCount (order.take j)) :=
  entryId_eq walked numbered j inside (by omega) 0 (entryCount_take_lt walked numbered j)

/-- The number of an output that its node has, which is below the total. -/
theorem entryId_of_listed {j : Nat} {id : NodeId} {slot : UInt32} (listed : order[j]? = some id)
    (small : slot.toNat < g.width id) :
    (n.entryId j.toUInt32 slot : Checked GraphError Nat) =
        .ok (g.entryCount (order.take j) + slot.toNat) ∧
      g.entryCount (order.take j) + slot.toNat < n.numEntries := by
  have inside := (List.getElem?_eq_some_iff.mp listed).1
  have before := g.entryCount_take_le listed inside
  rw [List.take_length] at before
  have total := (numberable_of_ofGraph walked numbered).small
  rw [numEntries_eq walked numbered]
  exact ⟨entryId_eq walked numbered j (by omega) (by omega) slot (by omega), by omega⟩

/-- A numbered entry has the number of its node, and its own number. -/
theorem entryId_of_numberEntry {e : Entry} {edge : NumberedEntry} (member : e.node ∈ order)
    (read : numberEntry g (numberNodes order) e = .ok edge) :
    ∃ j, order[j]? = some e.node ∧ edge = ⟨j.toUInt32, e.index, e.version⟩ ∧
      (n.entryId edge.node edge.index : Checked GraphError Nat) =
        .ok (g.entryCount (order.take j) + e.index.toNat) ∧
      g.entryCount (order.take j) + e.index.toNat < n.numEntries := by
  have valid := valid_of_numberEntry read
  obtain ⟨j, listed, same⟩ :=
    numberEntry_of_valid (Graph.nodup_of_postOrder walked) valid member
  obtain rfl : edge = _ := Except.ok.inj (read.symm.trans same)
  obtain ⟨producer, found, small⟩ := valid
  have narrow : e.index.toNat < g.width e.node := by
    rw [Graph.width_of_node? found]
    exact UInt32.lt_iff_toNat_lt.mp small
  exact ⟨j, listed, rfl, entryId_of_listed walked numbered few listed narrow⟩

end

def HasOutput (g : Graph P) (n : Numbering) (number slot : UInt32) : Prop :=
  ∃ numbered node, n.nodes[number.toNat]? = some numbered ∧
    g.node? numbered.source = some node ∧ slot < node.numOutputs

/-- The numbers of entries are those below the total, one for each output of each node, and grow
with the node and then with the slot. The first number of a node is the count of the outputs of
the nodes before it, and every entry that the numbering holds has a number. -/
structure GapFree (g : Graph P) (n : Numbering) : Prop where
  below : ∀ number slot, n.HasOutput g number slot →
    ∃ i, (n.entryId number slot : Checked GraphError Nat) = .ok i ∧ i < n.numEntries
  onto : ∀ i, i < n.numEntries → ∃! place : UInt32 × UInt32,
    n.HasOutput g place.1 place.2 ∧
      (n.entryId place.1 place.2 : Checked GraphError Nat) = .ok i
  increasing : ∀ number slot number' slot' i i', n.HasOutput g number slot →
    n.HasOutput g number' slot' → (n.entryId number slot : Checked GraphError Nat) = .ok i →
    (n.entryId number' slot' : Checked GraphError Nat) = .ok i' →
    (number < number' ∨ number = number' ∧ slot < slot') → i < i'
  first : ∀ number : UInt32, number.toNat ≤ n.numNodes →
    (n.entryId number 0 : Checked GraphError Nat) =
      .ok (g.entryCount ((n.nodes.toList.take number.toNat).map NumberedNode.source))
  total : (n.entryId n.numNodes.toUInt32 0 : Checked GraphError Nat) = .ok n.numEntries
  held : ∀ e, (e ∈ n.outputs ∨ ∃ node ∈ n.nodes, e ∈ node.inputs) →
    ∃ i, (n.entryId e.node e.index : Checked GraphError Nat) = .ok i ∧ i < n.numEntries

section

variable {order : List NodeId} (walked : g.postOrder = .ok order) {n : Numbering}
  (numbered : ofGraph g = .ok n)

include walked numbered

theorem hasOutput_iff (number slot : UInt32) : n.HasOutput g number slot ↔
    ∃ id, order[number.toNat]? = some id ∧ slot.toNat < g.width id := by
  rw [← source_getElem? walked numbered]
  constructor
  · rintro ⟨own, node, listed, found, small⟩
    refine ⟨own.source, by rw [listed]; rfl, ?_⟩
    rw [Graph.width_of_node? found]
    exact UInt32.lt_iff_toNat_lt.mp small
  · rintro ⟨id, source, small⟩
    obtain ⟨own, listed, rfl⟩ := Option.map_eq_some_iff.mp source
    cases found : g.node? own.source with
    | none => simp [Graph.width, found] at small
    | some node =>
      rw [Graph.width_of_node? found] at small
      exact ⟨own, node, listed, found, UInt32.lt_iff_toNat_lt.mpr small⟩

/-- An entry that the numbering holds stands for one of the graph. -/
theorem exists_numberEntry {edge : NumberedEntry}
    (held : edge ∈ n.outputs ∨ ∃ node ∈ n.nodes, edge ∈ node.inputs) :
    ∃ e, e.node ∈ order ∧ numberEntry g (numberNodes order) e = .ok edge := by
  rcases held with output | ⟨own, listed, input⟩
  · obtain ⟨e, member, read⟩ :=
      exists_of_mem_right ((mapM_eq_ok_iff _ _ _).mp (outputs_of_ofGraph walked numbered)) output
    exact ⟨e, Graph.output_mem_postOrder walked (Array.mem_toList_iff.mp member), read⟩
  · obtain ⟨source, node, found, reads, _⟩ := node_of_ofGraph walked numbered listed
    obtain ⟨e, member, read⟩ := exists_of_mem_right ((mapM_eq_ok_iff _ _ _).mp reads) input
    refine ⟨e, Graph.dependencies_subset_postOrder walked source found ?_, read⟩
    exact Node.mem_dependencies_of_input (Array.mem_toList_iff.mp member)

variable (few : order.length < UInt32.size)

include few

theorem entryId_of_hasOutput {number slot : UInt32} (has : n.HasOutput g number slot) :
    (n.entryId number slot : Checked GraphError Nat) =
        .ok (g.entryCount (order.take number.toNat) + slot.toNat) ∧
      g.entryCount (order.take number.toNat) + slot.toNat < n.numEntries := by
  obtain ⟨id, listed, small⟩ := (hasOutput_iff walked numbered number slot).mp has
  have word : number.toNat.toUInt32 = number := UInt32.ofNat_toNat
  have own := entryId_of_listed walked numbered few listed small
  rwa [word] at own

theorem entryId_lt {number slot number' slot' : UInt32} {i i' : Nat}
    (has : n.HasOutput g number slot) (has' : n.HasOutput g number' slot')
    (entry : (n.entryId number slot : Checked GraphError Nat) = .ok i)
    (entry' : (n.entryId number' slot' : Checked GraphError Nat) = .ok i')
    (earlier : number < number' ∨ number = number' ∧ slot < slot') : i < i' := by
  have value := entry.symm.trans (entryId_of_hasOutput walked numbered few has).1
  have value' := entry'.symm.trans (entryId_of_hasOutput walked numbered few has').1
  cases value
  cases value'
  rcases earlier with before | ⟨rfl, before⟩
  · obtain ⟨id, listed, small⟩ := (hasOutput_iff walked numbered number slot).mp has
    have apart := g.entryCount_take_le listed (UInt32.lt_iff_toNat_lt.mp before)
    omega
  · have less := UInt32.lt_iff_toNat_lt.mp before
    omega

theorem exists_entryId {i : Nat} (inside : i < n.numEntries) :
    ∃ number slot, n.HasOutput g number slot ∧
      (n.entryId number slot : Checked GraphError Nat) = .ok i := by
  have total := (numberable_of_ofGraph walked numbered).small
  rw [numEntries_eq walked numbered] at inside
  obtain ⟨j, id, slot, listed, small, rfl⟩ := Graph.exists_of_lt_entryCount inside
  have bound := (List.getElem?_eq_some_iff.mp listed).1
  have number : j.toUInt32.toNat = j := toNat_toUInt32 (by omega)
  have narrow : slot.toUInt32.toNat = slot := toNat_toUInt32 (by omega)
  rw [← narrow] at small
  refine ⟨j.toUInt32, slot.toUInt32, ?_, ?_⟩
  · exact (hasOutput_iff walked numbered _ _).mpr ⟨id, by rw [number]; exact listed, small⟩
  · rw [(entryId_of_listed walked numbered few listed small).1, narrow]

end

/-- The entries of a numbered graph have the numbers below the total, without gap or overflow. -/
theorem entryIds_gapFree {n : Numbering}
    (few : ∀ order, g.postOrder = .ok order → order.length < UInt32.size)
    (numbered : ofGraph g = .ok n) : n.GapFree g := by
  obtain ⟨order, walked⟩ := walked_of_ofGraph numbered
  have few := few order walked
  have numNodes := numNodes_eq walked numbered
  constructor
  · intro number slot has
    exact ⟨_, entryId_of_hasOutput walked numbered few has⟩
  · intro i inside
    obtain ⟨number, slot, has, entry⟩ := exists_entryId walked numbered few inside
    refine ⟨(number, slot), ⟨has, entry⟩, ?_⟩
    rintro ⟨number', slot'⟩ ⟨has', entry'⟩
    have before := fun earlier => Nat.lt_irrefl i
      (entryId_lt walked numbered few has has' entry entry' earlier)
    have behind := fun earlier => Nat.lt_irrefl i
      (entryId_lt walked numbered few has' has entry' entry earlier)
    grind
  · intro number slot number' slot' i i' has has' entry entry' earlier
    exact entryId_lt walked numbered few has has' entry entry' earlier
  · intro number inside
    have word : number.toNat.toUInt32 = number := UInt32.ofNat_toNat
    have first := entryId_zero walked numbered few (numNodes ▸ inside)
    rw [word] at first
    rw [first, List.map_take, sources_eq walked numbered]
  · rw [numNodes, entryId_zero walked numbered few (Nat.le_refl _), List.take_length,
      numEntries_eq walked numbered]
  · intro edge held
    obtain ⟨e, member, read⟩ := exists_numberEntry walked numbered held
    obtain ⟨j, _, _, entry⟩ := entryId_of_numberEntry walked numbered few member read
    exact ⟨_, entry⟩

def fullGraph : Graph .plain where
  arena := 0
  nodes := #[
    { attrs := { name := "x" } },
    { attrs := { name := "sink", op := some { name := "drop", numOutputs := 0 } }
      inputs := #[{ node := ⟨0, 0⟩ }] },
    { attrs := { name := "wide", op := some { name := "split", numOutputs := 4294967294 } }
      inputs := #[{ node := ⟨0, 0⟩ }], controlDeps := #[⟨0, 1⟩] }]
  outputs := #[{ node := ⟨0, 2⟩, index := 4294967293 }]

theorem entryIds_gapFree_full : ∃ n, ofGraph fullGraph = .ok n ∧
    n.numEntries = 4294967295 ∧ n.GapFree fullGraph := by
  have walked : fullGraph.postOrder = .ok [⟨0, 0⟩, ⟨0, 1⟩, ⟨0, 2⟩] := by cbv
  obtain ⟨n, numbered⟩ := ofGraph_ok_of_numberable walked (by decide)
  refine ⟨n, numbered, numEntries_eq walked numbered,
    entryIds_gapFree (fun order same => ?_) numbered⟩
  cases walked.symm.trans same
  decide

end Numbering
end Placement
