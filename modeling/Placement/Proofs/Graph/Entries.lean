import Placement.Graph.Reach

namespace Placement

variable {P : Client} {g : Graph P}

namespace Graph

def width (g : Graph P) (id : NodeId) : Nat :=
  match g.node? id with
  | some node => node.numOutputs.toNat
  | none => 0

def entryCount (g : Graph P) : List NodeId → Nat
  | [] => 0
  | id :: ids => g.width id + g.entryCount ids

theorem width_of_node? {id : NodeId} {node : Node P} (found : g.node? id = some node) :
    g.width id = node.numOutputs.toNat := by
  simp [width, found]

theorem entryCount_append (g : Graph P) (front back : List NodeId) :
    g.entryCount (front ++ back) = g.entryCount front + g.entryCount back := by
  induction front with
  | nil => simp [entryCount]
  | cons id front ih => simp [entryCount, ih, Nat.add_assoc]

theorem entryCount_singleton (g : Graph P) (id : NodeId) : g.entryCount [id] = g.width id := rfl

theorem entryCount_perm {ids others : List NodeId} (perm : ids.Perm others) :
    g.entryCount ids = g.entryCount others := by
  induction perm with
  | nil => rfl
  | cons id _ ih => rw [entryCount, entryCount, ih]
  | swap a b ids =>
    simp only [entryCount]
    omega
  | trans _ _ first second => exact first.trans second

theorem entryCount_of_single {ids : List NodeId} (single : ∀ id ∈ ids, g.width id = 1) :
    g.entryCount ids = ids.length := by
  induction ids with
  | nil => rfl
  | cons id ids ih =>
    rw [entryCount, single id (by simp), ih (fun a member => single a (by simp [member])),
      List.length_cons, Nat.add_comm]

theorem entryCount_congr {h : Graph P} {ids : List NodeId}
    (widths : ∀ id ∈ ids, g.width id = h.width id) : g.entryCount ids = h.entryCount ids := by
  induction ids with
  | nil => rfl
  | cons id ids ih =>
    rw [entryCount, entryCount, widths id (by simp),
      ih (fun a member => widths a (by simp [member]))]

theorem entryCount_take_le {order : List NodeId} {i j : Nat} {id : NodeId}
    (listed : order[j]? = some id) (less : j < i) :
    g.entryCount (order.take j) + g.width id ≤ g.entryCount (order.take i) := by
  obtain ⟨inside, rfl⟩ := List.getElem?_eq_some_iff.mp listed
  obtain ⟨rest, rfl⟩ := Nat.exists_eq_add_of_lt less
  have first : order.take (j + rest + 1) =
      order.take j ++ order[j] :: (order.drop (j + 1)).take rest := by
    rw [Nat.add_assoc, List.take_add, List.drop_eq_getElem_cons inside, List.take_succ_cons]
  rw [first, entryCount_append, entryCount]
  omega

/-- Every number below the count is that of some output of some node: the count of the nodes
before it and its slot. -/
theorem exists_of_lt_entryCount {order : List NodeId} {i : Nat} (inside : i < g.entryCount order) :
    ∃ j id slot, order[j]? = some id ∧ slot < g.width id ∧
      g.entryCount (order.take j) + slot = i := by
  induction order generalizing i with
  | nil => cases inside
  | cons id order ih =>
    by_cases own : i < g.width id
    · exact ⟨0, id, i, rfl, own, by simp [entryCount]⟩
    · have rest : i - g.width id < g.entryCount order := by
        rw [entryCount] at inside
        omega
      obtain ⟨j, other, slot, listed, small, sum⟩ := ih rest
      refine ⟨j + 1, other, slot, listed, small, ?_⟩
      rw [List.take_succ_cons, entryCount]
      omega

def ValidEntry (g : Graph P) (e : Entry) : Prop :=
  ∃ producer, g.node? e.node = some producer ∧ e.index < producer.numOutputs

instance (g : Graph P) (e : Entry) : Decidable (g.ValidEntry e) :=
  decidable_of_iff ((g.node? e.node).any (fun producer => e.index < producer.numOutputs) = true)
    (by simp [ValidEntry, Option.any_eq_true])

/-- The entry is an output of the graph, or an input of a node that the outputs lead to. -/
def Reads (g : Graph P) (e : Entry) : Prop :=
  e ∈ g.outputs ∨ ∃ id node, g.Reachable id ∧ g.node? id = some node ∧ e ∈ node.inputs

def ValidInputs (g : Graph P) (id : NodeId) : Prop :=
  ∀ node, g.node? id = some node → ∀ e ∈ node.inputs, g.ValidEntry e

/-- The first entry of the list that names no output of its node, as the error it leads to. -/
def FirstInvalid (g : Graph P) (entries : List Entry) (error : GraphError) : Prop :=
  ∃ front e back producer, entries = front ++ e :: back ∧ (∀ a ∈ front, g.ValidEntry a) ∧
    g.node? e.node = some producer ∧ producer.numOutputs ≤ e.index ∧
    error = .invalidEntry producer.name e.index producer.numOutputs

theorem FirstInvalid.exists_mem {entries : List Entry} {error : GraphError}
    (invalid : g.FirstInvalid entries error) : ∃ e ∈ entries, ∃ producer,
      g.node? e.node = some producer ∧ producer.numOutputs ≤ e.index ∧
      error = .invalidEntry producer.name e.index producer.numOutputs := by
  obtain ⟨front, e, back, producer, rfl, _, found, beyond, rfl⟩ := invalid
  exact ⟨e, by simp, producer, found, beyond, rfl⟩

theorem not_validEntry {e : Entry} {producer : Node P} (found : g.node? e.node = some producer)
    (beyond : producer.numOutputs ≤ e.index) : ¬ g.ValidEntry e := by
  rintro ⟨same, found', small⟩
  obtain rfl : producer = same := Option.some.inj (found.symm.trans found')
  exact UInt32.not_lt.mpr beyond small

theorem FirstInvalid.not_valid {entries : List Entry} {error : GraphError}
    (invalid : g.FirstInvalid entries error) : ¬ ∀ e ∈ entries, g.ValidEntry e := by
  obtain ⟨e, member, producer, found, beyond, _⟩ := invalid.exists_mem
  exact fun valid => not_validEntry found beyond (valid e member)

end Graph

end Placement
