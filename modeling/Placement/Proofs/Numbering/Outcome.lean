import Mathlib.Order.Bounds.Basic
import Placement.Proofs.Numbering

namespace Placement

variable {P : Client} {g : Graph P} {order front back : List NodeId} {error : GraphError}

namespace Graph

/-- The positions of an order whose nodes read an entry that does not exist. -/
def invalidAt (g : Graph P) (order : List NodeId) : Set Nat :=
  {i | ∃ id, order[i]? = some id ∧ ¬ g.ValidInputs id}

/-- The positions of an order up to which there are more entries than a word can number. -/
def overflowAt (g : Graph P) (order : List NodeId) : Set Nat :=
  {i | i < order.length ∧ UInt32.size ≤ g.entryCount (order.take (i + 1))}

theorem length_le_of_invalidAt (cut : order = front ++ back)
    (valid : ∀ a ∈ front, g.ValidInputs a) {i : Nat} (invalid : i ∈ g.invalidAt order) :
    front.length ≤ i := by
  obtain ⟨id, listed, wrong⟩ := invalid
  apply Nat.le_of_not_lt
  intro before
  rw [cut, List.getElem?_append_left before] at listed
  exact wrong (valid id (List.mem_of_getElem? listed))

theorem length_le_of_overflowAt (cut : order = front ++ back)
    (room : g.entryCount front < UInt32.size) {i : Nat} (full : i ∈ g.overflowAt order) :
    front.length ≤ i := by
  apply Nat.le_of_not_lt
  intro before
  have inside : order.take (i + 1) = front.take (i + 1) := by
    rw [cut, List.take_append_of_le_length before]
  have parts := g.entryCount_append (front.take (i + 1)) (front.drop (i + 1))
  rw [List.take_append_drop] at parts
  have total := full.2
  rw [inside] at total
  omega

theorem Numberable.not_invalidAt (numberable : g.Numberable order) (i : Nat) :
    i ∉ g.invalidAt order := by
  rintro ⟨id, listed, wrong⟩
  exact wrong (numberable.inputs id (List.mem_of_getElem? listed))

theorem Numberable.not_overflowAt (numberable : g.Numberable order) (i : Nat) :
    i ∉ g.overflowAt order := by
  intro full
  have small := numberable.small
  have beyond := length_le_of_overflowAt (List.append_nil order).symm small full
  have inside := full.1
  omega

/-- Where numbering stops, told by the first positions of the two faults of nodes. -/
theorem Unnumberable.positions (stops : g.Unnumberable order error) :
    (∃ p id node, IsLeast (g.invalidAt order) p ∧ (∀ q ∈ g.overflowAt order, p ≤ q) ∧
      order[p]? = some id ∧ g.node? id = some node ∧ g.FirstInvalid node.inputs.toList error) ∨
    (∃ q id node, IsLeast (g.overflowAt order) q ∧ (∀ p ∈ g.invalidAt order, q < p) ∧
      order[q]? = some id ∧ g.node? id = some node ∧ error = .tooManyEntries node.name) ∨
    g.FirstInvalid g.outputs.toList error ∧ (∀ p, p ∉ g.invalidAt order) ∧
      ∀ q, q ∉ g.overflowAt order := by
  cases stops with
  | input front back id node _ cut found valid room invalid =>
    have listed : order[front.length]? = some id := by simp [cut]
    have wrong : ¬ g.ValidInputs id := fun validInputs =>
      invalid.not_valid (fun e input => validInputs node found e (Array.mem_toList_iff.mp input))
    refine .inl ⟨front.length, id, node, ⟨⟨id, listed, wrong⟩, fun p => ?_⟩, fun q => ?_, listed,
      found, invalid⟩
    · exact length_le_of_invalidAt cut valid
    · exact length_le_of_overflowAt cut room
  | entries front back id node cut found valid room full =>
    have listed : order[front.length]? = some id := by simp [cut]
    have whole : order = (front ++ [id]) ++ back := by simp [cut]
    have inside := (List.getElem?_eq_some_iff.mp listed).1
    have upTo : order.take (front.length + 1) = front ++ [id] := by
      rw [whole, List.take_left' (by simp)]
    refine .inr (.inl ⟨front.length, id, node, ⟨⟨inside, upTo ▸ full⟩, fun q => ?_⟩,
      fun p invalid => ?_, listed, found, rfl⟩)
    · exact length_le_of_overflowAt cut room
    · simpa [Nat.succ_le_iff] using length_le_of_invalidAt whole valid invalid
  | output _ valid room invalid =>
    have whole : order = order ++ [] := (List.append_nil order).symm
    refine .inr (.inr ⟨invalid, fun p wrong => ?_, fun q full => ?_⟩)
    · obtain ⟨id, listed, wrongInputs⟩ := wrong
      exact wrongInputs (valid id (List.mem_of_getElem? listed))
    · have beyond := length_le_of_overflowAt whole room full
      exact Nat.not_le_of_lt full.1 beyond

section

variable (stops : g.Unnumberable order error) {i : Nat} {id : NodeId} {node : Node P}

include stops

theorem Unnumberable.of_invalidAt (first : IsLeast (g.invalidAt order) i)
    (before : ∀ q, IsLeast (g.overflowAt order) q → i ≤ q) (listed : order[i]? = some id)
    (found : g.node? id = some node) : g.FirstInvalid node.inputs.toList error := by
  rcases stops.positions with ⟨p, id', node', first', _, listed', found', invalid⟩ |
    ⟨q, _, _, full, later, _⟩ | ⟨_, none, _⟩
  · obtain rfl : i = p := first.unique first'
    obtain rfl : id = id' := Option.some.inj (listed.symm.trans listed')
    obtain rfl : node = node' := Option.some.inj (found.symm.trans found')
    exact invalid
  · exact absurd (before q full) (Nat.not_le_of_lt (later i first.1))
  · exact absurd first.1 (none i)

theorem Unnumberable.of_overflowAt (first : IsLeast (g.overflowAt order) i)
    (before : ∀ p, IsLeast (g.invalidAt order) p → i < p) (listed : order[i]? = some id)
    (found : g.node? id = some node) : error = .tooManyEntries node.name := by
  rcases stops.positions with ⟨p, _, _, wrong, earlier, _⟩ |
    ⟨q, id', node', first', _, listed', found', reported⟩ | ⟨_, _, none⟩
  · exact absurd (before p wrong) (Nat.not_lt_of_le (earlier i first.1))
  · obtain rfl : i = q := first.unique first'
    obtain rfl : id = id' := Option.some.inj (listed.symm.trans listed')
    obtain rfl : node = node' := Option.some.inj (found.symm.trans found')
    exact reported
  · exact absurd first.1 (none i)

theorem Unnumberable.of_outputs (valid : ∀ p, p ∉ g.invalidAt order)
    (room : ∀ q, q ∉ g.overflowAt order) : g.FirstInvalid g.outputs.toList error := by
  rcases stops.positions with ⟨p, _, _, wrong, _⟩ | ⟨q, _, _, full, _⟩ | ⟨invalid, _⟩
  · exact absurd wrong.1 (valid p)
  · exact absurd full.1 (room q)
  · exact invalid

/-- Once there is an order, only entries that do not exist or are too many are reported. -/
theorem Unnumberable.kinds :
    (∃ name index numOutputs, error = .invalidEntry name index numOutputs) ∨
      ∃ name, error = .tooManyEntries name := by
  cases stops with
  | input _ _ _ _ _ _ _ _ _ invalid =>
    obtain ⟨_, _, _, _, _, same⟩ := invalid.exists_mem
    exact .inl ⟨_, _, _, same⟩
  | entries _ _ _ node => exact .inr ⟨node.name, rfl⟩
  | output _ _ _ invalid =>
    obtain ⟨_, _, _, _, _, same⟩ := invalid.exists_mem
    exact .inl ⟨_, _, _, same⟩

end

end Graph

/-- What numbering a graph results in: the error of the walk, a numbering, or the error of the
first fault in the order of the walk. -/
structure NumberingOutcome (g : Graph P) (result : Checked GraphError Numbering) : Prop where
  unordered : ∀ fault, g.postOrder = .error fault → result = .error fault
  succeeds : ∀ order, g.postOrder = .ok order → ((∃ n, result = .ok n) ↔
    (∀ id ∈ order, ∀ node, g.node? id = some node → ∀ e ∈ node.inputs, g.ValidEntry e) ∧
      (∀ e ∈ g.outputs, g.ValidEntry e) ∧ g.entryCount order < UInt32.size)
  errors : ∀ order fault, g.postOrder = .ok order → result = .error fault →
    (∃ name index numOutputs, fault = .reported (.invalidEntry name index numOutputs)) ∨
      ∃ name, fault = .reported (.tooManyEntries name)
  input : ∀ order p id node, g.postOrder = .ok order → IsLeast (g.invalidAt order) p →
    (∀ q, IsLeast (g.overflowAt order) q → p ≤ q) → order[p]? = some id →
    g.node? id = some node → ∃ error, result = .report error ∧
      g.FirstInvalid node.inputs.toList error
  entries : ∀ order q id node, g.postOrder = .ok order → IsLeast (g.overflowAt order) q →
    (∀ p, IsLeast (g.invalidAt order) p → q < p) → order[q]? = some id →
    g.node? id = some node → result = .report (.tooManyEntries node.name)
  output : ∀ order, g.postOrder = .ok order → (∀ p, p ∉ g.invalidAt order) →
    (∀ q, q ∉ g.overflowAt order) → (∀ n, result ≠ .ok n) → ∃ error, result = .report error ∧
      g.FirstInvalid g.outputs.toList error

namespace Numbering

theorem ofGraph_of_not_numberable (walked : g.postOrder = .ok order)
    (refused : ¬ g.Numberable order) :
    ∃ error, ofGraph g = .report error ∧ g.Unnumberable order error := by
  cases numbered : ofGraph g with
  | ok n => exact absurd (numberable_of_ofGraph walked numbered) refused
  | error fault =>
    obtain ⟨error, rfl, stops⟩ := unnumberable_of_ofGraph walked numbered
    exact ⟨error, rfl, stops⟩

/-- A graph that has an order is numbered unless an entry that is read does not exist or there are
too many entries, and then the first of these faults is reported. -/
theorem ofGraph_outcome (g : Graph P) : NumberingOutcome g (ofGraph g) := by
  constructor
  · intro fault failed
    simp [ofGraph, failed, bind, Except.bind]
  · intro order walked
    constructor
    · rintro ⟨n, numbered⟩
      have numberable := numberable_of_ofGraph walked numbered
      exact ⟨numberable.inputs, numberable.outputs, numberable.small⟩
    · rintro ⟨inputs, outputs, small⟩
      exact ofGraph_ok_of_numberable walked ⟨inputs, outputs, small⟩
  · intro order fault walked failed
    obtain ⟨error, rfl, stops⟩ := unnumberable_of_ofGraph walked failed
    simpa using stops.kinds
  · intro order p id node walked first before listed found
    obtain ⟨error, reported, stops⟩ := ofGraph_of_not_numberable walked
      (fun numberable => numberable.not_invalidAt p first.1)
    exact ⟨error, reported, stops.of_invalidAt first before listed found⟩
  · intro order q id node walked first before listed found
    obtain ⟨error, reported, stops⟩ := ofGraph_of_not_numberable walked
      (fun numberable => numberable.not_overflowAt q first.1)
    rw [reported, stops.of_overflowAt first before listed found]
  · intro order walked valid room refused
    obtain ⟨error, reported, stops⟩ := ofGraph_of_not_numberable walked
      (fun numberable => (ofGraph_ok_of_numberable walked numberable).elim refused)
    exact ⟨error, reported, stops.of_outputs valid room⟩

def crowdedGraph : Graph .plain where
  arena := 0
  nodes := #[
    { attrs := { name := "x" } },
    { attrs := { name := "wide", op := some { name := "split", numOutputs := 4294967295 } }
      inputs := #[{ node := ⟨0, 0⟩, index := 1 }] }]
  outputs := #[{ node := ⟨0, 1⟩ }]

theorem ofGraph_outcome_crowded :
    IsLeast (crowdedGraph.invalidAt [⟨0, 0⟩, ⟨0, 1⟩]) 1 ∧
      IsLeast (crowdedGraph.overflowAt [⟨0, 0⟩, ⟨0, 1⟩]) 1 ∧
      ofGraph crowdedGraph = .report (.invalidEntry "x" 1 1) := by
  have walked : crowdedGraph.postOrder = .ok [⟨0, 0⟩, ⟨0, 1⟩] := by cbv
  have cut : ([⟨0, 0⟩, ⟨0, 1⟩] : List NodeId) = [⟨0, 0⟩] ++ [⟨0, 1⟩] := rfl
  have wrong : ¬ crowdedGraph.ValidEntry { node := ⟨0, 0⟩, index := 1 } := by decide
  have variableOk : ∀ a ∈ [(⟨0, 0⟩ : NodeId)], crowdedGraph.ValidInputs a := by
    intro a member node found e input
    obtain rfl : a = ⟨0, 0⟩ := by simpa using member
    cases found
    cases input with | mk listed => cases listed
  have invalid : IsLeast (crowdedGraph.invalidAt [⟨0, 0⟩, ⟨0, 1⟩]) 1 := by
    refine ⟨⟨⟨0, 1⟩, rfl, fun valid => ?_⟩, fun p => Graph.length_le_of_invalidAt cut variableOk⟩
    exact wrong (valid _ rfl _ (by simp [crowdedGraph]))
  have full : IsLeast (crowdedGraph.overflowAt [⟨0, 0⟩, ⟨0, 1⟩]) 1 :=
    ⟨⟨by decide, by decide⟩, fun q => Graph.length_le_of_overflowAt cut (by decide)⟩
  refine ⟨invalid, full, ?_⟩
  obtain ⟨error, reported, first⟩ := (ofGraph_outcome crowdedGraph).input _ 1 ⟨0, 1⟩ _ walked
    invalid (fun q least => Nat.le_of_eq (full.unique least)) rfl rfl
  obtain ⟨e, listed, producer, found, _, rfl⟩ := first.exists_mem
  obtain rfl : e = { node := ⟨0, 0⟩, index := 1 } := by
    simpa [crowdedGraph] using listed
  cases found
  exact reported

end Numbering
end Placement
