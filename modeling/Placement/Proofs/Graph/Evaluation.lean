import Placement.Graph.Evaluation
import Placement.Proofs.Graph.PostOrder

namespace Placement

theorem mapM_eq_some_iff {α β : Type} (f : α → Option β) (l : List α) (values : List β) :
    l.mapM f = some values ↔ l.map f = values.map some := by
  induction l generalizing values with
  | nil => cases values <;> simp
  | cons a l ih =>
    cases first : f a with
    | none => cases values <;> simp [first]
    | some b =>
      cases rest : l.mapM f with
      | none => cases values <;> simp [first, rest, ← ih]
      | some tail => cases values <;> simp [first, rest, ← ih]

theorem exists_values {α β : Type} {f : α → Option β} {l : List α}
    (each : ∀ a ∈ l, ∃ b, f a = some b) : ∃ values : List β, l.map f = values.map some := by
  induction l with
  | nil => exact ⟨[], rfl⟩
  | cons a l ih =>
    obtain ⟨b, first⟩ := each a (by simp)
    obtain ⟨values, rest⟩ := ih (fun a member => each a (by simp [member]))
    exact ⟨b :: values, by simp [first, rest]⟩

variable {P : Client} {V : Type} {g : Graph P} {meaning : Interpretation V}

namespace Valuation

theorem read?_of_eq {v w : Valuation V} {e : Entry} (same : v e.node = w e.node) :
    v.read? e = w.read? e := by
  simp only [read?, same]

theorem read?_of_eq_some {v : Valuation V} {e : Entry} {outputs : UInt32 → V}
    (value : v e.node = some outputs) : v.read? e = some (outputs e.index) := by
  simp only [read?, value, Option.map_some]

theorem assign_of_ne {v : Valuation V} {id other : NodeId} (different : other ≠ id)
    (outputs : UInt32 → V) : v.assign id outputs other = v other := if_neg different

end Valuation

namespace Graph

def Solves (g : Graph P) (meaning : Interpretation V) (v : Valuation V) (ids : List NodeId) : Prop :=
  ∀ id ∈ ids, ∀ node, g.node? id = some node → ∃ inputs,
    node.inputs.toList.map v.read? = inputs.map some ∧ v id = some (meaning id inputs)

theorem Solves.known {v : Valuation V} {ids : List NodeId} (solves : g.Solves meaning v ids)
    {id : NodeId} {node : Node P} (member : id ∈ ids) (found : g.node? id = some node) :
    ∃ outputs, v id = some outputs := by
  obtain ⟨_, _, value⟩ := solves id member node found
  exact ⟨_, value⟩

theorem outputValues_eq {v : Valuation V} (evaluated : g.evaluate meaning = .ok v) :
    g.outputValues meaning = .ok (g.outputs.toList.map v.read?) := by
  rw [outputValues, evaluated]
  rfl

theorem evaluateNode_of_known {v : Valuation V} {id : NodeId} {node : Node P} {inputs : List V}
    (found : g.node? id = some node) (known : node.inputs.toList.map v.read? = inputs.map some) :
    g.evaluateNode meaning v id = v.assign id (meaning id inputs) := by
  simp only [evaluateNode, found, (mapM_eq_some_iff _ _ _).mpr known]

section

variable {order : List NodeId} (walked : g.postOrder = .ok order)

include walked

theorem input_mem_front {front ids : List NodeId} (cut : order = front ++ ids) {id : NodeId}
    {node : Node P} (member : id ∈ front) (found : g.node? id = some node) {e : Entry}
    (reads : e ∈ node.inputs.toList) : e.node ∈ front := by
  obtain ⟨before, after, rfl⟩ := List.append_of_mem member
  have dependency := Node.mem_dependencies_of_input (Array.mem_toList_iff.mp reads)
  have early := precedes_of_postOrder walked ⟨node, found, dependency⟩ before (after ++ ids)
    (by simp [cut])
  simp [early]

theorem Solves.evaluateNode {front ids : List NodeId} {id : NodeId}
    (cut : order = front ++ id :: ids) {v : Valuation V} (solves : g.Solves meaning v front) :
    g.Solves meaning (g.evaluateNode meaning v id) (front ++ [id]) := by
  have nodup := nodup_of_postOrder walked
  have new : ∀ a ∈ front, a ≠ id := by
    rw [cut] at nodup
    exact fun a member => (List.nodup_append.mp nodup).2.2 a member id (by simp)
  obtain ⟨node, found⟩ := holds_of_postOrder walked id (by simp [cut])
  have reads : ∀ e ∈ node.inputs.toList, e.node ∈ front := by
    intro e listed
    have dependency := Node.mem_dependencies_of_input (Array.mem_toList_iff.mp listed)
    exact precedes_of_postOrder walked ⟨node, found, dependency⟩ front ids cut
  obtain ⟨inputs, known⟩ : ∃ inputs : List V, node.inputs.toList.map v.read? = inputs.map some := by
    apply exists_values
    intro e listed
    obtain ⟨producer, present⟩ := holds_of_postOrder walked e.node (by simp [cut, reads e listed])
    obtain ⟨_, value⟩ := solves.known (reads e listed) present
    exact ⟨_, Valuation.read?_of_eq_some value⟩
  rw [evaluateNode_of_known found known]
  have unchanged : ∀ l : List Entry, (∀ e ∈ l, e.node ∈ front) →
      l.map (v.assign id (meaning id inputs)).read? = l.map v.read? := by
    intro l early
    refine List.map_congr_left (fun e listed => Valuation.read?_of_eq ?_)
    exact Valuation.assign_of_ne (new e.node (early e listed)) _
  intro a member other present
  rcases List.mem_append.mp member with earlier | here
  · obtain ⟨values, known', value⟩ := solves a earlier other present
    refine ⟨values, ?_, ?_⟩
    · rw [unchanged _ (fun e listed => input_mem_front walked cut earlier present listed), known']
    · rw [Valuation.assign_of_ne (new a earlier), value]
  · obtain rfl : a = id := by simpa using here
    obtain rfl : node = other := Option.some.inj (found.symm.trans present)
    exact ⟨inputs, (unchanged _ reads).trans known, if_pos rfl⟩

theorem Solves.foldl (ids front : List NodeId) (cut : order = front ++ ids) {v : Valuation V}
    (solves : g.Solves meaning v front) :
    g.Solves meaning (ids.foldl (g.evaluateNode meaning) v) order := by
  induction ids generalizing front v with
  | nil =>
    rw [cut, List.append_nil]
    exact solves
  | cons id ids ih => exact ih (front ++ [id]) (by simp [cut]) (solves.evaluateNode walked cut)

theorem Solves.outputs_known {v : Valuation V} (solves : g.Solves meaning v order) :
    ∃ values : List V, g.outputs.toList.map v.read? = values.map some := by
  apply exists_values
  intro e listed
  have member := output_mem_postOrder walked (Array.mem_toList_iff.mp listed)
  obtain ⟨node, found⟩ := holds_of_postOrder walked e.node member
  obtain ⟨_, value⟩ := solves.known member found
  exact ⟨_, Valuation.read?_of_eq_some value⟩

theorem evaluate_ok (meaning : Interpretation V) :
    ∃ v, g.evaluate meaning = .ok v ∧ g.Solves meaning v order := by
  refine ⟨order.foldl (g.evaluateNode meaning) .empty, by simp [evaluate, walked, Except.map], ?_⟩
  exact Solves.foldl walked order [] rfl (by simp [Solves])

end

theorem evaluate_congr {h : Graph P} (nodes : ∀ id, g.node? id = h.node? id)
    (outputs : g.outputs = h.outputs) : g.evaluate meaning = h.evaluate meaning := by
  have step : g.evaluateNode meaning = h.evaluateNode meaning := by
    funext v id
    simp only [evaluateNode, nodes]
  simp only [evaluate, postOrder_congr nodes outputs, step]

end Graph
end Placement
