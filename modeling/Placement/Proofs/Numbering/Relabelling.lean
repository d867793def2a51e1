import Placement.Proofs.DeviceVector
import Placement.Proofs.Graph.Relabelling

namespace Placement

theorem mapM_congr {ε α β : Type} {f f' : α → Except ε β} {l : List α}
    (same : ∀ a ∈ l, f a = f' a) : l.mapM f = l.mapM f' := by
  induction l with
  | nil => rfl
  | cons a l ih =>
    rw [List.mapM_cons, List.mapM_cons, same a (by simp), ih (fun b h => same b (by simp [h]))]

/-- A loop over changed members, on a changed state, when every step commutes with the changes. -/
theorem foldlM_map_hom {ε α β σ τ : Type} {step : σ → α → Except ε σ} {step' : τ → β → Except ε τ}
    {change : σ → τ} {f : α → β} {l : List α}
    (hom : ∀ s, ∀ a ∈ l, step' (change s) (f a) = change <$> step s a) (s : σ) :
    (l.map f).foldlM step' (change s) = change <$> l.foldlM step s := by
  induction l generalizing s with
  | nil => rfl
  | cons a l ih =>
    have rest := ih (fun s b h => hom s b (by simp [h]))
    simp only [List.map_cons, List.foldlM_cons, hom s a (by simp), bind_map_left, map_bind, rest]

def NumberedNode.relabel (f : NodeId → NodeId) (node : NumberedNode) : NumberedNode :=
  { node with source := f node.source }

variable {P : Client} {f : NodeId → NodeId} {g h : Graph P}

namespace Numbering

def Progress.relabel (f : NodeId → NodeId) (p : Progress) : Progress :=
  { p with nodes := p.nodes.map (NumberedNode.relabel f) }

structure Corresponds (f : NodeId → NodeId) (g : Graph P) (n n' : Numbering) : Prop where
  nodes : n'.nodes = n.nodes.map (NumberedNode.relabel f)
  firstEntries : n'.firstEntries = n.firstEntries
  variableNodes : n'.variableNodes = n.variableNodes
  outputs : n'.outputs = n.outputs
  known : ∀ id, g.Reachable id → n'.nodeNumber? (f id) = n.nodeNumber? id
  unknown : ∀ id', (∀ id, g.Reachable id → f id ≠ id') → n'.nodeNumber? id' = none

section

variable (relabels : Relabels f g h) {order : List NodeId} (walked : g.postOrder = .ok order)

include relabels walked

theorem numberNodes_relabel {id : NodeId} (member : id ∈ order) :
    (numberNodes (order.map f))[f id]? = (numberNodes order)[id]? := by
  have nodup := Graph.nodup_of_postOrder (relabels.postOrder_eq walked)
  obtain ⟨i, listed, number⟩ := numberNodes_of_mem (Graph.nodup_of_postOrder walked) member
  rw [number]
  exact numberNodes_of_getElem? nodup (by simp [listed])

theorem numberEntry_relabel {e : Entry} (member : e.node ∈ order) :
    numberEntry h (numberNodes (order.map f)) (e.relabel f) =
      numberEntry g (numberNodes order) e := by
  obtain ⟨producer, found, found'⟩ := relabels.node?_of_mem walked member
  obtain ⟨i, _, number⟩ := numberNodes_of_mem (Graph.nodup_of_postOrder walked) member
  simp [numberEntry, found, found', numberNodes_relabel relabels walked member, number]

theorem numberControlDep_relabel {id : NodeId} (member : id ∈ order) :
    numberControlDep (numberNodes (order.map f)) (f id) =
      numberControlDep (numberNodes order) id := by
  obtain ⟨i, _, number⟩ := numberNodes_of_mem (Graph.nodup_of_postOrder walked) member
  simp only [numberControlDep, numberNodes_relabel relabels walked member, number]

theorem mapM_numberEntry_relabel (entries : List Entry) (inside : ∀ e ∈ entries, e.node ∈ order) :
    (entries.map (Entry.relabel f)).mapM (numberEntry h (numberNodes (order.map f))) =
      entries.mapM (numberEntry g (numberNodes order)) := by
  rw [List.mapM_map]
  exact mapM_congr (fun e listed => numberEntry_relabel relabels walked (inside e listed))

theorem Progress.add_relabel (p : Progress) {id : NodeId} (member : id ∈ order) :
    (p.relabel f).add h (numberNodes (order.map f)) (f id) =
      Progress.relabel f <$> p.add g (numberNodes order) id := by
  obtain ⟨node, found, found'⟩ := relabels.node?_of_mem walked member
  have dependencies := Graph.dependencies_subset_postOrder walked member found
  have inputs := mapM_numberEntry_relabel relabels walked node.inputs.toList (fun e listed =>
    dependencies (Node.mem_dependencies_of_input (Array.mem_toList_iff.mp listed)))
  have controlDeps : (node.controlDeps.toList.map f).mapM
      (numberControlDep (numberNodes (order.map f))) =
      node.controlDeps.toList.mapM (numberControlDep (numberNodes order)) := by
    rw [List.mapM_map]
    exact mapM_congr (fun id listed => numberControlDep_relabel relabels walked
      (dependencies (Node.mem_dependencies_of_controlDep (Array.mem_toList_iff.mp listed))))
  simp only [Progress.add, found, found', Checked.present, bind, Except.bind,
    Node.inputList_relabel, Node.controlDepList_relabel, inputs, controlDeps,
    Node.isVariable_relabel, Node.numOutputs_relabel, Node.name_relabel]
  cases node.inputs.toList.mapM (numberEntry g (numberNodes order)) with
  | error fault => rfl
  | ok inputs' =>
    cases node.controlDeps.toList.mapM (numberControlDep (numberNodes order)) with
    | error fault => rfl
    | ok controlDeps' =>
      have nextEntry : (p.relabel f).nextEntry = p.nextEntry := rfl
      simp only [nextEntry]
      cases addWords? p.nextEntry node.numOutputs with
      | none => rfl
      | some next => simp [Progress.relabel, NumberedNode.relabel, Functor.map, Except.map]

theorem ofGraph_relabel : ofGraph h =
    (fun n => { n with
      nodes := n.nodes.map (NumberedNode.relabel f)
      numbers := numberNodes (order.map f) }) <$> ofGraph g := by
  have start : Progress.start = Progress.start.relabel f := by
    simp [Progress.start, Progress.relabel]
  have folded := foldlM_map_hom
    (fun p id member => Progress.add_relabel relabels walked p member) Progress.start
  have outputs := mapM_numberEntry_relabel relabels walked g.outputs.toList (fun e listed =>
    Graph.output_mem_postOrder walked (Array.mem_toList_iff.mp listed))
  rw [← start] at folded
  simp only [ofGraph, walked, relabels.postOrder_eq walked, relabels.outputs, Array.toList_map,
    bind, Except.bind, folded, outputs]
  cases order.foldlM (Progress.add g (numberNodes order)) .start with
  | error fault => rfl
  | ok p =>
    cases g.outputs.toList.mapM (numberEntry g (numberNodes order)) with
    | error fault => rfl
    | ok outputs' => rfl

theorem corresponds {n n' : Numbering} (numbered : ofGraph g = .ok n)
    (numbered' : ofGraph h = .ok n') : n.Corresponds f g n' := by
  have numbers := numbers_of_ofGraph walked numbered
  rw [ofGraph_relabel relabels walked, numbered] at numbered'
  cases numbered'
  constructor
  · rfl
  · rfl
  · rfl
  · rfl
  · intro id reached
    rw [nodeNumber?, nodeNumber?, numbers]
    exact numberNodes_relabel relabels walked ((Graph.mem_postOrder_iff walked id).mpr reached)
  · intro id' other
    refine numberNodes_of_not_mem (fun member => ?_)
    obtain ⟨id, member, same⟩ := List.mem_map.mp member
    exact other id ((Graph.mem_postOrder_iff walked id).mp member) same

end

end Numbering

namespace DeviceVector

section

variable (relabels : Relabels f g h) {order : List NodeId} (walked : g.postOrder = .ok order)
  {n n' : Numbering} (numbered : Numbering.ofGraph g = .ok n)
  (corresponds : n.Corresponds f g n')

include relabels walked numbered corresponds

theorem deviceOf_relabel : deviceOf h n' = deviceOf g n := by
  funext number
  simp only [deviceOf, Numbering.node, corresponds.nodes, Array.getElem?_map]
  cases listed : n.nodes[number.toNat]? with
  | none => rfl
  | some own =>
    obtain ⟨source, _⟩ := Numbering.node_of_ofGraph walked numbered (Array.mem_of_getElem? listed)
    obtain ⟨node, found, found'⟩ := relabels.node?_of_mem walked source
    simp [NumberedNode.relabel, Checked.present, bind, Except.bind, found, found']

theorem ofNumbering_relabel : ofNumbering h n' = ofNumbering g n := by
  have sources := deviceOf_relabel relabels walked numbered corresponds
  have inputs : n'.nodes.map NumberedNode.inputs = n.nodes.map NumberedNode.inputs := by
    rw [corresponds.nodes, Array.map_map]
    rfl
  exact ofNumbering_congr sources corresponds.firstEntries inputs

end

end DeviceVector

namespace Relabels

variable (relabels : Relabels f g h)

include relabels

theorem exists_numbering_iff :
    (∃ n, Numbering.ofGraph h = .ok n) ↔ ∃ n, Numbering.ofGraph g = .ok n := by
  constructor
  · rintro ⟨n', numbered'⟩
    obtain ⟨order', walked'⟩ := Numbering.walked_of_ofGraph numbered'
    obtain ⟨order, walked, _⟩ := (relabels.postOrder_eq_ok_iff order').mp walked'
    rw [Numbering.ofGraph_relabel relabels walked] at numbered'
    cases numbered : Numbering.ofGraph g with
    | error fault => simp [numbered, Functor.map, Except.map] at numbered'
    | ok n => exact ⟨n, rfl⟩
  · rintro ⟨n, numbered⟩
    obtain ⟨order, walked⟩ := Numbering.walked_of_ofGraph numbered
    rw [Numbering.ofGraph_relabel relabels walked, numbered]
    exact ⟨_, rfl⟩

theorem devices_eq {n : Numbering} (numbered : Numbering.ofGraph g = .ok n) :
    DeviceVector.ofGraph h = DeviceVector.ofGraph g := by
  obtain ⟨order, walked⟩ := Numbering.walked_of_ofGraph numbered
  obtain ⟨n', numbered'⟩ := relabels.exists_numbering_iff.mpr ⟨n, numbered⟩
  have corresponds := Numbering.corresponds relabels walked numbered numbered'
  simp only [DeviceVector.ofGraph, numbered, numbered', bind, Except.bind]
  exact DeviceVector.ofNumbering_relabel relabels walked numbered corresponds

theorem devices_eq_ok_iff (devices : Array Device) :
    DeviceVector.ofGraph h = .ok devices ↔ DeviceVector.ofGraph g = .ok devices := by
  constructor
  · intro placed
    obtain ⟨n, numbered⟩ :=
      relabels.exists_numbering_iff.mp (DeviceVector.numbered_of_ofGraph placed)
    rwa [relabels.devices_eq numbered] at placed
  · intro placed
    obtain ⟨n, numbered⟩ := DeviceVector.numbered_of_ofGraph placed
    rwa [relabels.devices_eq numbered]

end Relabels
end Placement
