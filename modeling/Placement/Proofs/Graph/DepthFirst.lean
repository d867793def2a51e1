import Placement.Proofs.Graph.Recursion

namespace Placement.Graph

variable {P : Client} {g : Graph P}

/-- A visit of one node follows the recursion. It is given the nodes being visited and the order
of those done, and returns the order extended by what it finished. -/
structure VisitsRecursively (g : Graph P)
    (visit : List NodeId → List NodeId → NodeId → Except GraphError (List NodeId)) : Prop where
  done : ∀ visiting order id, id ∈ order → visit visiting order id = .ok order
  cyclic : ∀ visiting order id node, id ∉ order → id ∈ visiting → g.node? id = some node →
    visit visiting order id = .error (.cycle node.name)
  dangling : ∀ visiting order id, id ∉ order → ¬ g.Has id →
    visit visiting order id = .error (.danglingNode id.index)
  entered : ∀ visiting order id node, id ∉ order → id ∉ visiting → g.node? id = some node →
    visit visiting order id = do
      let behindInputs ← node.inputs.toList.foldlM
        (fun order e => visit (id :: visiting) order e.node) order
      let behindControls ← node.controlDeps.toList.foldlM (visit (id :: visiting)) behindInputs
      return behindControls ++ [id]

theorem foldlM_dependencies {ε σ : Type} (visit : σ → NodeId → Except ε σ) (node : Node P)
    (s : σ) : node.dependencies.foldlM visit s =
      node.inputs.toList.foldlM (fun s e => visit s e.node) s >>=
        node.controlDeps.toList.foldlM visit := by
  rw [Node.dependencies, List.foldlM_append, List.foldlM_map]

theorem visited_eq_foldlM (g : Graph P) (visiting order ids : List NodeId) :
    g.visited visiting order ids =
      ids.foldlM (fun order id => g.visited visiting order [id]) order := by
  induction ids generalizing order with
  | nil => exact visited_nil g visiting order
  | cons id ids ih =>
    rw [visited_cons_append, List.foldlM_cons]
    cases g.visited visiting order [id] with
    | error error => rfl
    | ok after => exact ih after

theorem VisitsRecursively.of_visited (g : Graph P) :
    g.VisitsRecursively (fun visiting order id => g.visited visiting order [id]) := by
  constructor
  · intro visiting order id member
    rw [visited_cons, if_pos member, visited_nil]
  · intro visiting order id node fresh above found
    simp only [visited_cons, if_neg fresh, found, if_pos above]
  · intro visiting order id fresh foreign
    have missing : g.node? id = none := by simpa [has_iff_isSome_node?] using foreign
    simp only [visited_cons, if_neg fresh, missing]
  · intro visiting order id node fresh outside found
    have both :=
      foldlM_dependencies (fun order a => g.visited (id :: visiting) order [a]) node order
    rw [← visited_eq_foldlM] at both
    simp only [visited_cons g visiting order, if_neg fresh, found, if_neg outside, both,
      visited_nil]
    cases node.inputs.toList.foldlM (fun order e => g.visited (id :: visiting) order [e.node])
      order with
    | error error => rfl
    | ok behindInputs =>
      simp only [bind, Except.bind]
      cases node.controlDeps.toList.foldlM (fun order a => g.visited (id :: visiting) order [a])
        behindInputs with
      | error error => rfl
      | ok behindControls => rfl

section

variable {visit : List NodeId → List NodeId → NodeId → Except GraphError (List NodeId)}
  (recursive : g.VisitsRecursively visit)

include recursive

theorem VisitsRecursively.foldlM_eq (visiting order ids : List NodeId) :
    ids.foldlM (visit visiting) order = g.visited visiting order ids := by
  induction visiting, order, ids using visited_induction g with
  | nil visiting order =>
    rw [visited_nil]
    rfl
  | done visiting order id ids member ih =>
    rw [List.foldlM_cons, recursive.done visiting order id member, visited_cons, if_pos member]
    exact ih
  | dangling visiting order id ids fresh missing =>
    have foreign : ¬ g.Has id := by simp [has_iff_isSome_node?, missing]
    rw [List.foldlM_cons, recursive.dangling visiting order id fresh foreign]
    simp only [visited_cons, if_neg fresh, missing]
    rfl
  | cyclic visiting order id ids node fresh found above =>
    rw [List.foldlM_cons, recursive.cyclic visiting order id node fresh above found]
    simp only [visited_cons, if_neg fresh, found, if_pos above]
    rfl
  | failed visiting order id ids node error fresh found outside stuck ih =>
    rw [foldlM_dependencies] at ih
    rw [List.foldlM_cons, recursive.entered visiting order id node fresh outside found,
      ← bind_assoc, ih]
    simp only [visited_cons, if_neg fresh, found, if_neg outside, stuck]
    rfl
  | entered visiting order id ids node after fresh found outside finished ihBelow ihRest =>
    rw [foldlM_dependencies] at ihBelow
    rw [List.foldlM_cons, recursive.entered visiting order id node fresh outside found,
      ← bind_assoc, ihBelow]
    simp only [visited_cons, if_neg fresh, found, if_neg outside, finished]
    exact ihRest

theorem VisitsRecursively.eq_visited :
    visit = fun visiting order id => g.visited visiting order [id] := by
  funext visiting order id
  rw [← recursive.foldlM_eq, List.foldlM_cons]
  cases visit visiting order id with
  | error error => rfl
  | ok after => rfl

end

/-- The walk with a stack is the recursive one on every graph, cyclic or not: it returns the same
order, and where several things stand in the way it reports the same of them. -/
theorem postOrder_eq_recursion (g : Graph P) :
    g.postOrder = Checked.ofExcept g.depthFirst ∧
    ∃ visit, g.VisitsRecursively visit ∧ (∀ other, g.VisitsRecursively other → other = visit) ∧
      g.depthFirst = g.outputs.toList.foldlM (fun order e => visit [] order e.node) [] := by
  refine ⟨g.postOrder_eq_ofExcept, _, .of_visited g, fun other h => h.eq_visited, ?_⟩
  have recursive : g.depthFirst = g.visited [] [] (g.outputs.toList.map Entry.node) := rfl
  rw [recursive, visited_eq_foldlM, List.foldlM_map]

/-- Behind the first output are a cycle of two nodes and, later in the order of the walk, a node
that waits for itself and a dangling id; the second output dangles at once. -/
def tangledGraph : Graph .plain where
  arena := 0
  nodes := #[
    { attrs := { name := "top" }, inputs := #[{ node := ⟨0, 1⟩ }, { node := ⟨3, 0⟩ }]
      controlDeps := #[⟨0, 0⟩] },
    { attrs := { name := "a" }, inputs := #[{ node := ⟨0, 3⟩ }], controlDeps := #[⟨0, 2⟩] },
    { attrs := { name := "b" }, inputs := #[{ node := ⟨0, 3⟩ }, { node := ⟨0, 1⟩ }] },
    { attrs := { name := "x" } }]
  outputs := #[{ node := ⟨0, 0⟩ }, { node := ⟨5, 9⟩ }]

theorem postOrder_eq_recursion_tangled :
    tangledGraph.postOrder = .report (.cycle "a") ∧
      Checked.ofExcept tangledGraph.depthFirst = .report (.cycle "a") := by
  have walked : tangledGraph.postOrder = .report (.cycle "a") := by cbv
  exact ⟨walked, (postOrder_eq_recursion tangledGraph).1.symm.trans walked⟩

end Placement.Graph
