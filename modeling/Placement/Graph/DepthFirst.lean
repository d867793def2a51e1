import Placement.Graph.Reach

/-! The depth-first walk in its plain recursive form. The nodes being visited are those above
the current one; the nodes done are those in the order so far. Its recursion is as deep as the
graph, so it says what the order is rather than computing it. -/
namespace Placement.Graph

variable {P : Client}

/-- How many nodes are neither being visited nor done. -/
def untouched (g : Graph P) (visiting order : List NodeId) : Nat :=
  (List.range g.nodes.size).countP (fun i => g.idAt i ∉ visiting ∧ g.idAt i ∉ order)

theorem untouched_le (g : Graph P) {visiting before after : List NodeId} (kept : before ⊆ after) :
    g.untouched visiting after ≤ g.untouched visiting before := by
  apply List.countP_mono_left
  intro i _ fresh
  simp only [decide_eq_true_eq] at fresh ⊢
  exact ⟨fresh.1, fun done => fresh.2 (kept done)⟩

/-- A stricter test that some member fails counts fewer members. -/
theorem countP_lt_of_lost {α : Type} {strict loose : α → Bool} {items : List α} {a : α}
    (weaker : ∀ x ∈ items, strict x = true → loose x = true) (member : a ∈ items)
    (passes : loose a = true) (lost : strict a = false) :
    items.countP strict < items.countP loose := by
  obtain ⟨front, back, rfl⟩ := List.append_of_mem member
  have left : front.countP strict ≤ front.countP loose :=
    List.countP_mono_left (fun x h => weaker x (by simp [h]))
  have right : back.countP strict ≤ back.countP loose :=
    List.countP_mono_left (fun x h => weaker x (by simp [h]))
  simp [List.countP_append, passes, lost]
  omega

theorem untouched_lt (g : Graph P) {visiting order : List NodeId} {id : NodeId} {node : Node P}
    (found : g.node? id = some node) (notDone : id ∉ order) (notVisiting : id ∉ visiting) :
    g.untouched (id :: visiting) order < g.untouched visiting order := by
  have inGraph : g.Has id := has_of_node? found
  have own : g.idAt id.index = id := by
    cases id
    simp [idAt, inGraph.1.symm]
  apply countP_lt_of_lost (a := id.index)
  · intro i _ fresh
    simp only [decide_eq_true_eq, List.mem_cons, not_or] at fresh ⊢
    exact ⟨fresh.1.2, fresh.2⟩
  · exact List.mem_range.mpr inGraph.2
  · simp [own, notDone, notVisiting]
  · simp [own]

mutual

/-- Visits one node and returns the order extended by what the visit finished. -/
def visitNode (g : Graph P) (visiting order : List NodeId) (id : NodeId) :
    Except GraphError { after : List NodeId // order ⊆ after } :=
  if id ∈ order then .ok ⟨order, List.Subset.refl order⟩
  else
    match _found : g.node? id with
    | none => .error (.danglingNode id.index)
    | some node =>
      if id ∈ visiting then .error (.cycle node.name)
      else
        match g.visitNodes (id :: visiting) order node.dependencies with
        | .error error => .error error
        | .ok ⟨after, kept⟩ => .ok ⟨after ++ [id], List.subset_append_of_subset_left [id] kept⟩
termination_by (g.untouched visiting order, 0)
decreasing_by
  exact Prod.Lex.left _ _ (untouched_lt g _found (by assumption) (by assumption))

def visitNodes (g : Graph P) (visiting order : List NodeId) (ids : List NodeId) :
    Except GraphError { after : List NodeId // order ⊆ after } :=
  match ids with
  | [] => .ok ⟨order, List.Subset.refl order⟩
  | id :: ids =>
    match g.visitNode visiting order id with
    | .error error => .error error
    | .ok ⟨middle, kept⟩ =>
      match g.visitNodes visiting middle ids with
      | .error error => .error error
      | .ok ⟨after, keptToo⟩ => .ok ⟨after, List.Subset.trans kept keptToo⟩
termination_by (g.untouched visiting order, ids.length + 1)
decreasing_by
  · exact Prod.Lex.right _ (Nat.succ_pos _)
  · rcases Nat.lt_or_eq_of_le (g.untouched_le kept) with fewer | equal
    · exact Prod.Lex.left _ _ fewer
    · rw [equal]
      exact Prod.Lex.right _ (by simp)

end

/-- The recursive walk from each output in turn. -/
def depthFirst (g : Graph P) : Except GraphError (List NodeId) :=
  (g.visitNodes [] [] (g.outputs.toList.map Entry.node)).map Subtype.val

end Placement.Graph
