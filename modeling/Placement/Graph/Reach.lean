import Placement.Graph.Basic

namespace Placement.Graph

variable {P : Client}

/-- The graph has a node `a` with `b` as the node of an input or as a control dependency. The id
`b` may be dangling. -/
def DependsOn (g : Graph P) (a b : NodeId) : Prop :=
  ∃ node, g.node? a = some node ∧ b ∈ node.dependencies

/-- The ids that the outputs lead to, dangling ones included. -/
inductive Reachable (g : Graph P) : NodeId → Prop where
  | output (entry : Entry) (listed : entry ∈ g.outputs) : Reachable g entry.node
  | dependency (a b : NodeId) (reached : Reachable g a) (depends : g.DependsOn a b) :
      Reachable g b

/-- A path of one or more dependencies. -/
inductive Path (g : Graph P) : NodeId → NodeId → Prop where
  | one (a b : NodeId) (depends : g.DependsOn a b) : Path g a b
  | more (a b c : NodeId) (depends : g.DependsOn a b) (path : Path g b c) : Path g a c

def Has (g : Graph P) (id : NodeId) : Prop := id.arena = g.arena ∧ id.index < g.nodes.size

theorem has_iff_isSome_node? (g : Graph P) (id : NodeId) : g.Has id ↔ (g.node? id).isSome := by
  unfold Has node?
  split
  next same => simp [same]
  next other => simp [other]

theorem has_of_node? {g : Graph P} {id : NodeId} {node : Node P}
    (found : g.node? id = some node) : g.Has id :=
  (g.has_iff_isSome_node? id).mpr (by simp [found])

theorem Path.trans {g : Graph P} {a b c : NodeId} (first : g.Path a b) (second : g.Path b c) :
    g.Path a c := by
  induction first with
  | one a b depends => exact .more a b c depends second
  | more a b d depends _ ih => exact .more a b c depends (ih second)

end Placement.Graph
