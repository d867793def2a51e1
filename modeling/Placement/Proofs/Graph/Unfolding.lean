import Placement.Graph.Reach
import Placement.Proofs.FirstOccurrence

/-! The unfolding of a graph into a forest: below every node stand all its dependencies again,
whether or not they stood somewhere before. Only what has neither a cycle nor a dangling id below
it unfolds. The post-order of the forest is what the walk would list if it never remembered a
node, so its first occurrences are the order of the walk. -/
namespace Placement.Graph

variable {P : Client}

/-- The forest below a list of ids, as the list of its nodes in post-order. -/
inductive Unfolds (g : Graph P) : List NodeId → List NodeId → Prop where
  | nil : Unfolds g [] []
  | cons (id : NodeId) (ids below rest : List NodeId) (node : Node P)
      (found : g.node? id = some node) (deeper : Unfolds g node.dependencies below)
      (others : Unfolds g ids rest) : Unfolds g (id :: ids) (below ++ id :: rest)

namespace Unfolds

variable {g : Graph P}

theorem unique {ids listing other : List NodeId} (unfolds : g.Unfolds ids listing)
    (again : g.Unfolds ids other) : listing = other := by
  induction unfolds generalizing other with
  | nil =>
    cases again
    rfl
  | cons id ids below rest node found _ _ ihBelow ihRest =>
    cases again with
    | cons _ _ below' rest' node' found' deeper' others' =>
      obtain rfl : node = node' := Option.some.inj (found.symm.trans found')
      rw [ihBelow deeper', ihRest others']

theorem single {id : NodeId} {below : List NodeId} {node : Node P}
    (found : g.node? id = some node) (deeper : g.Unfolds node.dependencies below) :
    g.Unfolds [id] (below ++ [id]) :=
  .cons id [] below [] node found deeper .nil

theorem append {ids more listing rest : List NodeId} (unfolds : g.Unfolds ids listing)
    (others : g.Unfolds more rest) : g.Unfolds (ids ++ more) (listing ++ rest) := by
  induction unfolds with
  | nil => exact others
  | cons id ids below tail node found deeper _ _ ih =>
    have whole := Unfolds.cons id (ids ++ more) below (tail ++ rest) node found deeper ih
    simpa using whole

theorem roots_subset {ids listing : List NodeId} (unfolds : g.Unfolds ids listing) :
    ids ⊆ listing := by
  induction unfolds with
  | nil => exact List.Subset.refl []
  | cons id ids below rest _ _ _ _ _ ih =>
    intro a member
    rcases List.mem_cons.mp member with rfl | member
    · simp
    · simp [ih member]

/-- Every node of a forest brings the forest below it along. -/
theorem of_mem {ids listing : List NodeId} (unfolds : g.Unfolds ids listing) {id : NodeId}
    (member : id ∈ listing) :
    ∃ node below, g.node? id = some node ∧ g.Unfolds node.dependencies below ∧
      below ⊆ listing ∧ below.length < listing.length := by
  induction unfolds with
  | nil => cases member
  | cons root ids below rest node found deeper _ ihBelow ihRest =>
    rcases List.mem_append.mp member with inBelow | member
    · obtain ⟨inner, under, h, unfolds, subset, shorter⟩ := ihBelow inBelow
      exact ⟨inner, under, h, unfolds, fun a h => by simp [subset h], by simp; omega⟩
    · rcases List.mem_cons.mp member with rfl | inRest
      · exact ⟨node, below, found, deeper, List.subset_append_left _ _, by simp⟩
      · obtain ⟨inner, under, h, unfolds, subset, shorter⟩ := ihRest inRest
        exact ⟨inner, under, h, unfolds, fun a h => by simp [subset h], by simp; omega⟩

theorem not_mem_below {id : NodeId} {node : Node P} {below : List NodeId}
    (found : g.node? id = some node) (deeper : g.Unfolds node.dependencies below) :
    id ∉ below := by
  intro member
  obtain ⟨same, under, found', unfolds, _, shorter⟩ := deeper.of_mem member
  obtain rfl : node = same := Option.some.inj (found.symm.trans found')
  rw [unfolds.unique deeper] at shorter
  omega

theorem found_of_mem {ids listing : List NodeId} (unfolds : g.Unfolds ids listing) {id : NodeId}
    (member : id ∈ listing) : ∃ node, g.node? id = some node := by
  obtain ⟨node, _, found, _⟩ := unfolds.of_mem member
  exact ⟨node, found⟩

theorem dependencies_subset {ids listing : List NodeId} (unfolds : g.Unfolds ids listing)
    {id : NodeId} {node : Node P} (member : id ∈ listing) (found : g.node? id = some node) :
    node.dependencies ⊆ listing := by
  obtain ⟨same, below, found', deeper, subset, _⟩ := unfolds.of_mem member
  obtain rfl : node = same := Option.some.inj (found.symm.trans found')
  exact fun a h => subset (deeper.roots_subset h)

theorem precedes {ids listing : List NodeId} (unfolds : g.Unfolds ids listing)
    {a b : NodeId} (depends : g.DependsOn b a) : Precedes a b listing := by
  obtain ⟨node, found, dependency⟩ := depends
  induction unfolds with
  | nil => exact Precedes.nil
  | cons id ids below rest same found' deeper _ ihBelow ihRest =>
    rw [Precedes.append_iff, Precedes.cons_iff]
    refine ⟨ihBelow, ?_⟩
    by_cases here : id = b
    · subst here
      obtain rfl : node = same := Option.some.inj (found.symm.trans found')
      exact .inl (deeper.roots_subset dependency)
    · exact .inr ⟨here, .inr ihRest⟩

/-- Two ids that stand in one order among the roots, and in every list of dependencies, stand in
it throughout. -/
theorem precedes_of_lists {ids listing : List NodeId} (unfolds : g.Unfolds ids listing)
    {a b : NodeId} (roots : Precedes a b ids)
    (lists : ∀ id ∈ listing, ∀ node, g.node? id = some node → Precedes a b node.dependencies) :
    Precedes a b listing := by
  induction unfolds with
  | nil => exact Precedes.nil
  | cons id ids below rest node found _ _ ihBelow ihRest =>
    rw [Precedes.cons_iff] at roots
    rw [Precedes.append_iff, Precedes.cons_iff]
    refine ⟨ihBelow (lists id (by simp) node found) (fun x h => lists x (by simp [h])), ?_⟩
    refine .inr ⟨roots.1, roots.2.imp_right (fun precedes => ?_)⟩
    exact ihRest precedes (fun x h => lists x (by simp [h]))

theorem reachable {ids listing : List NodeId} (unfolds : g.Unfolds ids listing)
    (roots : ∀ id ∈ ids, g.Reachable id) : ∀ id ∈ listing, g.Reachable id := by
  induction unfolds with
  | nil => simp
  | cons root ids below rest node found _ _ ihBelow ihRest =>
    have here : g.Reachable root := roots root (by simp)
    intro id member
    rcases List.mem_append.mp member with inBelow | member
    · exact ihBelow (fun b h => .dependency root b here ⟨node, found, h⟩) id inBelow
    · rcases List.mem_cons.mp member with rfl | inRest
      · exact here
      · exact ihRest (fun b h => roots b (by simp [h])) id inRest

end Unfolds
end Placement.Graph
