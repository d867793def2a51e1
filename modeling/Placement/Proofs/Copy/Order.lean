import Mathlib.Data.List.Forall2
import Placement.Proofs.Copy.Rewriting

/-! The walk over a rewritten graph. Each copy is a detour on an edge, so the unfolding gets one
more node there and is the old one when the copies are left out. -/
namespace Placement

variable {P : Client}

namespace Graph

variable {h : Graph P} {copies : List NodeId}

/-- The id `b` leads to `a`, at once or by a copy. -/
def Detour (h : Graph P) (copies : List NodeId) (a b : NodeId) : Prop :=
  b = a ∨ (b ∈ copies ∧ ∃ node, h.node? b = some node ∧ node.dependencies = [a])

theorem Unfolds.detour {ids ids' listing : List NodeId} (unfolds : h.Unfolds ids listing)
    (detours : List.Forall₂ (h.Detour copies) ids ids') :
    ∃ listing', h.Unfolds ids' listing' ∧
      listing'.filter (· ∉ copies) = listing.filter (· ∉ copies) := by
  induction unfolds generalizing ids' with
  | nil =>
    cases detours
    exact ⟨[], .nil, rfl⟩
  | cons id ids below rest node found deeper _ _ ih =>
    obtain ⟨first, others, detour, later, rfl⟩ := List.forall₂_cons_left_iff.mp detours
    obtain ⟨rest', unfolds, same⟩ := ih later
    rcases detour with rfl | ⟨copied, copy, copyFound, reads⟩
    · refine ⟨below ++ first :: rest', .cons first others below rest' node found deeper unfolds, ?_⟩
      simp only [List.filter_append, List.filter_cons, same]
    · have single : h.Unfolds copy.dependencies (below ++ [id]) := reads ▸ .single found deeper
      refine ⟨(below ++ [id]) ++ first :: rest',
        .cons first others (below ++ [id]) rest' copy copyFound single unfolds, ?_⟩
      have skipped : (first :: rest').filter (· ∉ copies) = rest.filter (· ∉ copies) := by
        rw [List.filter_cons_of_neg (by simp [copied]), same]
      rw [List.filter_append, skipped, ← List.filter_append, List.append_assoc,
        List.singleton_append]

end Graph

variable {g h : Graph P} {settings : CopySettings} {op : Operator P} {order : List NodeId}

theorem Graph.mem_copyIds_iff {crossings : List (Crossing P)} (id : NodeId) :
    id ∈ g.copyIds crossings ↔ ∃ k c, crossings[k]? = some c ∧ g.copyId k = id := by
  simp only [copyIds, List.mem_map, List.mem_range]
  constructor
  · rintro ⟨k, inside, same⟩
    exact ⟨k, crossings[k], List.getElem?_eq_getElem inside, same⟩
  · rintro ⟨k, c, listed, same⟩
    exact ⟨k, (List.getElem?_eq_some_iff.mp listed).1, same⟩

theorem Graph.not_mem_copyIds {id : NodeId} {node : Node P} (found : g.node? id = some node)
    (crossings : List (Crossing P)) : id ∉ g.copyIds crossings := by
  intro member
  obtain ⟨k, _, _, same⟩ := (mem_copyIds_iff id).mp member
  exact ne_copyId found k same.symm

variable [CustomParsers P]

namespace Rewritten

variable (rewritten : Rewritten g settings op (g.crossings op order) h)

include rewritten

theorem detours {id : NodeId} {node : Node P} (found : g.node? id = some node) :
    List.Forall₂ (h.Detour (g.copyIds (g.crossings op order))) node.dependencies
      (g.rerouteNode (g.crossings op order) id node).dependencies := by
  apply List.rel_append
  · rw [List.forall₂_map_left_iff, List.forall₂_map_right_iff]
    refine List.forall₂_iff_get.mpr ⟨by simp [Graph.rerouteNode], fun slot inside _ => ?_⟩
    simp only [Graph.rerouteNode, List.get_eq_getElem, Array.getElem_toList, Array.getElem_mapIdx]
    rw [Array.length_toList] at inside
    rcases g.reroute_cases (g.crossings op order) id slot node.inputs[slot] with
      ⟨_, same⟩ | ⟨k, c, listed, rfl, rfl, copied⟩
    · exact .inl (by rw [same])
    · have own := (Graph.own_of_listed listed).2
      obtain rfl : node = c.consumerNode := Option.some.inj (found.symm.trans own.consumer)
      have entry : c.consumerNode.inputs[c.slot] = c.entry := by
        simpa [inside] using own.reads
      rw [copied, entry]
      refine .inr ⟨?_, c.copyNode settings op, rewritten.made k c listed, rfl⟩
      exact (Graph.mem_copyIds_iff _).mpr ⟨k, c, listed, rfl⟩
  · exact List.forall₂_same.mpr (fun id _ => .inl rfl)

theorem unfolds {ids listing : List NodeId} (before : g.Unfolds ids listing) :
    ∃ listing', h.Unfolds ids listing' ∧
      listing'.filter (· ∉ g.copyIds (g.crossings op order)) = listing := by
  induction before with
  | nil => exact ⟨[], .nil, rfl⟩
  | cons id ids below rest node found _ _ ihBelow ihRest =>
    obtain ⟨below', deeper, sameBelow⟩ := ihBelow
    obtain ⟨rest', others, sameRest⟩ := ihRest
    obtain ⟨below'', deeper, same⟩ := deeper.detour (rewritten.detours found)
    refine ⟨below'' ++ id :: rest', .cons id ids below'' rest' _ (rewritten.kept id node found)
      deeper others, ?_⟩
    have kept := Graph.not_mem_copyIds found (g.crossings op order)
    rw [List.filter_append, same, sameBelow, List.filter_cons_of_pos (by simpa using kept),
      sameRest]

end Rewritten

/-- A rewrite of all crossings, with the orders of the walk before and after it. -/
structure Reordered (g : Graph P) (settings : CopySettings) (op : Operator P)
    (order : List NodeId) (h : Graph P) (order' : List NodeId) : Prop where
  rewritten : Rewritten g settings op (g.crossings op order) h
  before : g.postOrder = .ok order
  after : h.postOrder = .ok order'
  kept : order'.filter (· ∉ g.copyIds (g.crossings op order)) = order

/-- The walk over the rewritten graph succeeds, and lists the nodes of the graph before it as
they were listed. -/
theorem Rewritten.reordered (rewritten : Rewritten g settings op (g.crossings op order) h)
    (walked : g.postOrder = .ok order) : ∃ order', Reordered g settings op order h order' := by
  obtain ⟨listing, unfolds, same⟩ := (Graph.postOrder_eq_ok_iff g order).mp walked
  obtain ⟨listing', unfolds', kept⟩ := rewritten.unfolds unfolds
  have roots : h.roots = g.roots := by rw [Graph.roots, rewritten.outputs, Graph.roots]
  refine ⟨listing'.eraseDups, rewritten, walked, ?_, ?_⟩
  · exact (Graph.postOrder_eq_ok_iff h _).mpr ⟨listing', roots ▸ unfolds', rfl⟩
  · rw [← eraseDups_filter, kept, same]

theorem Graph.reordered_of_splice {s : Splicing P} (succeeded : g.splice settings op = .ok s) :
    ∃ order order', Spliced g settings op (g.crossings op order) s ∧
      Reordered g settings op order s.graph order' := by
  obtain ⟨order, walked, spliced⟩ := spliced_of_splice succeeded
  obtain ⟨order', reordered⟩ := spliced.rewritten.reordered walked
  exact ⟨order, order', spliced, reordered⟩

namespace Reordered

variable {order' : List NodeId} (reordered : Reordered g settings op order h order')

include reordered

theorem mem_iff (id : NodeId) :
    id ∈ order ↔ id ∈ order' ∧ id ∉ g.copyIds (g.crossings op order) := by
  conv_lhs => rw [← reordered.kept]
  simp

theorem mem_after {id : NodeId} (member : id ∈ order) : id ∈ order' :=
  ((reordered.mem_iff id).mp member).1

theorem cases_of_mem {id : NodeId} (member : id ∈ order') :
    id ∈ order ∨ ∃ k c, (g.crossings op order)[k]? = some c ∧ g.copyId k = id := by
  by_cases copied : id ∈ g.copyIds (g.crossings op order)
  · exact .inr ((Graph.mem_copyIds_iff id).mp copied)
  · exact .inl ((reordered.mem_iff id).mpr ⟨member, copied⟩)

/-- A node of the new order is one of the old order with its slots rerouted, or a copy. -/
theorem cases_of_node {id : NodeId} {node : Node P} (member : id ∈ order')
    (found : h.node? id = some node) :
    (∃ before, id ∈ order ∧ g.node? id = some before ∧
      node = g.rerouteNode (g.crossings op order) id before) ∨
    ∃ k c, (g.crossings op order)[k]? = some c ∧ id = g.copyId k ∧
      node = c.copyNode settings op := by
  rcases reordered.cases_of_mem member with old | ⟨k, c, listed, rfl⟩
  · obtain ⟨before, present⟩ := Graph.holds_of_postOrder reordered.before id old
    have changed := reordered.rewritten.kept id before present
    exact .inl ⟨before, old, present, Option.some.inj (found.symm.trans changed)⟩
  · have made := reordered.rewritten.made k c listed
    exact .inr ⟨k, c, listed, rfl, Option.some.inj (found.symm.trans made)⟩

section

variable {k : Nat} {c : Crossing P} (listed : (g.crossings op order)[k]? = some c)

include listed

theorem copy_dependsOn : h.DependsOn (g.copyId k) c.entry.node :=
  ⟨c.copyNode settings op, reordered.rewritten.made k c listed, List.mem_singleton.mpr rfl⟩

theorem dependsOn_copy : h.DependsOn c.consumer (g.copyId k) := by
  have consumer := reordered.rewritten.kept _ _ (Graph.own_of_listed listed).2.consumer
  have reads := Graph.inputs_rerouteNode_of_listed reordered.before listed
  exact ⟨_, consumer, Node.mem_dependencies_of_input (Array.mem_of_getElem? reads)⟩

theorem copy_mem : g.copyId k ∈ order' := by
  obtain ⟨node, found, dependency⟩ := reordered.dependsOn_copy listed
  exact Graph.dependencies_subset_postOrder reordered.after
    (reordered.mem_after (Graph.own_of_listed listed).1) found dependency

theorem count_copy : order'.count (g.copyId k) = 1 :=
  List.count_eq_one_of_mem (Graph.nodup_of_postOrder reordered.after) (reordered.copy_mem listed)

theorem between : order'.idxOf c.entry.node < order'.idxOf (g.copyId k) ∧
    order'.idxOf (g.copyId k) < order'.idxOf c.consumer := by
  have copy := reordered.copy_mem listed
  have consumer := reordered.mem_after (Graph.own_of_listed listed).1
  constructor
  · exact (Graph.precedes_of_postOrder reordered.after
      (reordered.copy_dependsOn listed)).idxOf_lt copy
  · exact (Graph.precedes_of_postOrder reordered.after
      (reordered.dependsOn_copy listed)).idxOf_lt consumer

end

theorem ne_copyId {id : NodeId} (member : id ∈ order) (k : Nat) : id ≠ g.copyId k := by
  obtain ⟨node, found⟩ := Graph.holds_of_postOrder reordered.before id member
  exact Graph.ne_copyId found k

theorem perm : order'.Perm (order ++ g.copyIds (g.crossings op order)) := by
  have copies : (g.copyIds (g.crossings op order)).Nodup :=
    List.nodup_range.map (fun _ _ same => g.copyId_injective same)
  have apart : ∀ a ∈ order, ∀ b ∈ g.copyIds (g.crossings op order), a ≠ b := by
    rintro a member b copied rfl
    exact ((reordered.mem_iff a).mp member).2 copied
  refine (List.perm_ext_iff_of_nodup (Graph.nodup_of_postOrder reordered.after)
    (List.nodup_append.mpr ⟨Graph.nodup_of_postOrder reordered.before, copies, apart⟩)).mpr ?_
  intro id
  rw [List.mem_append, Graph.mem_copyIds_iff]
  constructor
  · exact reordered.cases_of_mem
  · rintro (old | ⟨k, c, listed, rfl⟩)
    · exact reordered.mem_after old
    · exact reordered.copy_mem listed

/-- A copy is read by its own consumer alone, and there only by its own slot. -/
theorem place_of_reads_copy {k : Nat} {c : Crossing P}
    (listed : (g.crossings op order)[k]? = some c) {id : NodeId} {node : Node P}
    (member : id ∈ order) (found : g.node? id = some node) {slot : Nat} {entry : Entry}
    (reads : node.inputs[slot]? = some entry)
    (copied : (g.reroute (g.crossings op order) id slot entry).node = g.copyId k) :
    id = c.consumer ∧ slot = c.slot := by
  rcases g.reroute_cases (g.crossings op order) id slot entry with
    ⟨_, kept⟩ | ⟨j, d, other, rfl, rfl, rerouted⟩
  · have early := (Graph.producer_of_postOrder reordered.before member found reads).1
    rw [kept] at copied
    exact absurd copied (reordered.ne_copyId early k)
  · rw [rerouted] at copied
    obtain rfl : j = k := g.copyId_injective copied
    obtain rfl : c = d := Option.some.inj (listed.symm.trans other)
    exact ⟨rfl, rfl⟩

section

variable {j k : Nat} {c d : Crossing P} (first : (g.crossings op order)[j]? = some c)
  (second : (g.crossings op order)[k]? = some d) (same : c.consumer = d.consumer)
  (less : c.slot < d.slot)

include first second same less

theorem precedes_dependencies {id : NodeId} {node : Node P} (member : id ∈ order)
    (found : g.node? id = some node) :
    Precedes (g.copyId j) (g.copyId k)
      (g.rerouteNode (g.crossings op order) id node).dependencies := by
  have dependencies := Graph.dependencies_subset_postOrder reordered.before member found
  refine (Precedes.append_iff _ _).mpr ⟨Precedes.of_getElem? ?_, .inr (Precedes.of_not_mem ?_)⟩
  · intro slot reads
    simp only [List.getElem?_map, Array.getElem?_toList, Graph.inputs_rerouteNode, Option.map_map,
      Option.map_eq_some_iff, Function.comp] at reads ⊢
    obtain ⟨entry, reads, copied⟩ := reads
    obtain ⟨rfl, rfl⟩ := reordered.place_of_reads_copy second member found reads copied
    obtain rfl : node = c.consumerNode :=
      Option.some.inj (found.symm.trans (same ▸ (Graph.own_of_listed first).2.consumer))
    refine ⟨c.slot, less, c.entry, (Graph.own_of_listed first).2.reads, ?_⟩
    rw [← same, g.reroute_of_listed (Graph.crossings_apart reordered.before op) first]
  · intro control
    exact reordered.ne_copyId (dependencies (List.mem_append_right _ control)) k rfl

theorem idxOf_copy_lt : order'.idxOf (g.copyId j) < order'.idxOf (g.copyId k) := by
  obtain ⟨listing, unfolds, whole⟩ := (Graph.postOrder_eq_ok_iff h order').mp reordered.after
  -- Neither copy depends on the other, so this does not come from dependencies: it is how the
  -- unfolding lists them, wherever they stand in one list.
  have roots : Precedes (g.copyId j) (g.copyId k) h.roots := by
    apply Precedes.of_not_mem
    rw [Graph.roots, reordered.rewritten.outputs]
    intro root
    exact reordered.ne_copyId (Graph.roots_subset_postOrder reordered.before root) k rfl
  have precedes : Precedes (g.copyId j) (g.copyId k) listing := by
    refine unfolds.precedes_of_lists roots (fun id member node found => ?_)
    have member' : id ∈ order' := by rw [whole]; exact List.mem_eraseDups.mpr member
    rcases reordered.cases_of_node member' found with
      ⟨before, old, found', rfl⟩ | ⟨i, e, listed, rfl, rfl⟩
    · exact reordered.precedes_dependencies first second same less old found'
    · refine Precedes.of_not_mem (fun producer => ?_)
      have other := Graph.ne_copyId (Graph.own_of_listed listed).2.producer k
      exact other (List.mem_singleton.mp producer).symm
  rw [whole]
  exact precedes.eraseDups.idxOf_lt (whole ▸ reordered.copy_mem second)

end

end Reordered
end Placement
