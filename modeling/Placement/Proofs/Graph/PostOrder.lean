import Placement.Proofs.Graph.Recursion
import Placement.Proofs.Graph.Unfolding

namespace Placement.Graph

variable {P : Client} {g : Graph P}

/-- Every node of the list comes with all that is below it. -/
def Settled (g : Graph P) (order : List NodeId) : Prop :=
  ∀ id ∈ order, ∃ listing, g.Unfolds [id] listing ∧ listing ⊆ order

theorem Unfolds.settled {ids listing : List NodeId} (unfolds : g.Unfolds ids listing) :
    g.Settled listing := by
  intro id member
  obtain ⟨node, below, found, deeper, subset, _⟩ := unfolds.of_mem member
  refine ⟨below ++ [id], .single found deeper, ?_⟩
  intro a h
  rcases List.mem_append.mp h with h | h
  · exact subset h
  · obtain rfl : a = id := by simpa using h
    exact member

theorem Settled.append {order listing : List NodeId} (first : g.Settled order)
    (second : g.Settled listing) : g.Settled (order ++ listing) := by
  intro id member
  rcases List.mem_append.mp member with member | member
  · obtain ⟨own, unfolds, subset⟩ := first id member
    exact ⟨own, unfolds, fun a h => List.mem_append_left _ (subset h)⟩
  · obtain ⟨own, unfolds, subset⟩ := second id member
    exact ⟨own, unfolds, fun a h => List.mem_append_right _ (subset h)⟩

theorem Settled.eraseDups {order : List NodeId} (settled : g.Settled order) :
    g.Settled order.eraseDups := by
  intro id member
  obtain ⟨own, unfolds, subset⟩ := settled id (List.mem_eraseDups.mp member)
  exact ⟨own, unfolds, fun a h => List.mem_eraseDups.mpr (subset h)⟩

/-- What a visit adds to the order is what is new in the unfolding of the visited ids. -/
theorem unfolds_of_visited {visiting order ids after : List NodeId}
    (finished : g.visited visiting order ids = .ok after) (settled : g.Settled order)
    (nodup : order.Nodup) :
    ∃ listing, g.Unfolds ids listing ∧ after = (order ++ listing).eraseDups := by
  induction visiting, order, ids using visited_induction g generalizing after with
  | nil visiting order =>
    rw [visited_nil] at finished
    cases finished
    exact ⟨[], .nil, by rw [List.append_nil, eraseDups_of_nodup nodup]⟩
  | done visiting order id ids member ih =>
    rw [visited_cons, if_pos member] at finished
    obtain ⟨listing, unfolds, rfl⟩ := ih finished settled nodup
    obtain ⟨own, single, subset⟩ := settled id member
    refine ⟨own ++ listing, single.append unfolds, ?_⟩
    rw [← List.append_assoc, ← eraseDups_eraseDups_append (order ++ own),
      eraseDups_append_of_subset subset, eraseDups_eraseDups_append]
  | dangling visiting order id ids fresh missing =>
    simp [visited_cons, fresh, missing] at finished
  | cyclic visiting order id ids node fresh found above =>
    simp [visited_cons, fresh, found, above] at finished
  | failed visiting order id ids node error fresh found outside stuck _ =>
    simp [visited_cons, fresh, found, outside, stuck] at finished
  | entered visiting order id ids node middle fresh found outside deeper ihBelow ihRest =>
    simp only [visited_cons, if_neg fresh, found, if_neg outside, deeper] at finished
    obtain ⟨below, unfoldsBelow, rfl⟩ := ihBelow deeper settled nodup
    have new : id ∉ order ++ below := by
      simp [fresh, Unfolds.not_mem_below found unfoldsBelow]
    have left : (order ++ below).eraseDups ++ [id] = (order ++ (below ++ [id])).eraseDups := by
      rw [← List.append_assoc, eraseDups_append_singleton, if_neg new]
    have single : g.Unfolds [id] (below ++ [id]) := .single found unfoldsBelow
    rw [left] at finished ihRest
    obtain ⟨rest, unfoldsRest, rfl⟩ := ihRest finished
      (settled.append single.settled).eraseDups (nodup_eraseDups _)
    refine ⟨(below ++ [id]) ++ rest, single.append unfoldsRest, ?_⟩
    rw [eraseDups_eraseDups_append, List.append_assoc order]

theorem visited_of_unfolds {ids listing : List NodeId} (unfolds : g.Unfolds ids listing)
    (visiting order : List NodeId)
    (inside : ∀ id ∈ visiting, ∀ own, g.Unfolds [id] own → listing.length < own.length) :
    ∃ after, g.visited visiting order ids = .ok after := by
  induction unfolds generalizing visiting order with
  | nil => exact ⟨order, visited_nil g visiting order⟩
  | cons id ids below rest node found deeper _ ihBelow ihRest =>
    have single : g.Unfolds [id] (below ++ [id]) := .single found deeper
    have shorter : ∀ above ∈ visiting, ∀ own, g.Unfolds [above] own →
        below.length + 1 + rest.length < own.length := by
      intro above member own unfolds
      have larger := inside above member own unfolds
      simp at larger
      omega
    have restInside : ∀ above ∈ visiting, ∀ own, g.Unfolds [above] own →
        rest.length < own.length :=
      fun above member own unfolds => by have := shorter above member own unfolds; omega
    rw [visited_cons]
    by_cases done : id ∈ order
    · rw [if_pos done]
      exact ihRest visiting order restInside
    · -- The walk is not inside `id`: the forest below each node on the way down is larger than
      -- all the forests inside it.
      have outside : id ∉ visiting := by
        intro member
        have larger := shorter id member _ single
        simp at larger
        omega
      have belowInside : ∀ above ∈ id :: visiting, ∀ own, g.Unfolds [above] own →
          below.length < own.length := by
        intro above member own unfolds
        rcases List.mem_cons.mp member with rfl | member
        · rw [unfolds.unique single]
          simp
        · have larger := shorter above member own unfolds
          omega
      obtain ⟨middle, finished⟩ := ihBelow (id :: visiting) order belowInside
      simp only [if_neg done, found, if_neg outside, finished]
      exact ihRest visiting (middle ++ [id]) restInside

def roots (g : Graph P) : List NodeId := g.outputs.toList.map Entry.node

/-- A walk succeeds exactly when the outputs unfold, and its order is then the list of first
occurrences in the unfolding. -/
theorem postOrder_eq_ok_iff (g : Graph P) (order : List NodeId) :
    g.postOrder = .ok order ↔ ∃ listing, g.Unfolds g.roots listing ∧ order = listing.eraseDups := by
  have recursive : g.depthFirst = g.visited [] [] g.roots := rfl
  rw [postOrder_eq_ofExcept, recursive]
  constructor
  · intro succeeded
    cases finished : g.visited [] [] g.roots with
    | error error => simp [finished] at succeeded
    | ok after =>
      rw [finished] at succeeded
      cases succeeded
      have unfolding := unfolds_of_visited finished (by simp [Settled]) List.nodup_nil
      simpa using unfolding
  · rintro ⟨listing, unfolds, rfl⟩
    obtain ⟨after, finished⟩ := visited_of_unfolds unfolds [] [] (by simp)
    obtain ⟨same, unfolds', rfl⟩ := unfolds_of_visited finished (by simp [Settled]) List.nodup_nil
    rw [finished, unfolds.unique unfolds', List.nil_append]
    rfl

section

variable {order : List NodeId} (walked : g.postOrder = .ok order)

include walked

theorem nodup_of_postOrder : order.Nodup := by
  obtain ⟨listing, _, rfl⟩ := (postOrder_eq_ok_iff g order).mp walked
  exact nodup_eraseDups listing

theorem holds_of_postOrder : g.Holds order := by
  obtain ⟨listing, unfolds, rfl⟩ := (postOrder_eq_ok_iff g order).mp walked
  exact fun id member => unfolds.found_of_mem (List.mem_eraseDups.mp member)

theorem roots_subset_postOrder : g.roots ⊆ order := by
  obtain ⟨listing, unfolds, rfl⟩ := (postOrder_eq_ok_iff g order).mp walked
  exact fun id member => List.mem_eraseDups.mpr (unfolds.roots_subset member)

theorem output_mem_postOrder {e : Entry} (output : e ∈ g.outputs) : e.node ∈ order :=
  roots_subset_postOrder walked (List.mem_map_of_mem (Array.mem_toList_iff.mpr output))

theorem dependencies_subset_postOrder {id : NodeId} {node : Node P} (member : id ∈ order)
    (found : g.node? id = some node) : node.dependencies ⊆ order := by
  obtain ⟨listing, unfolds, rfl⟩ := (postOrder_eq_ok_iff g order).mp walked
  have below := unfolds.dependencies_subset (List.mem_eraseDups.mp member) found
  exact fun id member => List.mem_eraseDups.mpr (below member)

theorem precedes_of_postOrder {a b : NodeId} (depends : g.DependsOn b a) :
    Precedes a b order := by
  obtain ⟨listing, unfolds, rfl⟩ := (postOrder_eq_ok_iff g order).mp walked
  exact (unfolds.precedes depends).eraseDups

/-- What passes from the dependencies of a node to the node holds of all nodes of an order. -/
theorem postOrder_induction {motive : NodeId → Prop}
    (step : ∀ id ∈ order, ∀ node, g.node? id = some node →
      (∀ a ∈ node.dependencies, motive a) → motive id) : ∀ id ∈ order, motive id := by
  have each : ∀ ids front, order = front ++ ids → (∀ a ∈ front, motive a) →
      ∀ a ∈ order, motive a := by
    intro ids
    induction ids with
    | nil =>
      intro front cut before a member
      rw [cut, List.append_nil] at member
      exact before a member
    | cons id ids ih =>
      intro front cut before
      refine ih (front ++ [id]) (by simp [cut]) (fun a member => ?_)
      rcases List.mem_append.mp member with earlier | here
      · exact before a earlier
      · obtain rfl : a = id := by simpa using here
        have member : a ∈ order := by simp [cut]
        obtain ⟨node, found⟩ := holds_of_postOrder walked a member
        refine step a member node found (fun b dependency => before b ?_)
        exact precedes_of_postOrder walked ⟨node, found, dependency⟩ front ids cut
  exact each order [] rfl (by simp)

theorem mem_postOrder_iff (id : NodeId) : id ∈ order ↔ g.Reachable id := by
  constructor
  · obtain ⟨listing, unfolds, rfl⟩ := (postOrder_eq_ok_iff g order).mp walked
    intro member
    refine unfolds.reachable (fun root h => ?_) id (List.mem_eraseDups.mp member)
    obtain ⟨entry, listed, rfl⟩ := List.mem_map.mp h
    exact .output entry (Array.mem_toList_iff.mp listed)
  · intro reached
    induction reached with
    | output entry listed => exact output_mem_postOrder walked listed
    | dependency a b _ depends ih =>
      obtain ⟨node, found, dependency⟩ := depends
      exact dependencies_subset_postOrder walked ih found dependency

theorem producer_of_postOrder {id : NodeId} {node : Node P} (member : id ∈ order)
    (found : g.node? id = some node) {slot : Nat} {entry : Entry}
    (reads : node.inputs[slot]? = some entry) :
    entry.node ∈ order ∧ ∃ producer, g.node? entry.node = some producer := by
  have dependency := Node.mem_dependencies_of_input (Array.mem_of_getElem? reads)
  have early := dependencies_subset_postOrder walked member found dependency
  exact ⟨early, holds_of_postOrder walked entry.node early⟩

end

theorem visited_congr {h : Graph P} (nodes : ∀ id, g.node? id = h.node? id)
    (visiting order ids : List NodeId) :
    g.visited visiting order ids = h.visited visiting order ids := by
  induction visiting, order, ids using visited_induction g with
  | nil visiting order => rw [visited_nil, visited_nil]
  | done visiting order id ids member ih =>
    rw [visited_cons, visited_cons, if_pos member, if_pos member, ih]
  | dangling visiting order id ids fresh missing =>
    simp only [visited_cons, if_neg fresh, ← nodes, missing]
  | cyclic visiting order id ids node fresh found above =>
    simp only [visited_cons, if_neg fresh, ← nodes, found, if_pos above]
  | failed visiting order id ids node error fresh found outside stuck ih =>
    simp only [visited_cons, if_neg fresh, ← nodes, found, if_neg outside, ← ih, stuck]
  | entered visiting order id ids node after fresh found outside finished ihBelow ihRest =>
    simp only [visited_cons, if_neg fresh, ← nodes, found, if_neg outside, ← ihBelow, finished,
      ihRest]

theorem postOrder_congr {h : Graph P} (nodes : ∀ id, g.node? id = h.node? id)
    (outputs : g.outputs = h.outputs) : g.postOrder = h.postOrder := by
  have recursive : g.depthFirst = h.depthFirst := by
    unfold depthFirst
    rw [outputs]
    exact visited_congr nodes [] [] _
  rw [postOrder_eq_ofExcept, postOrder_eq_ofExcept, recursive]

end Placement.Graph
