import Placement.Graph.DepthFirst
import Placement.Graph.Walk

/-! The walk that keeps its own stack gives what the recursive walk gives, errors included.
Between two rounds of the loop the marks are told by the stack and the order so far, so a state of
the loop is written as a snapshot of these two. -/
namespace Placement

theorem Node.dependency?_of_drop {P : Client} {n : Node P} {i : Nat} {id : NodeId}
    {ids : List NodeId} (unread : n.dependencies.drop i = id :: ids) :
    n.dependency? i = some id ∧ n.dependencies.drop (i + 1) = ids := by
  constructor
  · rw [dependency?_eq_getElem?, ← List.head?_drop, unread]
    rfl
  · rw [← List.tail_drop, unread]
    rfl

namespace Graph

variable {P : Client} (g : Graph P)

def Holds (ids : List NodeId) : Prop := ∀ id ∈ ids, ∃ node, g.node? id = some node

variable {g}

theorem Holds.append_single {ids : List NodeId} {id : NodeId} {node : Node P}
    (holds : g.Holds ids) (found : g.node? id = some node) : g.Holds (ids ++ [id]) := by
  intro other member
  rcases List.mem_append.mp member with member | member
  · exact holds other member
  · obtain rfl : other = id := by simpa using member
    exact ⟨node, found⟩

theorem index_lt_of_node? {id : NodeId} {node : Node P} (found : g.node? id = some node) :
    id.index < g.nodes.size :=
  (has_of_node? found).2

theorem idAt_of_node? {id : NodeId} {node : Node P} (found : g.node? id = some node) :
    g.idAt id.index = id := by
  have own : id.arena = g.arena := (has_of_node? found).1
  cases id
  simp [idAt, ← own]

/-- The recursive walk from a list of ids, without the proof that the order only grows. -/
def visited (g : Graph P) (visiting order ids : List NodeId) : Except GraphError (List NodeId) :=
  (g.visitNodes visiting order ids).map Subtype.val

theorem visited_nil (g : Graph P) (visiting order : List NodeId) :
    g.visited visiting order [] = .ok order := by
  simp [visited, visitNodes, Except.map]

theorem visited_cons_error {visiting order : List NodeId} {id : NodeId} {error : GraphError}
    (failed : g.visitNode visiting order id = .error error) (ids : List NodeId) :
    g.visited visiting order (id :: ids) = .error error := by
  simp [visited, visitNodes, failed, Except.map]

theorem visited_cons_ok {visiting order after : List NodeId} {id : NodeId} {kept : order ⊆ after}
    (finished : g.visitNode visiting order id = .ok ⟨after, kept⟩) (ids : List NodeId) :
    g.visited visiting order (id :: ids) = g.visited visiting after ids := by
  simp only [visited, visitNodes, finished]
  cases g.visitNodes visiting after ids <;> rfl

theorem visitNode_fresh {order : List NodeId} {id : NodeId} {node : Node P} (fresh : id ∉ order)
    (found : g.node? id = some node) (visiting : List NodeId) :
    g.visitNode visiting order id =
      if id ∈ visiting then .error (.cycle node.name)
      else
        match g.visitNodes (id :: visiting) order node.dependencies with
        | .error error => .error error
        | .ok ⟨after, kept⟩ =>
          .ok ⟨after ++ [id], List.subset_append_of_subset_left [id] kept⟩ := by
  rw [visitNode, if_neg fresh]
  split
  next dangling => cases found.symm.trans dangling
  next other found' =>
    obtain rfl : node = other := Option.some.inj (found.symm.trans found')
    rfl

theorem visited_cons (g : Graph P) (visiting order : List NodeId) (id : NodeId)
    (ids : List NodeId) :
    g.visited visiting order (id :: ids) =
      if id ∈ order then g.visited visiting order ids
      else
        match g.node? id with
        | none => .error (.danglingNode id.index)
        | some node =>
          if id ∈ visiting then .error (.cycle node.name)
          else
            match g.visited (id :: visiting) order node.dependencies with
            | .error error => .error error
            | .ok after => g.visited visiting (after ++ [id]) ids := by
  by_cases done : id ∈ order
  · rw [if_pos done]
    exact visited_cons_ok (by rw [visitNode, if_pos done]) ids
  · rw [if_neg done]
    cases found : g.node? id with
    | none =>
      apply visited_cons_error
      rw [visitNode, if_neg done]
      split
      next => rfl
      next node found' => cases found.symm.trans found'
    | some node =>
      have reading := visitNode_fresh done found visiting
      by_cases entered : id ∈ visiting
      · rw [if_pos entered] at reading
        simp only [if_pos entered, visited_cons_error reading]
      · rw [if_neg entered] at reading
        simp only [if_neg entered]
        cases deeper : g.visitNodes (id :: visiting) order node.dependencies with
        | error error =>
          rw [visited_cons_error (by rw [reading, deeper])]
          simp [visited, deeper, Except.map]
        | ok after =>
          rw [visited_cons_ok (by rw [reading, deeper])]
          simp [visited, deeper, Except.map]

theorem visited_cons_append (g : Graph P) (visiting order : List NodeId) (id : NodeId)
    (ids : List NodeId) :
    g.visited visiting order (id :: ids) =
      match g.visited visiting order [id] with
      | .error error => .error error
      | .ok after => g.visited visiting after ids := by
  rw [visited_cons, visited_cons]
  by_cases done : id ∈ order
  · simp only [if_pos done, visited_nil]
  · simp only [if_neg done]
    cases g.node? id with
    | none => rfl
    | some node =>
      by_cases entered : id ∈ visiting
      · simp only [if_pos entered]
      · simp only [if_neg entered]
        cases g.visited (id :: visiting) order node.dependencies with
        | error error => rfl
        | ok after => simp only [visited_nil]

/-- What is to be shown for a list is shown for the dependencies of its first id and for the rest
of the list, each with the order in which the walk comes to it. -/
theorem visited_induction (g : Graph P) {motive : List NodeId → List NodeId → List NodeId → Prop}
    (nil : ∀ visiting order, motive visiting order [])
    (done : ∀ visiting order id ids, id ∈ order → motive visiting order ids →
      motive visiting order (id :: ids))
    (dangling : ∀ visiting order id ids, id ∉ order → g.node? id = none →
      motive visiting order (id :: ids))
    (cyclic : ∀ visiting order id ids node, id ∉ order → g.node? id = some node →
      id ∈ visiting → motive visiting order (id :: ids))
    (failed : ∀ visiting order id ids node error, id ∉ order → g.node? id = some node →
      id ∉ visiting → g.visited (id :: visiting) order node.dependencies = .error error →
      motive (id :: visiting) order node.dependencies → motive visiting order (id :: ids))
    (entered : ∀ visiting order id ids node after, id ∉ order → g.node? id = some node →
      id ∉ visiting → g.visited (id :: visiting) order node.dependencies = .ok after →
      motive (id :: visiting) order node.dependencies → motive visiting (after ++ [id]) ids →
      motive visiting order (id :: ids))
    (visiting order ids : List NodeId) : motive visiting order ids := by
  have both := visitNode.mutual_induct g
    (fun visiting order id => ∀ ids,
      (∀ after kept, g.visitNode visiting order id = .ok ⟨after, kept⟩ →
        motive visiting after ids) → motive visiting order (id :: ids))
    motive ?_ ?_ ?_ ?_ ?_ nil ?_ ?_ ?_
  · exact both.2 visiting order ids
  · intro visiting order id member ids rest
    exact done visiting order id ids member (rest order _ (by rw [visitNode, if_pos member]))
  · intro visiting order id fresh missing ids _
    exact dangling visiting order id ids fresh missing
  · intro visiting order id fresh node found above ids _
    exact cyclic visiting order id ids node fresh found above
  · intro visiting order id fresh node found outside error stuck deeper ids _
    refine failed visiting order id ids node error fresh found outside ?_ deeper
    simp [visited, stuck, Except.map]
  · intro visiting order id fresh node found outside after kept finished deeper ids rest
    have grown : order ⊆ after ++ [id] := List.subset_append_of_subset_left [id] kept
    refine entered visiting order id ids node after fresh found outside ?_ deeper
      (rest _ grown ?_)
    · simp [visited, finished, Except.map]
    · rw [visitNode_fresh fresh found visiting, if_neg outside, finished]
  · intro visiting order id ids error stuck here
    exact here ids (fun after kept finished => by cases stuck.symm.trans finished)
  · intro visiting order id ids after kept finished error _ here rest
    refine here ids (fun same _ again => ?_)
    cases finished.symm.trans again
    exact rest
  · intro visiting order id ids after kept finished final _ _ here rest
    refine here ids (fun same _ again => ?_)
    cases finished.symm.trans again
    exact rest

theorem Holds.visited {visiting order ids after : List NodeId} (holds : g.Holds order)
    (finished : g.visited visiting order ids = .ok after) : g.Holds after := by
  induction visiting, order, ids using visited_induction g generalizing after with
  | nil visiting order =>
    rw [visited_nil] at finished
    cases finished
    exact holds
  | done visiting order id ids member ih =>
    rw [visited_cons, if_pos member] at finished
    exact ih holds finished
  | dangling visiting order id ids fresh missing =>
    simp [visited_cons, fresh, missing] at finished
  | cyclic visiting order id ids node fresh found above =>
    simp [visited_cons, fresh, found, above] at finished
  | failed visiting order id ids node error fresh found outside stuck _ =>
    simp [visited_cons, fresh, found, outside, stuck] at finished
  | entered visiting order id ids node middle fresh found outside deeper ihBelow ihRest =>
    simp only [visited_cons, if_neg fresh, found, if_neg outside, deeper] at finished
    exact ihRest ((ihBelow holds deeper).append_single found) finished

end Graph

namespace Walk

variable {P : Client} {g : Graph P}

def markOf (visiting order : List NodeId) (id : NodeId) : Mark :=
  if id ∈ order then .done else if id ∈ visiting then .visiting else .unseen

def marksOf (g : Graph P) (visiting order : List NodeId) : Array Mark :=
  Array.ofFn (fun i : Fin g.nodes.size => markOf visiting order (g.idAt i))

def snapshot (g : Graph P) (stack : List Frame) (order : List NodeId) : Walk :=
  ⟨marksOf g (stack.map Frame.node) order, stack, order.toArray⟩

theorem marksOf_of_node? {id : NodeId} {node : Node P} (found : g.node? id = some node)
    (visiting order : List NodeId) :
    (marksOf g visiting order)[id.index]? = some (markOf visiting order id) := by
  have inside := Graph.index_lt_of_node? found
  simp [marksOf, inside, Graph.idAt_of_node? found]

theorem setIfInBounds_marksOf {id : NodeId} {node : Node P} (found : g.node? id = some node)
    {visiting order visiting' order' : List NodeId}
    (elsewhere : ∀ other, other ≠ id → markOf visiting' order' other = markOf visiting order other) :
    (marksOf g visiting order).setIfInBounds id.index (markOf visiting' order' id) =
      marksOf g visiting' order' := by
  apply Array.ext_getElem?
  intro i
  by_cases inside : i < g.nodes.size
  · by_cases here : id.index = i
    · subst here
      simp [marksOf, inside, Graph.idAt_of_node? found]
    · have other : g.idAt i ≠ id := fun same => here (by rw [← same]; rfl)
      simp [marksOf, inside, here, elsewhere _ other]
  · simp [marksOf, inside]

theorem marksOf_leave {id : NodeId} {node : Node P} (found : g.node? id = some node)
    (visiting order : List NodeId) :
    (marksOf g (id :: visiting) order).setIfInBounds id.index .done =
      marksOf g visiting (order ++ [id]) := by
  have here : markOf visiting (order ++ [id]) id = .done := by simp [markOf]
  rw [← here]
  exact setIfInBounds_marksOf found (fun other apart => by simp [markOf, apart])

theorem marksOf_enter {id : NodeId} {node : Node P} (found : g.node? id = some node)
    (visiting : List NodeId) {order : List NodeId} (fresh : id ∉ order) :
    (marksOf g visiting order).setIfInBounds id.index .visiting =
      marksOf g (id :: visiting) order := by
  have here : markOf (id :: visiting) order id = .visiting := by simp [markOf, fresh]
  rw [← here]
  exact setIfInBounds_marksOf found (fun other apart => by simp [markOf, apart])

theorem enter_snapshot {id : NodeId} {node : Node P} (found : g.node? id = some node)
    (stack : List Frame) {order : List NodeId} (fresh : id ∉ order) :
    (snapshot g stack order).enter id = snapshot g (⟨id, 0⟩ :: stack) order := by
  simp [enter, snapshot, marksOf_enter found _ fresh]

theorem drain_nil (g : Graph P) (order : List NodeId) :
    drain g (snapshot g [] order) = .ok (snapshot g [] order) := by
  rw [drain]
  rfl

theorem drain_cons (g : Graph P) (top : Frame) (below : List Frame) (order : List NodeId) :
    drain g (snapshot g (top :: below) order) =
      match step g (snapshot g (top :: below) order) top below with
      | .error fault => .error fault
      | .ok next => drain g next := by
  rw [drain]
  split
  next empty => cases empty
  next top' below' shape =>
    obtain ⟨rfl, rfl⟩ := List.cons.inj shape
    split
    next fault failed => rw [failed]
    next next stepped => rw [stepped]

theorem step_leave {top : Frame} {node : Node P} (found : g.node? top.node = some node)
    (finished : node.dependency? top.cursor = none) (below : List Frame) (order : List NodeId) :
    step g (snapshot g (top :: below) order) top below =
      .ok (snapshot g below (order ++ [top.node])) := by
  simp [step, found, finished, snapshot, marksOf_leave found]

theorem step_child {top : Frame} {node : Node P} {child : NodeId}
    (found : g.node? top.node = some node) (reading : node.dependency? top.cursor = some child)
    (below : List Frame) {order : List NodeId} (holds : g.Holds order) :
    step g (snapshot g (top :: below) order) top below =
      if child ∈ order then .ok (snapshot g (⟨top.node, top.cursor + 1⟩ :: below) order)
      else
        match g.node? child with
        | none => .report (.danglingNode child.index)
        | some target =>
          if child ∈ (top :: below).map Frame.node then .report (.cycle target.name)
          else .ok (snapshot g (⟨child, 0⟩ :: ⟨top.node, top.cursor + 1⟩ :: below) order) := by
  cases target : g.node? child with
  | none =>
    have fresh : child ∉ order := by
      intro member
      obtain ⟨node, present⟩ := holds child member
      cases target.symm.trans present
    simp [step, found, reading, target, fresh]
  | some node =>
    have mark : (snapshot g (top :: below) order).marks[child.index]? = _ :=
      marksOf_of_node? target ((top :: below).map Frame.node) order
    by_cases done : child ∈ order
    · rw [markOf, if_pos done] at mark
      simp only [step, found, reading, target, mark, if_pos done]
      rfl
    · rw [markOf, if_neg done] at mark
      by_cases entered : child ∈ (top :: below).map Frame.node
      · rw [if_pos entered] at mark
        simp only [step, found, reading, target, mark, if_neg done, if_pos entered]
      · rw [if_neg entered] at mark
        simp only [step, found, reading, target, mark, if_neg done, if_neg entered]
        exact congrArg Except.ok (enter_snapshot target (⟨top.node, top.cursor + 1⟩ :: below) done)

/-- Running the loop until the top frame is left is the recursive walk over the dependencies that
this frame has not looked at. -/
theorem drain_snapshot (g : Graph P) (visiting order ids : List NodeId) :
    ∀ (top : Frame) (below : List Frame) (node : Node P),
      (top :: below).map Frame.node = visiting → g.node? top.node = some node →
      node.dependencies.drop top.cursor = ids → g.Holds order →
      drain g (snapshot g (top :: below) order) =
        match g.visited visiting order ids with
        | .error error => .report error
        | .ok after => drain g (snapshot g below (after ++ [top.node])) := by
  induction visiting, order, ids using Graph.visited_induction g with
  | nil visiting order =>
    intro top below node shape found finished holds
    have last : node.dependency? top.cursor = none := by
      rw [Node.dependency?_eq_getElem?]
      simpa using finished
    rw [drain_cons, step_leave found last, Graph.visited_nil]
  | done visiting order id ids member ih =>
    intro top below node shape found unread holds
    obtain ⟨reading, rest⟩ := Node.dependency?_of_drop unread
    rw [drain_cons, step_child found reading below holds, if_pos member, Graph.visited_cons,
      if_pos member]
    exact ih ⟨top.node, top.cursor + 1⟩ below node shape found rest holds
  | dangling visiting order id ids fresh missing =>
    intro top below node shape found unread holds
    obtain ⟨reading, rest⟩ := Node.dependency?_of_drop unread
    simp only [drain_cons, step_child found reading below holds, Graph.visited_cons,
      if_neg fresh, missing, Checked.report]
  | cyclic visiting order id ids target fresh present above =>
    intro top below node shape found unread holds
    obtain ⟨reading, rest⟩ := Node.dependency?_of_drop unread
    simp only [drain_cons, step_child found reading below holds, Graph.visited_cons,
      if_neg fresh, present, shape, if_pos above, Checked.report]
  | failed visiting order id ids target error fresh present outside stuck ih =>
    intro top below node shape found unread holds
    obtain ⟨reading, rest⟩ := Node.dependency?_of_drop unread
    have deeper := ih ⟨id, 0⟩ (⟨top.node, top.cursor + 1⟩ :: below) target
      (by rw [← shape]; rfl) present rfl holds
    rw [stuck] at deeper
    simp only [drain_cons g top below order,
      step_child found reading below holds, Graph.visited_cons,
      if_neg fresh, present, shape, if_neg outside, stuck]
    exact deeper
  | entered visiting order id ids target after fresh present outside finished ihBelow ihRest =>
    intro top below node shape found unread holds
    obtain ⟨reading, rest⟩ := Node.dependency?_of_drop unread
    have deeper := ihBelow ⟨id, 0⟩ (⟨top.node, top.cursor + 1⟩ :: below) target
      (by rw [← shape]; rfl) present rfl holds
    have grown : g.Holds (after ++ [id]) := (holds.visited finished).append_single present
    rw [finished] at deeper
    simp only [drain_cons g top below order,
      step_child found reading below holds, Graph.visited_cons,
      if_neg fresh, present, shape, if_neg outside, finished]
    exact deeper.trans (ihRest ⟨top.node, top.cursor + 1⟩ below node shape found rest grown)

theorem visit_snapshot {order : List NodeId} (holds : g.Holds order) (root : NodeId) :
    visit g (snapshot g [] order) root =
      match g.visited [] order [root] with
      | .error error => .report error
      | .ok after => .ok (snapshot g [] after) := by
  cases found : g.node? root with
  | none =>
    have fresh : root ∉ order := by
      intro member
      obtain ⟨node, present⟩ := holds root member
      cases found.symm.trans present
    simp [visit, found, Graph.visited_cons, fresh]
  | some node =>
    have mark : (snapshot g [] order).marks[root.index]? = _ := marksOf_of_node? found [] order
    by_cases done : root ∈ order
    · rw [markOf, if_pos done] at mark
      simp only [visit, found, mark, Graph.visited_cons, if_pos done, Graph.visited_nil]
    · rw [markOf, if_neg done, if_neg List.not_mem_nil] at mark
      simp only [visit, found, mark, Graph.visited_cons, if_neg done, if_neg List.not_mem_nil,
        enter_snapshot found [] done, Graph.visited_nil]
      rw [drain_snapshot g [root] order node.dependencies ⟨root, 0⟩ [] node rfl found rfl holds]
      cases g.visited [root] order node.dependencies with
      | error error => rfl
      | ok after => exact drain_nil g (after ++ [root])

theorem foldlM_visit (outputs : List Entry) {order : List NodeId} (holds : g.Holds order) :
    outputs.foldlM (fun w output => w.visit g output.node) (snapshot g [] order) =
      match g.visited [] order (outputs.map Entry.node) with
      | .error error => .report error
      | .ok after => .ok (snapshot g [] after) := by
  induction outputs generalizing order with
  | nil =>
    rw [List.map_nil, Graph.visited_nil]
    rfl
  | cons output outputs ih =>
    rw [List.foldlM_cons, visit_snapshot holds, List.map_cons,
      Graph.visited_cons_append g [] order output.node (outputs.map Entry.node)]
    cases finished : g.visited [] order [output.node] with
    | error error => rfl
    | ok after => exact ih (holds.visited finished)

end Walk

/-- The walk and its recursive form agree on every graph: on the order and on the error. -/
theorem Graph.postOrder_eq_ofExcept {P : Client} (g : Graph P) :
    g.postOrder = Checked.ofExcept g.depthFirst := by
  have begins : Walk.start g = Walk.snapshot g [] [] := by
    have marks : Array.replicate g.nodes.size .unseen = Walk.marksOf g [] [] :=
      Array.ext (by simp [Walk.marksOf]) (by simp [Walk.marksOf, Walk.markOf])
    simp [Walk.start, Walk.snapshot, marks]
  have none : g.Holds [] := by simp [Graph.Holds]
  have loop := Walk.foldlM_visit g.outputs.toList none
  have recursive : g.depthFirst = g.visited [] [] (g.outputs.toList.map Entry.node) := rfl
  rw [recursive, postOrder, begins, loop]
  cases g.visited [] [] (g.outputs.toList.map Entry.node) with
  | error error => rfl
  | ok order => simp [Walk.snapshot, bind, Except.bind, pure, Except.pure]

end Placement
