import Mathlib.Data.List.Chain
import Placement.Proofs.Graph.Recursion
import Placement.Proofs.Graph.Rounds

/-! How the stack, the marks and the order belong together in every state that the walk passes.
The frame on top has passed dependencies that are done. A frame under another one waits for the
node above it, which is the dependency that it passed last. -/
namespace Placement

theorem Node.take_succ_dependencies {P : Client} {n : Node P} {i : Nat} {id : NodeId}
    (reading : n.dependency? i = some id) :
    n.dependencies.take (i + 1) = n.dependencies.take i ++ [id] := by
  rw [dependency?_eq_getElem?] at reading
  rw [List.take_add_one, reading]
  rfl

theorem Node.numDependencies_le_of_dependency? {P : Client} {n : Node P} {i : Nat}
    (finished : n.dependency? i = none) : n.numDependencies ≤ i := by
  rw [dependency?_eq_getElem?] at finished
  rw [← length_dependencies]
  exact List.getElem?_eq_none_iff.mp finished

/-- The cursor is not further than the end of the dependencies, and behind the inputs it is at a
control dependency or at their end. -/
structure Node.CursorFits {P : Client} (n : Node P) (cursor : Nat) : Prop where
  bound : cursor ≤ n.inputs.size + n.controlDeps.size
  behind : ¬ cursor < n.inputs.size → ∃ position ≤ n.controlDeps.size,
    cursor = n.inputs.size + position ∧ n.dependency? cursor = n.controlDeps[position]?

theorem Node.cursorFits_of_le {P : Client} (n : Node P) {cursor : Nat}
    (inside : cursor ≤ n.numDependencies) : n.CursorFits cursor where
  bound := inside
  behind := by
    intro outside
    have bound : cursor ≤ n.inputs.size + n.controlDeps.size := inside
    refine ⟨cursor - n.inputs.size, by omega, by omega, ?_⟩
    simp [dependency?, Array.getElem?_eq_none (Nat.le_of_not_lt outside)]

namespace Walk

variable {P : Client} {g : Graph P} {w next : Walk} {top : Frame} {below : List Frame}
  {order : List NodeId} {id child : NodeId} {node target : Node P}

def visiting (w : Walk) : List NodeId := w.stack.map Frame.node

/-- All dependencies that the frame has passed are in the order. -/
def CaughtUp (g : Graph P) (order : List NodeId) (frame : Frame) : Prop :=
  ∃ node, g.node? frame.node = some node ∧ frame.cursor ≤ node.numDependencies ∧
    node.dependencies.take frame.cursor ⊆ order

/-- The lower frame has just passed the node of the upper one, and what it passed before that is in
the order. -/
def WaitsFor (g : Graph P) (order : List NodeId) (upper lower : Frame) : Prop :=
  ∃ node i, g.node? lower.node = some node ∧ lower.cursor = i + 1 ∧
    node.dependency? i = some upper.node ∧ node.dependencies.take i ⊆ order

theorem caughtUp_enter (order : List NodeId) (found : g.node? id = some node) :
    CaughtUp g order ⟨id, 0⟩ :=
  ⟨node, found, Nat.zero_le _, by simp⟩

theorem CaughtUp.pass (caught : CaughtUp g order top) (found : g.node? top.node = some node)
    (reading : node.dependency? top.cursor = some child) (done : child ∈ order) :
    CaughtUp g order ⟨top.node, top.cursor + 1⟩ := by
  obtain ⟨own, found', _, passed⟩ := caught
  obtain rfl : node = own := Option.some.inj (found.symm.trans found')
  refine ⟨node, found, Node.lt_numDependencies_of_dependency? reading, ?_⟩
  simp only [Node.take_succ_dependencies reading]
  exact List.append_subset.mpr ⟨passed, by simpa using done⟩

theorem CaughtUp.waitsFor (caught : CaughtUp g order top) (found : g.node? top.node = some node)
    (reading : node.dependency? top.cursor = some child) :
    WaitsFor g order ⟨child, 0⟩ ⟨top.node, top.cursor + 1⟩ := by
  obtain ⟨own, found', _, passed⟩ := caught
  obtain rfl : node = own := Option.some.inj (found.symm.trans found')
  exact ⟨node, top.cursor, found, rfl, reading, passed⟩

/-- A frame that has nothing left to look at has passed all dependencies. -/
theorem CaughtUp.finish (caught : CaughtUp g order top) (found : g.node? top.node = some node)
    (finished : node.dependency? top.cursor = none) :
    top.cursor = node.numDependencies ∧ node.dependencies ⊆ order := by
  obtain ⟨own, found', inside, passed⟩ := caught
  obtain rfl : node = own := Option.some.inj (found.symm.trans found')
  have full := Nat.le_antisymm inside (Node.numDependencies_le_of_dependency? finished)
  rw [full, ← Node.length_dependencies, List.take_length] at passed
  exact ⟨full, passed⟩

variable {upper lower : Frame}

theorem WaitsFor.mono {order' : List NodeId} (waits : WaitsFor g order upper lower)
    (grown : order ⊆ order') : WaitsFor g order' upper lower := by
  obtain ⟨node, i, found, moved, reading, passed⟩ := waits
  exact ⟨node, i, found, moved, reading, List.Subset.trans passed grown⟩

/-- When the upper frame is left, the lower one has nothing to wait for. -/
theorem WaitsFor.caughtUp (waits : WaitsFor g order upper lower) :
    CaughtUp g (order ++ [upper.node]) lower := by
  obtain ⟨node, i, found, moved, reading, passed⟩ := waits
  refine ⟨node, found, ?_, ?_⟩
  · rw [moved]
    exact Node.lt_numDependencies_of_dependency? reading
  · rw [moved, Node.take_succ_dependencies reading]
    exact List.append_subset.mpr
      ⟨List.subset_append_of_subset_left _ passed, List.subset_append_right _ _⟩

/-- The frames below wait for a node, wherever its own cursor is. -/
theorem isChain_waitsFor_move (waiting : (top :: below).IsChain (WaitsFor g order)) (i : Nat) :
    (⟨top.node, i⟩ :: below).IsChain (WaitsFor g order) := by
  refine List.IsChain.imp_head ?_ waiting
  intro lower waits
  exact waits

theorem markOf_eq_done_iff {visiting : List NodeId} :
    markOf visiting order id = .done ↔ id ∈ order := by
  unfold markOf
  split
  next member => simp [member]
  next fresh => split <;> simp [fresh]

theorem markOf_eq_visiting_iff {visiting : List NodeId} :
    markOf visiting order id = .visiting ↔ id ∉ order ∧ id ∈ visiting := by
  unfold markOf
  split
  next member => simp [member]
  next => split <;> simp [*]

theorem markOf_eq_unseen_iff {visiting : List NodeId} :
    markOf visiting order id = .unseen ↔ id ∉ order ∧ id ∉ visiting := by
  unfold markOf
  split
  next member => simp [member]
  next => split <;> simp [*]

/-- The marks say which nodes are on the stack and which are in the order, no node is at two of
these places, and every frame has passed only what is done or waited for. -/
structure Orderly (g : Graph P) (w : Walk) : Prop where
  marks : w.marks = marksOf g w.visiting w.order.toList
  owned : g.Holds (w.visiting ++ w.order.toList)
  distinct : (w.visiting ++ w.order.toList).Nodup
  closed : ∀ id ∈ w.order.toList, ∀ node, g.node? id = some node →
    node.dependencies ⊆ w.order.toList
  waiting : w.stack.IsChain (WaitsFor g w.order.toList)
  caught : ∀ frame ∈ w.stack.head?, CaughtUp g w.order.toList frame

theorem Orderly.start (g : Graph P) : Orderly g (start g) where
  marks := by
    apply Array.ext
    · simp [Walk.start, marksOf]
    · simp [Walk.start, marksOf, markOf, visiting]
  owned := by simp [Walk.start, visiting, Graph.Holds]
  distinct := by simp [Walk.start, visiting]
  closed := by simp [Walk.start]
  waiting := by simp [Walk.start]
  caught := by simp [Walk.start]

theorem Orderly.mark (orderly : Orderly g w) (found : g.node? id = some node) :
    w.marks[id.index]? = some (markOf w.visiting w.order.toList id) := by
  rw [orderly.marks]
  exact marksOf_of_node? found _ _

/-- A node that was not seen may be entered, from the frame that has just passed it if there is
one. -/
theorem Orderly.push (orderly : Orderly g w) (found : g.node? id = some node)
    (unseen : w.marks[id.index]? = some .unseen) {stack : List Frame}
    (visiting : stack.map Frame.node = w.visiting)
    (waiting : (⟨id, 0⟩ :: stack).IsChain (WaitsFor g w.order.toList)) :
    Orderly g (enter { w with stack := stack } id) := by
  have fresh : id ∉ w.order.toList ∧ id ∉ w.visiting := by
    rw [orderly.mark found] at unseen
    exact markOf_eq_unseen_iff.mp (Option.some.inj unseen)
  have entered : (enter { w with stack := stack } id).visiting = id :: w.visiting := by
    rw [← visiting]
    rfl
  constructor
  · rw [entered]
    simp only [enter, orderly.marks]
    exact marksOf_enter found _ fresh.1
  · rw [entered, List.cons_append]
    intro other member
    rcases List.mem_cons.mp member with rfl | member
    · exact ⟨node, found⟩
    · exact orderly.owned other member
  · rw [entered, List.cons_append, List.nodup_cons]
    exact ⟨by simp [enter, fresh.1, fresh.2], orderly.distinct⟩
  · exact orderly.closed
  · exact waiting
  · simp [enter, caughtUp_enter _ found]

theorem Orderly.pass (orderly : Orderly g w) (shape : w.stack = top :: below)
    (found : g.node? top.node = some node) (reading : node.dependency? top.cursor = some child)
    (present : g.node? child = some target) (done : w.marks[child.index]? = some .done) :
    Orderly g { w with stack := ⟨top.node, top.cursor + 1⟩ :: below } := by
  have member : child ∈ w.order.toList := by
    rw [orderly.mark present] at done
    exact markOf_eq_done_iff.mp (Option.some.inj done)
  have caught := orderly.caught top (by simp [shape])
  have waiting := orderly.waiting
  rw [shape] at waiting
  have same : visiting { w with stack := ⟨top.node, top.cursor + 1⟩ :: below } = w.visiting := by
    simp [visiting, shape]
  constructor
  · rw [same]
    exact orderly.marks
  · rw [same]
    exact orderly.owned
  · rw [same]
    exact orderly.distinct
  · exact orderly.closed
  · exact isChain_waitsFor_move waiting _
  · simp [caught.pass found reading member]

theorem Orderly.leave (orderly : Orderly g w) (shape : w.stack = top :: below)
    (found : g.node? top.node = some node) (finished : node.dependency? top.cursor = none) :
    Orderly g ⟨w.marks.setIfInBounds top.node.index .done, below, w.order.push top.node⟩ := by
  have before : w.visiting = top.node :: below.map Frame.node := by simp [visiting, shape]
  have caught := orderly.caught top (by simp [shape])
  have waiting := orderly.waiting
  rw [shape] at waiting
  have moved : (below.map Frame.node ++ (w.order.toList ++ [top.node])).Perm
      (w.visiting ++ w.order.toList) := by
    rw [before, ← List.append_assoc]
    exact List.perm_append_singleton _ _
  constructor
  · rw [orderly.marks, before, marksOf_leave found]
    simp [visiting]
  · intro id member
    exact orderly.owned id (moved.subset (by simpa [visiting] using member))
  · simpa [visiting] using moved.nodup_iff.mpr orderly.distinct
  · simp only [Array.toList_push]
    intro id member node' found'
    apply List.subset_append_of_subset_left
    rcases List.mem_append.mp member with member | member
    · exact orderly.closed id member node' found'
    · obtain rfl : id = top.node := by simpa using member
      obtain rfl : node = node' := Option.some.inj (found.symm.trans found')
      exact (caught.finish found finished).2
  · simp only [Array.toList_push]
    exact waiting.tail.imp (fun _ _ waits => waits.mono (List.subset_append_left _ _))
  · simp only [Array.toList_push]
    intro lower head
    cases below with
    | nil => cases head
    | cons first rest =>
      obtain rfl : first = lower := by simpa using head
      exact (List.isChain_cons_cons.mp waiting).1.caughtUp

/-- The walk keeps its stack, its marks and its order in step. -/
theorem orderly_invariant (g : Graph P) : Invariant g (Orderly g) where
  start := .start g
  enter := by
    intro w id node orderly idle found unseen
    have pushed := orderly.push found unseen (by simp [visiting, idle] : [].map Frame.node = _)
      (by simp)
    rwa [← idle] at pushed
  round := by
    intro w top below next orderly shape stepped
    obtain ⟨node, found, ⟨finished, rfl⟩ | ⟨child, target, reading, present, passing⟩⟩ :=
      step_eq_ok stepped
    · exact orderly.leave shape found finished
    · obtain ⟨done, rfl⟩ | ⟨unseen, rfl⟩ := passing
      · exact orderly.pass shape found reading present done
      · have caught := orderly.caught top (by simp [shape])
        have waiting := orderly.waiting
        rw [shape] at waiting
        apply orderly.push present unseen
        · simp [visiting, shape]
        · refine List.isChain_cons_cons.mpr ⟨caught.waitsFor found reading, ?_⟩
          exact isChain_waitsFor_move waiting _

theorem Orderly.cursor_le (orderly : Orderly g w) :
    ∀ frame ∈ w.stack, ∃ node, g.node? frame.node = some node ∧
      frame.cursor ≤ node.numDependencies := by
  refine orderly.waiting.induction _ w.stack ?_ ?_
  · intro upper lower waits _
    obtain ⟨node, found, inside, _⟩ := waits.caughtUp
    exact ⟨node, found, inside⟩
  · intro nonempty
    obtain ⟨node, found, inside, _⟩ := orderly.caught _ (List.head_mem_head? nonempty)
    exact ⟨node, found, inside⟩

def Marked (g : Graph P) (w : Walk) (mark : Mark) (id : NodeId) : Prop :=
  g.Has id ∧ w.marks[id.index]? = some mark

theorem Orderly.marked_iff (orderly : Orderly g w) (mark : Mark) (id : NodeId) :
    Marked g w mark id ↔ g.Has id ∧ markOf w.visiting w.order.toList id = mark := by
  refine and_congr_right (fun has => ?_)
  obtain ⟨node, found⟩ := Option.isSome_iff_exists.mp ((g.has_iff_isSome_node? id).mp has)
  rw [orderly.mark found, Option.some.injEq]

theorem Orderly.has (orderly : Orderly g w) (member : id ∈ w.visiting ++ w.order.toList) :
    g.Has id := by
  obtain ⟨node, found⟩ := orderly.owned id member
  exact Graph.has_of_node? found

theorem Orderly.marked_visiting_iff (orderly : Orderly g w) (id : NodeId) :
    Marked g w .visiting id ↔ id ∈ w.visiting := by
  rw [orderly.marked_iff, markOf_eq_visiting_iff]
  constructor
  · exact fun marked => marked.2.2
  · intro member
    have apart := (List.nodup_append.mp orderly.distinct).2.2
    have fresh : id ∉ w.order.toList := fun listed => apart id member id listed rfl
    exact ⟨orderly.has (List.mem_append_left _ member), fresh, member⟩

theorem Orderly.marked_done_iff (orderly : Orderly g w) (id : NodeId) :
    Marked g w .done id ↔ id ∈ w.order.toList := by
  rw [orderly.marked_iff, markOf_eq_done_iff]
  constructor
  · exact And.right
  · intro member
    exact ⟨orderly.has (List.mem_append_right _ member), member⟩

/-- The dependency that the lower frame's cursor has just passed is the node of the upper frame. -/
def JustPassed (g : Graph P) (upper lower : Frame) : Prop :=
  ∃ node i, g.node? lower.node = some node ∧ lower.cursor = i + 1 ∧
    node.dependency? i = some upper.node

/-- What the stack, the marks and the order are to one another whenever the loop looks at its
stack. -/
structure Disciplined (g : Graph P) (w : Walk) : Prop where
  marks : w.marks.size = g.nodes.size
  distinct : w.visiting.Nodup
  visiting : ∀ id, id ∈ w.visiting ↔ Marked g w .visiting id
  passed : w.stack.IsChain (JustPassed g)
  once : w.order.toList.Nodup
  done : ∀ id, id ∈ w.order.toList ↔ Marked g w .done id
  closed : ∀ a b, Marked g w .done a → g.DependsOn a b → Marked g w .done b
  cursors : ∀ frame ∈ w.stack, ∃ node, g.node? frame.node = some node ∧
    node.CursorFits frame.cursor

theorem Orderly.disciplined (orderly : Orderly g w) : Disciplined g w where
  marks := by simp [orderly.marks, marksOf]
  distinct := (List.nodup_append.mp orderly.distinct).1
  visiting := fun id => (orderly.marked_visiting_iff id).symm
  passed := by
    refine orderly.waiting.imp ?_
    rintro upper lower ⟨node, i, found, moved, reading, _⟩
    exact ⟨node, i, found, moved, reading⟩
  once := (List.nodup_append.mp orderly.distinct).2.1
  done := fun id => (orderly.marked_done_iff id).symm
  closed := by
    rintro a b done ⟨node, found, depends⟩
    rw [orderly.marked_done_iff] at done ⊢
    exact orderly.closed a done node found depends
  cursors := by
    intro frame member
    obtain ⟨node, found, inside⟩ := orderly.cursor_le frame member
    exact ⟨node, found, node.cursorFits_of_le inside⟩

end Walk
end Placement
