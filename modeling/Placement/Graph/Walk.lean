import Placement.Graph.Basic

/-! The post-order walk over the nodes that the outputs depend on: producers before consumers.
The walk keeps its own stack, so its depth is not limited. Its loop ends because every step
either marks a node that was not seen, or moves a cursor, or leaves a node. -/
namespace Placement

inductive Mark where
  | unseen
  | visiting
  | done
deriving DecidableEq

/-- A node being visited, and the position of its dependency that is to be looked at next. -/
structure Frame where
  node : NodeId
  cursor : Nat

/-- How many dependencies of a frame's node are still to be looked at, and one for leaving it. -/
def Frame.remaining {P : Client} (g : Graph P) (f : Frame) : Nat :=
  match g.node? f.node with
  | some node => node.numDependencies - f.cursor + 1
  | none => 1

structure Walk where
  /-- One mark for each node of the arena. -/
  marks : Array Mark
  stack : List Frame
  order : Array NodeId

namespace Walk

variable {P : Client}

def start (g : Graph P) : Walk := ⟨Array.replicate g.nodes.size .unseen, [], #[]⟩

def enter (w : Walk) (id : NodeId) : Walk :=
  { w with marks := w.marks.setIfInBounds id.index .visiting, stack := ⟨id, 0⟩ :: w.stack }

/-- One round of the loop, for the frame on top of the stack and those below it. -/
def step (g : Graph P) (w : Walk) (top : Frame) (below : List Frame) : Checked GraphError Walk :=
  match g.node? top.node with
  | none => .error .outOfRange
  | some node =>
    match node.dependency? top.cursor with
    | none =>
      .ok {
        marks := w.marks.setIfInBounds top.node.index .done
        stack := below
        order := w.order.push top.node }
    | some child =>
      let advanced := ⟨top.node, top.cursor + 1⟩ :: below
      match g.node? child, w.marks[child.index]? with
      | none, _ => .report (.danglingNode child.index)
      | some _, none => .error .outOfRange
      | some target, some .visiting => .report (.cycle target.name)
      | some _, some .done => .ok { w with stack := advanced }
      | some _, some .unseen => .ok (enter { w with stack := advanced } child)

def stackWork (g : Graph P) : List Frame → Nat
  | [] => 0
  | frame :: below => frame.remaining g + stackWork g below

/-- What a step makes smaller: the unseen nodes first, then the work left on the stack. -/
def work (g : Graph P) (w : Walk) : Nat × Nat :=
  (w.marks.count .unseen, stackWork g w.stack)

theorem count_unseen_done_le (marks : Array Mark) (i : Nat) :
    (marks.setIfInBounds i .done).count .unseen ≤ marks.count .unseen := by
  unfold Array.setIfInBounds
  split
  next inside => simp [Array.count_set]
  next => exact Nat.le_refl _

theorem count_unseen_visiting_lt {marks : Array Mark} {i : Nat}
    (unseen : marks[i]? = some .unseen) :
    (marks.setIfInBounds i .visiting).count .unseen < marks.count .unseen := by
  obtain ⟨inside, found⟩ := Array.getElem?_eq_some_iff.mp unseen
  have member : Mark.unseen ∈ marks := Array.mem_of_getElem found
  have positive : 0 < marks.count .unseen := Array.count_pos_iff.mpr member
  simp only [Array.setIfInBounds, dif_pos inside, Array.count_set, found]
  simp
  omega

theorem work_decreases {g : Graph P} {w next : Walk} {top : Frame} {below : List Frame}
    (shape : w.stack = top :: below) (stepped : step g w top below = .ok next) :
    Prod.Lex (· < ·) (· < ·) (next.work g) (w.work g) := by
  obtain ⟨marks, stack, order⟩ := w
  cases shape
  simp only [step] at stepped
  split at stepped
  next => cases stepped
  next node found =>
    split at stepped
    next =>
      cases stepped
      rcases Nat.lt_or_eq_of_le (count_unseen_done_le marks top.node.index) with fewer | equal
      · exact Prod.Lex.left _ _ fewer
      · simp only [work, equal]
        apply Prod.Lex.right
        simp [stackWork, Frame.remaining, found]
    next child reading =>
      have inside := Node.lt_numDependencies_of_dependency? reading
      split at stepped
      next => cases stepped
      next => cases stepped
      next => cases stepped
      next =>
        cases stepped
        apply Prod.Lex.right
        simp [stackWork, Frame.remaining, found]
        omega
      next unseen =>
        cases stepped
        exact Prod.Lex.left _ _ (count_unseen_visiting_lt unseen)

def drain (g : Graph P) (w : Walk) : Checked GraphError Walk :=
  match _shape : w.stack with
  | [] => .ok w
  | top :: below =>
    match _stepped : step g w top below with
    | .error fault => .error fault
    | .ok next => drain g next
termination_by w.work g
decreasing_by exact work_decreases _shape _stepped

/-- Visits an output's node with all it depends on, unless an earlier visit reached it. -/
def visit (g : Graph P) (w : Walk) (root : NodeId) : Checked GraphError Walk :=
  match g.node? root, w.marks[root.index]? with
  | none, _ => .report (.danglingNode root.index)
  | some _, none => .error .outOfRange
  | some _, some .unseen => drain g (w.enter root)
  | some _, some _ => .ok w

end Walk

/-- The nodes that the outputs depend on, each once, after all it depends on. -/
def Graph.postOrder {P : Client} (g : Graph P) : Checked GraphError (List NodeId) := do
  let w ← g.outputs.toList.foldlM (fun w output => w.visit g output.node) (Walk.start g)
  return w.order.toList

end Placement
