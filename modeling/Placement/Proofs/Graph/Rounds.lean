import Placement.Graph.Reach
import Placement.Graph.Walk
import Placement.Proofs.Loop

namespace Placement.Walk

variable {P : Client} {g : Graph P} {w next : Walk} {top : Frame} {below : List Frame}

/-- What a round can do: leave the node on top, pass by a dependency that is done, or enter one
that was not seen. -/
theorem step_eq_ok (stepped : step g w top below = .ok next) :
    ∃ node, g.node? top.node = some node ∧
      ((node.dependency? top.cursor = none ∧
        next = ⟨w.marks.setIfInBounds top.node.index .done, below, w.order.push top.node⟩) ∨
      ∃ child target, node.dependency? top.cursor = some child ∧ g.node? child = some target ∧
        ((w.marks[child.index]? = some .done ∧
          next = { w with stack := ⟨top.node, top.cursor + 1⟩ :: below }) ∨
        (w.marks[child.index]? = some .unseen ∧
          next = enter { w with stack := ⟨top.node, top.cursor + 1⟩ :: below } child))) := by
  unfold step at stepped
  split at stepped
  next => cases stepped
  next node found =>
    refine ⟨node, found, ?_⟩
    split at stepped
    next read => exact .inl ⟨read, (Except.ok.inj stepped).symm⟩
    next child read =>
      split at stepped
      next => cases stepped
      next => cases stepped
      next => cases stepped
      next target present done =>
        exact .inr ⟨child, target, read, present, .inl ⟨done, (Except.ok.inj stepped).symm⟩⟩
      next target present unseen =>
        exact .inr ⟨child, target, read, present, .inr ⟨unseen, (Except.ok.inj stepped).symm⟩⟩

/-- The states in which the loop looks at its stack, from the first output on. -/
inductive Passes (g : Graph P) : Walk → Prop where
  | root (w : Walk) (output : Entry) (node : Node P)
      (comes : ComesTo (fun w output => visit g w output.node) (start g) g.outputs.toList output w)
      (found : g.node? output.node = some node)
      (unseen : w.marks[output.node.index]? = some .unseen) : Passes g (w.enter output.node)
  | round (w next : Walk) (top : Frame) (below : List Frame) (passed : Passes g w)
      (shape : w.stack = top :: below) (stepped : step g w top below = .ok next) : Passes g next

/-- The property holds before the walk, and the walk keeps it. -/
structure Invariant (g : Graph P) (motive : Walk → Prop) : Prop where
  start : motive (start g)
  enter : ∀ w id node, motive w → w.stack = [] → g.node? id = some node →
    w.marks[id.index]? = some .unseen → motive (w.enter id)
  round : ∀ w top below next, motive w → w.stack = top :: below →
    step g w top below = .ok next → motive next

namespace Invariant

variable {motive : Walk → Prop} (invariant : Invariant g motive)

include invariant

theorem drain (holds : motive w) (finished : w.drain g = .ok next) :
    motive next ∧ next.stack = [] := by
  fun_induction Walk.drain g w with
  | case1 w shape =>
    cases finished
    exact ⟨holds, shape⟩
  | case2 => cases finished
  | case3 w top below shape after stepped ih =>
    exact ih (invariant.round w top below after holds shape stepped) finished

theorem visit {root : NodeId} (holds : motive w) (idle : w.stack = [])
    (finished : w.visit g root = .ok next) : motive next ∧ next.stack = [] := by
  unfold Walk.visit at finished
  split at finished
  next => cases finished
  next => cases finished
  next node found unseen =>
    exact invariant.drain (invariant.enter w root node holds idle found unseen) finished
  next =>
    cases finished
    exact ⟨holds, idle⟩

theorem passes (passed : Passes g w) : motive w := by
  induction passed with
  | root w output node comes found unseen =>
    -- Between two outputs the stack is empty: each visit before this one was drained.
    have between : motive w ∧ w.stack = [] := comes.invariant ⟨invariant.start, rfl⟩
      (fun w output _ next holds visited => invariant.visit holds.1 holds.2 visited)
    exact invariant.enter w output.node node between.1 between.2 found unseen
  | round w next top below _ shape stepped ih =>
    exact invariant.round w top below next ih shape stepped

end Invariant

structure InRange (g : Graph P) (w : Walk) : Prop where
  marks : w.marks.size = g.nodes.size
  stack : ∀ frame ∈ w.stack, g.Has frame.node

theorem InRange.enter (inside : InRange g w) {id : NodeId} (has : g.Has id) :
    InRange g (w.enter id) where
  marks := by simp [Walk.enter, inside.marks]
  stack := by
    intro frame member
    rcases List.mem_cons.mp member with rfl | member
    · exact has
    · exact inside.stack frame member

theorem InRange.round (inside : InRange g w) (shape : w.stack = top :: below)
    (stepped : step g w top below = .ok next) : InRange g next := by
  obtain ⟨marks, stack⟩ := inside
  rw [shape, List.forall_mem_cons] at stack
  have advanced : InRange g { w with stack := ⟨top.node, top.cursor + 1⟩ :: below } :=
    ⟨marks, List.forall_mem_cons.mpr stack⟩
  obtain ⟨node, _, ⟨_, rfl⟩ | ⟨child, target, _, present, ⟨_, rfl⟩ | ⟨_, rfl⟩⟩⟩ :=
    step_eq_ok stepped
  · exact ⟨by simp [marks], stack.2⟩
  · exact advanced
  · exact advanced.enter (Graph.has_of_node? present)

theorem inRange_invariant (g : Graph P) : Invariant g (InRange g) where
  start := ⟨by simp [start], by simp [start]⟩
  enter := fun _ _ _ inside _ found _ => inside.enter (Graph.has_of_node? found)
  round := fun _ _ _ _ => InRange.round

/-- No state that the walk passes has a node on its stack that the arena lacks. -/
theorem inRange_of_passes (passed : Passes g w) : InRange g w :=
  (inRange_invariant g).passes passed

end Placement.Walk
