import Placement.Proofs.DeviceVector.Safety
import Placement.Proofs.Graph.Trail

namespace Placement.Walk

variable {P : Client} {g : Graph P} {w next : Walk} {top : Frame} {below : List Frame}
  {order : List NodeId} {node : Node P} {read : NodeId × Nat}

/-- The dependency that the next round looks at, as a node and a position among what it depends
on. -/
def reading? (g : Graph P) (w : Walk) : Option (NodeId × Nat) := do
  let top ← w.stack.head?
  let node ← g.node? top.node
  let _ ← node.dependency? top.cursor
  return (top.node, top.cursor)

theorem reading?_of_nil (idle : w.stack = []) : reading? g w = none := by
  simp [reading?, idle]

theorem reading?_of_cons (shape : w.stack = top :: below) (found : g.node? top.node = some node) :
    reading? g w = (node.dependency? top.cursor).map (fun _ => (top.node, top.cursor)) := by
  simp only [reading?, shape, found, List.head?_cons, Option.bind_eq_bind, Option.bind_some]
  cases node.dependency? top.cursor <;> rfl

/-- The dependency is one of a node in the order, or a cursor on the stack has passed it. -/
def HasRead (g : Graph P) (order : List NodeId) (stack : List Frame) (read : NodeId × Nat) : Prop :=
  (read.1 ∈ order ∧ ∃ node, g.node? read.1 = some node ∧ read.2 < node.numDependencies) ∨
    ∃ frame ∈ stack, frame.node = read.1 ∧ read.2 < frame.cursor

theorem hasRead_cons_iff :
    HasRead g order (top :: below) read ↔
      (top.node = read.1 ∧ read.2 < top.cursor) ∨ HasRead g order below read := by
  simp only [HasRead, List.mem_cons, exists_eq_or_imp]
  exact or_left_comm

theorem hasRead_push_iff {id : NodeId} (found : g.node? id = some node) :
    HasRead g (order ++ [id]) below read ↔
      (id = read.1 ∧ read.2 < node.numDependencies) ∨ HasRead g order below read := by
  constructor
  · rintro (⟨member, own, found', inside⟩ | passed)
    · rcases List.mem_append.mp member with member | member
      · exact .inr (.inl ⟨member, own, found', inside⟩)
      · obtain rfl : read.1 = id := by simpa using member
        obtain rfl : node = own := Option.some.inj (found.symm.trans found')
        exact .inl ⟨rfl, inside⟩
    · exact .inr (.inr passed)
  · rintro (⟨rfl, inside⟩ | ⟨member, listed⟩ | passed)
    · exact .inl ⟨by simp, node, found, inside⟩
    · exact .inl ⟨List.mem_append_left _ member, listed⟩
    · exact .inr passed

theorem hasRead_move_iff {id : NodeId} {i : Nat} :
    HasRead g order (⟨id, i + 1⟩ :: below) read ↔
      HasRead g order (⟨id, i⟩ :: below) read ∨ (id, i) = read := by
  obtain ⟨other, j⟩ := read
  rw [hasRead_cons_iff, hasRead_cons_iff, Prod.mk.injEq, Nat.lt_succ_iff_lt_or_eq]
  grind

/-- A round looks at a dependency for the first time. -/
theorem Orderly.not_hasRead (orderly : Orderly g w) (reading : reading? g w = some read) :
    ¬ HasRead g w.order.toList w.stack read := by
  cases shape : w.stack with
  | nil =>
    rw [reading?_of_nil shape] at reading
    cases reading
  | cons top below =>
    obtain ⟨node, found, _⟩ := orderly.caught top (by simp [shape])
    rw [reading?_of_cons shape found, Option.map_eq_some_iff] at reading
    obtain ⟨child, _, rfl⟩ := reading
    have alone : top.node ∉ below.map Frame.node ++ w.order.toList := by
      have distinct := orderly.distinct
      simp only [visiting, shape, List.map_cons, List.cons_append] at distinct
      exact (List.nodup_cons.mp distinct).1
    rw [List.mem_append, not_or] at alone
    rw [hasRead_cons_iff]
    rintro (⟨_, passed⟩ | ⟨listed, _⟩ | ⟨frame, member, same, _⟩)
    · exact Nat.lt_irrefl _ passed
    · exact alone.2 listed
    · exact alone.1 (List.mem_map.mpr ⟨frame, member, same⟩)

/-- What has been read after a move is what had been read before it and what was read in it. -/
theorem Orderly.hasRead_follows_iff (orderly : Orderly g w) (follows : Follows g w next) :
    HasRead g next.order.toList next.stack read ↔
      HasRead g w.order.toList w.stack read ∨ reading? g w = some read := by
  cases follows with
  | enter id node idle found unseen =>
    rw [reading?_of_nil idle]
    simp [enter, hasRead_cons_iff]
  | round next top below shape stepped =>
    obtain ⟨node, found, ⟨finished, rfl⟩ | ⟨child, target, reading, present, passing⟩⟩ :=
      step_eq_ok stepped
    · have caught := orderly.caught top (by simp [shape])
      have full := (caught.finish found finished).1
      rw [reading?_of_cons shape found, finished, shape, hasRead_cons_iff, full]
      simp [hasRead_push_iff found]
    · rw [reading?_of_cons shape found, reading, shape, Option.map_some, Option.some.injEq,
        ← hasRead_move_iff]
      obtain ⟨done, rfl⟩ | ⟨unseen, rfl⟩ := passing
      · rfl
      · simp [enter, hasRead_cons_iff]

/-- Along states that follow one from another nothing is read twice, nor what the first of them had
read before. -/
theorem nodup_readings {states : List Walk} (chain : (w :: states).IsChain (Follows g))
    (orderly : Orderly g w) :
    ((w :: states).filterMap (reading? g)).Nodup ∧
      ∀ read ∈ (w :: states).filterMap (reading? g), ¬ HasRead g w.order.toList w.stack read := by
  induction states generalizing w with
  | nil =>
    cases reading : reading? g w with
    | none => simp [reading]
    | some first => simpa [reading] using orderly.not_hasRead reading
  | cons next states ih =>
    obtain ⟨follows, chain⟩ := List.isChain_cons_cons.mp chain
    obtain ⟨nodup, fresh⟩ := ih chain ((orderly_invariant g).follows orderly follows)
    have later : ∀ read ∈ (next :: states).filterMap (reading? g),
        ¬ (HasRead g w.order.toList w.stack read ∨ reading? g w = some read) := by
      intro read member
      rw [← orderly.hasRead_follows_iff follows]
      exact fresh read member
    cases reading : reading? g w with
    | none =>
      rw [List.filterMap_cons_none reading]
      exact ⟨nodup, fun read member had => later read member (.inl had)⟩
    | some first =>
      rw [List.filterMap_cons_some reading]
      refine ⟨List.nodup_cons.mpr ⟨fun member => later first member (.inr reading), nodup⟩, ?_⟩
      intro read member
      rcases List.mem_cons.mp member with rfl | member
      · exact orderly.not_hasRead reading
      · exact fun had => later read member (.inl had)

/-- At the end of such states the reads of all of them have been made. -/
theorem hasRead_getLast?_iff {states : List Walk} {last : Walk}
    (chain : (w :: states).IsChain (Follows g)) (orderly : Orderly g w)
    (ended : (w :: states).getLast? = some last) (read : NodeId × Nat) :
    HasRead g last.order.toList last.stack read ∨ reading? g last = some read ↔
      HasRead g w.order.toList w.stack read ∨ read ∈ (w :: states).filterMap (reading? g) := by
  induction states generalizing w with
  | nil =>
    obtain rfl : w = last := by simpa using ended
    simp
  | cons next states ih =>
    obtain ⟨follows, chain⟩ := List.isChain_cons_cons.mp chain
    rw [List.getLast?_cons_cons] at ended
    rw [ih chain ((orderly_invariant g).follows orderly follows) ended,
      orderly.hasRead_follows_iff follows, or_assoc]
    simp [List.mem_filterMap]

def readings (g : Graph P) : List (NodeId × Nat) := (trail g).filterMap (reading? g)

theorem filterMap_start_trail (g : Graph P) :
    (start g :: trail g).filterMap (reading? g) = readings g :=
  List.filterMap_cons_none (reading?_of_nil rfl)

theorem readings_nodup (g : Graph P) : (readings g).Nodup := by
  rw [← filterMap_start_trail]
  exact (nodup_readings (leads_trail g).chain (.start g)).1

theorem getLast?_of_postOrder (walked : g.postOrder = .ok order) :
    ∃ last, (start g :: trail g).getLast? = some last ∧ last.stack = [] ∧
      last.order.toList = order := by
  obtain ⟨last, finished, returned⟩ := except_bind_eq_ok_iff.mp walked
  refine ⟨last, (leads_trail g).last last finished, ?_, Except.ok.inj returned⟩
  exact foldlM_invariant (motive := fun w => w.stack = []) rfl
    (fun _ _ _ _ idle visited => stack_of_visit idle visited) finished

theorem mem_readings_iff (walked : g.postOrder = .ok order) (id : NodeId) (i : Nat) :
    (id, i) ∈ readings g ↔
      id ∈ order ∧ ∃ node, g.node? id = some node ∧ i < node.numDependencies := by
  obtain ⟨last, ended, idle, rfl⟩ := getLast?_of_postOrder walked
  have all := hasRead_getLast?_iff (leads_trail g).chain (.start g) ended (id, i)
  rw [reading?_of_nil idle, idle, filterMap_start_trail] at all
  simpa [HasRead, start] using all.symm

/-- A round that finds its nodes and marks in range answers. -/
theorem InRange.answers_step (inside : InRange g w) (shape : w.stack = top :: below) :
    (step g w top below).Answers := by
  have has := inside.stack top (by simp [shape])
  obtain ⟨node, found⟩ := Option.isSome_iff_exists.mp ((g.has_iff_isSome_node? top.node).mp has)
  unfold step
  simp only [found]
  split
  next => exact .inl ⟨_, rfl⟩
  next child reading =>
    split
    next => exact .inr ⟨_, rfl⟩
    next target present missing =>
      have own : child.index < w.marks.size := by
        rw [inside.marks]
        exact Graph.index_lt_of_node? present
      exact absurd missing (by simp [own])
    next => exact .inr ⟨_, rfl⟩
    next => exact .inl ⟨_, rfl⟩
    next => exact .inl ⟨_, rfl⟩

/-- What is kept to by the loop of the walk, from its first round to its last. -/
structure LoopContract (g : Graph P) : Prop where
  states : ∀ w, w ∈ trail g ↔ Passes g w
  moves : (start g :: trail g).IsChain (Follows g)
  discipline : ∀ w ∈ trail g, Disciplined g w
  inRange : ∀ w ∈ trail g, ∀ top below, w.stack = top :: below → (step g w top below).Answers
  decrease : (start g :: trail g).Pairwise (UsesUp g)
  answers : g.postOrder.Answers
  readOnce : (readings g).Nodup
  readAll : ∀ order, g.postOrder = .ok order → ∀ id i, (id, i) ∈ readings g ↔
    id ∈ order ∧ ∃ node, g.node? id = some node ∧ i < node.numDependencies

/-- The loop keeps its discipline in every state and never reads out of range. Its measure becomes
smaller with every state, so it ends with an answer, having looked at no dependency twice, and when
it returns an order, at all dependencies of the nodes in it. -/
theorem walk_ends_safely (g : Graph P) : LoopContract g where
  states := mem_trail_iff g
  moves := (leads_trail g).chain
  discipline := by
    intro w member
    exact ((orderly_invariant g).passes ((mem_trail_iff g w).mp member)).disciplined
  inRange := by
    intro w member top below shape
    exact (inRange_of_passes ((mem_trail_iff g w).mp member)).answers_step shape
  decrease := trail_usesUp g
  answers := g.answers_postOrder
  readOnce := readings_nodup g
  readAll := fun _ walked => mem_readings_iff walked

def knotGraph : Graph .plain where
  arena := 0
  nodes := #[
    { attrs := { name := "x" } },
    { attrs := { name := "twice" }, inputs := #[{ node := ⟨0, 0⟩ }, { node := ⟨0, 0⟩ }] },
    { attrs := { name := "knot" }, inputs := #[{ node := ⟨0, 1⟩ }], controlDeps := #[⟨0, 2⟩] }]
  outputs := #[{ node := ⟨0, 1⟩ }, { node := ⟨0, 2⟩ }]

theorem walk_ends_safely_knot :
    knotGraph.postOrder = .report (.cycle "knot") ∧ (trail knotGraph).length = 7 ∧
      readings knotGraph = [(⟨0, 1⟩, 0), (⟨0, 1⟩, 1), (⟨0, 2⟩, 0), (⟨0, 2⟩, 1)] ∧
      ∀ w ∈ trail knotGraph, Disciplined knotGraph w := by
  refine ⟨by cbv, by cbv, by cbv, ?_⟩
  exact (walk_ends_safely knotGraph).discipline

end Placement.Walk
