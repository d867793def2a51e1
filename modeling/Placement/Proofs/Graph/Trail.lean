import Placement.Proofs.Graph.Discipline

/-! The walk from its first round to its last. All states in which the loop looks at its stack are
listed, and each follows from the one before it. So what a single move keeps, uses up or adds is
known of the whole walk: its invariant, its measure, and which dependencies it has looked at. -/
namespace Placement.Walk

variable {P : Client} {g : Graph P} {w next : Walk} {top : Frame} {below : List Frame}

/-- From a state in which the loop looks at its stack to the next such state: by a round, or by
entering another output's node when the stack is empty. -/
inductive Follows (g : Graph P) (w : Walk) : Walk → Prop where
  | round (next : Walk) (top : Frame) (below : List Frame) (shape : w.stack = top :: below)
      (stepped : step g w top below = .ok next) : Follows g w next
  | enter (id : NodeId) (node : Node P) (idle : w.stack = []) (found : g.node? id = some node)
      (unseen : w.marks[id.index]? = some .unseen) : Follows g w (w.enter id)

theorem Invariant.follows {motive : Walk → Prop} (invariant : Invariant g motive) (holds : motive w)
    (follows : Follows g w next) : motive next := by
  cases follows with
  | round _ top below shape stepped => exact invariant.round w top below next holds shape stepped
  | enter id node idle found unseen => exact invariant.enter w id node holds idle found unseen

def UsesUp (g : Graph P) (w later : Walk) : Prop :=
  Prod.Lex (· < ·) (· < ·) (later.work g) (w.work g)

instance : Trans (UsesUp g) (UsesUp g) (UsesUp g) where
  trans first second := by
    unfold UsesUp at *
    exact IsTrans.trans _ _ _ second first

theorem Follows.usesUp (follows : Follows g w next) : UsesUp g w next := by
  cases follows with
  | round _ top below shape stepped => exact Walk.work_decreases shape stepped
  | enter id node idle found unseen => exact .left _ _ (count_unseen_visiting_lt unseen)

/-- The states after one until the stack is empty or a round fails. -/
def roundsAfter (g : Graph P) (w : Walk) : List Walk :=
  match _shape : w.stack with
  | [] => []
  | top :: below =>
    match _stepped : step g w top below with
    | .error _ => []
    | .ok next => next :: roundsAfter g next
termination_by w.work g
decreasing_by exact Walk.work_decreases _shape _stepped

theorem roundsAfter_eq (g : Graph P) (w : Walk) :
    roundsAfter g w =
      match w.stack with
      | [] => []
      | top :: below =>
        match step g w top below with
        | .error _ => []
        | .ok next => next :: roundsAfter g next := by
  rw [roundsAfter]
  grind

def visitStates (g : Graph P) (w : Walk) (root : NodeId) : List Walk :=
  match g.node? root, w.marks[root.index]? with
  | some _, some .unseen => w.enter root :: roundsAfter g (w.enter root)
  | _, _ => []

def trailFrom (g : Graph P) (w : Walk) : List Entry → List Walk
  | [] => []
  | output :: outputs =>
    visitStates g w output.node ++
      match visit g w output.node with
      | .error _ => []
      | .ok next => trailFrom g next outputs

/-- The states in which the loop looks at its stack, one after the other, until the walk ends. -/
def trail (g : Graph P) : List Walk := trailFrom g (start g) g.outputs.toList

/-- The states follow from the first one, and when the result is a state it is the last of them. -/
structure Leads (g : Graph P) (w : Walk) (states : List Walk) (result : Checked GraphError Walk) :
    Prop where
  chain : (w :: states).IsChain (Follows g)
  last : ∀ final, result = .ok final → (w :: states).getLast? = some final

theorem Leads.stay (g : Graph P) (w : Walk) : Leads g w [] (.ok w) where
  chain := List.isChain_singleton w
  last := by simp

theorem Leads.fail (g : Graph P) (w : Walk) (fault : Fault GraphError) :
    Leads g w [] (.error fault) where
  chain := List.isChain_singleton w
  last := by simp

theorem Leads.cons {states : List Walk} {result : Checked GraphError Walk}
    (follows : Follows g w next) (leads : Leads g next states result) :
    Leads g w (next :: states) result where
  chain := List.isChain_cons_cons.mpr ⟨follows, leads.chain⟩
  last := by simpa only [List.getLast?_cons_cons] using leads.last

theorem Leads.append {states later : List Walk} {result : Checked GraphError Walk}
    (leads : Leads g w states (.ok next)) (rest : Leads g next later result) :
    Leads g w (states ++ later) result := by
  have middle := leads.last next rfl
  constructor
  · rw [← List.cons_append, List.isChain_append]
    refine ⟨leads.chain, rest.chain.tail, ?_⟩
    intro x last y head
    obtain rfl : next = x := Option.some.inj (middle.symm.trans last)
    exact (List.isChain_cons.mp rest.chain).1 y head
  · intro final ended
    rw [← List.cons_append, List.getLast?_append, middle]
    have last := rest.last final ended
    rw [List.getLast?_cons] at last
    cases later with
    | nil => simpa using last
    | cons first others => simpa [List.getLast?_cons] using last

theorem leads_roundsAfter (g : Graph P) (w : Walk) :
    Leads g w (roundsAfter g w) (drain g w) := by
  fun_induction drain g w with
  | case1 w shape =>
    simp only [roundsAfter_eq g w, shape]
    exact .stay g w
  | case2 w top below shape fault failed =>
    simp only [roundsAfter_eq g w, shape, failed]
    exact .fail g w fault
  | case3 w top below shape next stepped ih =>
    simp only [roundsAfter_eq g w, shape, stepped]
    exact .cons (.round next top below shape stepped) ih

theorem leads_visitStates (idle : w.stack = []) (root : NodeId) :
    Leads g w (visitStates g w root) (visit g w root) := by
  unfold visitStates visit
  split
  next node found unseen =>
    simp only [found, unseen]
    exact .cons (.enter root node idle found unseen) (leads_roundsAfter g (w.enter root))
  next other =>
    split
    next => exact .fail g w _
    next => exact .fail g w _
    next node found unseen => exact (other node found unseen).elim
    next => exact .stay g w

theorem stack_of_visit {root : NodeId} (idle : w.stack = []) (visited : visit g w root = .ok next) :
    next.stack = [] := by
  have nothing : Invariant g (fun _ => True) :=
    ⟨trivial, fun _ _ _ _ _ _ _ => trivial, fun _ _ _ _ _ _ _ => trivial⟩
  exact (nothing.visit trivial idle visited).2

theorem leads_trailFrom (outputs : List Entry) (idle : w.stack = []) :
    Leads g w (trailFrom g w outputs)
      (outputs.foldlM (fun w output => visit g w output.node) w) := by
  induction outputs generalizing w with
  | nil => exact .stay g w
  | cons output outputs ih =>
    have first := leads_visitStates (g := g) idle output.node
    rw [List.foldlM_cons, trailFrom]
    cases visited : visit g w output.node with
    | error fault =>
      rw [visited] at first
      rw [List.append_nil]
      exact ⟨first.chain, nofun⟩
    | ok next =>
      rw [visited] at first
      exact first.append (ih (stack_of_visit idle visited))

/-- The walk's states follow one from another, from the start of the walk on. -/
theorem leads_trail (g : Graph P) :
    Leads g (start g) (trail g)
      (g.outputs.toList.foldlM (fun w output => visit g w output.node) (start g)) :=
  leads_trailFrom g.outputs.toList rfl

theorem trail_usesUp (g : Graph P) : (start g :: trail g).Pairwise (UsesUp g) := by
  have chain := (leads_trail g).chain.imp (fun _ _ follows => follows.usesUp)
  exact chain.pairwise

variable {v : Walk} {outputs : List Entry}

theorem passes_of_mem_roundsAfter (passed : Passes g w) (member : v ∈ roundsAfter g w) :
    Passes g v := by
  fun_induction roundsAfter g w with
  | case1 => cases member
  | case2 => cases member
  | case3 w top below shape next stepped ih =>
    have after : Passes g next := .round w next top below passed shape stepped
    rcases List.mem_cons.mp member with rfl | member
    · exact after
    · exact ih after member

theorem mem_visitStates_iff {root : NodeId} :
    v ∈ visitStates g w root ↔ ∃ node, g.node? root = some node ∧
      w.marks[root.index]? = some .unseen ∧ v ∈ w.enter root :: roundsAfter g (w.enter root) := by
  unfold visitStates
  split
  next node found unseen => simp [found, unseen]
  next other =>
    constructor
    · intro member
      cases member
    · rintro ⟨node, found, unseen, _⟩
      exact (other node found unseen).elim

/-- The states passed are those of the visits that the loop over the outputs comes to. -/
theorem mem_trailFrom_iff :
    v ∈ trailFrom g w outputs ↔ ∃ output before,
      ComesTo (fun w output => visit g w output.node) w outputs output before ∧
        v ∈ visitStates g before output.node := by
  induction outputs generalizing w with
  | nil =>
    constructor
    · intro member
      cases member
    · rintro ⟨output, before, comes, _⟩
      cases comes.mem
  | cons output outputs ih =>
    rw [trailFrom, List.mem_append]
    constructor
    · rintro (here | later)
      · exact ⟨output, w, comesTo_cons_iff.mpr (.inl ⟨rfl, rfl⟩), here⟩
      · split at later
        next => cases later
        next next visited =>
          obtain ⟨other, before, comes, member⟩ := ih.mp later
          exact ⟨other, before, comesTo_cons_iff.mpr (.inr ⟨next, visited, comes⟩), member⟩
    · rintro ⟨other, before, comes, member⟩
      rcases comesTo_cons_iff.mp comes with ⟨rfl, rfl⟩ | ⟨next, visited, comes⟩
      · exact .inl member
      · right
        rw [visited]
        exact ih.mpr ⟨other, before, comes, member⟩

theorem mem_roundsAfter_of_step (member : v ∈ w :: roundsAfter g w) (shape : v.stack = top :: below)
    (stepped : step g v top below = .ok next) : next ∈ roundsAfter g w := by
  fun_induction roundsAfter g w with
  | case1 w idle =>
    obtain rfl : v = w := by simpa using member
    cases shape.symm.trans idle
  | case2 w top' below' shape' fault failed =>
    obtain rfl : v = w := by simpa using member
    obtain ⟨rfl, rfl⟩ := List.cons.inj (shape.symm.trans shape')
    cases stepped.symm.trans failed
  | case3 w top' below' shape' after stepped' ih =>
    rcases List.mem_cons.mp member with rfl | member
    · obtain ⟨rfl, rfl⟩ := List.cons.inj (shape.symm.trans shape')
      obtain rfl : next = after := Except.ok.inj (stepped.symm.trans stepped')
      exact List.mem_cons_self
    · exact List.mem_cons_of_mem _ (ih member)

/-- The trail has the states that the walk passes, and no others. -/
theorem mem_trail_iff (g : Graph P) (w : Walk) : w ∈ trail g ↔ Passes g w := by
  constructor
  · intro member
    obtain ⟨output, before, comes, member⟩ := mem_trailFrom_iff.mp member
    obtain ⟨node, found, unseen, member⟩ := mem_visitStates_iff.mp member
    have entered : Passes g (before.enter output.node) :=
      .root before output node comes found unseen
    rcases List.mem_cons.mp member with rfl | member
    · exact entered
    · exact passes_of_mem_roundsAfter entered member
  · intro passed
    induction passed with
    | root w output node comes found unseen =>
      refine mem_trailFrom_iff.mpr ⟨output, w, comes, ?_⟩
      exact mem_visitStates_iff.mpr ⟨node, found, unseen, List.mem_cons_self⟩
    | round w next top below _ shape stepped ih =>
      obtain ⟨output, before, comes, member⟩ := mem_trailFrom_iff.mp ih
      obtain ⟨node, found, unseen, member⟩ := mem_visitStates_iff.mp member
      refine mem_trailFrom_iff.mpr ⟨output, before, comes, ?_⟩
      refine mem_visitStates_iff.mpr ⟨node, found, unseen, List.mem_cons_of_mem _ ?_⟩
      exact mem_roundsAfter_of_step member shape stepped

end Placement.Walk
