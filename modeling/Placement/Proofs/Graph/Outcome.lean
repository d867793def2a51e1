import Placement.Proofs.Graph.PostOrder

namespace Placement.Graph

variable {P : Client} {g : Graph P}

/-- The list holds exactly what the outputs lead to, each id once and behind all it depends on. -/
structure Topological (g : Graph P) (order : List NodeId) : Prop where
  members : ∀ id, id ∈ order ↔ g.Reachable id
  once : ∀ id ∈ order, order.count id = 1
  owned : ∀ id ∈ order, g.Has id
  earlier : ∀ (i : Nat) (a b : NodeId), order[i]? = some a → g.DependsOn a b →
    ∃ j, j < i ∧ order[j]? = some b

/-- The order of a walk is a topological one of what the outputs lead to. -/
theorem postOrder_topological {order : List NodeId} (walked : g.postOrder = .ok order) :
    g.Topological order := by
  constructor
  · exact mem_postOrder_iff walked
  · intro id member
    exact List.count_eq_one_of_mem (nodup_of_postOrder walked) member
  · intro id member
    obtain ⟨node, found⟩ := holds_of_postOrder walked id member
    exact has_of_node? found
  · intro i a b here depends
    exact (precedes_of_postOrder walked depends).exists_getElem? here

def sharedGraph : Graph .plain where
  arena := 0
  nodes := #[
    { attrs := { name := "sum" }, inputs := #[{ node := ⟨0, 2⟩ }, { node := ⟨0, 1⟩ }] },
    { attrs := { name := "left" }, inputs := #[{ node := ⟨0, 3⟩ }], controlDeps := #[⟨0, 4⟩] },
    { attrs := { name := "right" }, inputs := #[{ node := ⟨0, 3⟩ }, { node := ⟨0, 3⟩ }] },
    { attrs := { name := "x" } },
    { attrs := { name := "init" } },
    { attrs := { name := "dead" }, inputs := #[{ node := ⟨0, 5⟩ }] }]
  outputs := #[{ node := ⟨0, 2⟩ }, { node := ⟨0, 0⟩ }, { node := ⟨0, 0⟩ }]

theorem postOrder_topological_shared :
    sharedGraph.postOrder = .ok [⟨0, 3⟩, ⟨0, 2⟩, ⟨0, 4⟩, ⟨0, 1⟩, ⟨0, 0⟩] ∧
      sharedGraph.Topological [⟨0, 3⟩, ⟨0, 2⟩, ⟨0, 4⟩, ⟨0, 1⟩, ⟨0, 0⟩] := by
  have walked : sharedGraph.postOrder = .ok [⟨0, 3⟩, ⟨0, 2⟩, ⟨0, 4⟩, ⟨0, 1⟩, ⟨0, 0⟩] := by cbv
  exact ⟨walked, postOrder_topological walked⟩

/-- A reached node of this name depends on itself, by way of reached nodes of the graph. -/
def CycleThrough (g : Graph P) (name : String) : Prop :=
  ∃ id node inner, g.Reachable id ∧ g.node? id = some node ∧ node.name = name ∧
    (id :: (inner ++ [id])).IsChain g.DependsOn ∧ ∀ a ∈ id :: inner, g.Reachable a ∧ g.Has a

/-- An id with this index, not one of the graph's, is that of an output or what a reached node
depends on. -/
def DanglesAt (g : Graph P) (index : Nat) : Prop :=
  ∃ id, id.index = index ∧ ¬ g.Has id ∧
    ((∃ e ∈ g.outputs, e.node = id) ∨ ∃ a, g.Reachable a ∧ g.DependsOn a id)

/-- What an error of the walk says of the graph. The other errors are not errors of the walk. -/
def Explains (g : Graph P) : GraphError → Prop
  | .cycle name => g.CycleThrough name
  | .danglingNode index => g.DanglesAt index
  | .tooManyEntries _ => False
  | .invalidEntry _ _ _ => False

theorem Path.exists_chain {a b : NodeId} (path : g.Path a b) (reached : g.Reachable a) :
    ∃ inner, (a :: (inner ++ [b])).IsChain g.DependsOn ∧
      ∀ x ∈ a :: inner, g.Reachable x ∧ g.Has x := by
  have owned : ∀ x y, g.DependsOn x y → g.Has x := by
    rintro x y ⟨node, found, _⟩
    exact has_of_node? found
  induction path with
  | one a b depends =>
    exact ⟨[], by simp [depends], by simp [reached, owned a b depends]⟩
  | more a b c depends _ ih =>
    obtain ⟨inner, chain, along⟩ := ih (.dependency a b reached depends)
    refine ⟨b :: inner, by simpa [depends] using chain, ?_⟩
    intro x member
    rcases List.mem_cons.mp member with rfl | later
    · exact ⟨reached, owned x b depends⟩
    · exact along x later

theorem Path.of_chain {a b : NodeId} {inner : List NodeId}
    (chain : (a :: (inner ++ [b])).IsChain g.DependsOn) : g.Path a b := by
  induction inner generalizing a with
  | nil => exact .one a b (by simpa using chain)
  | cons x inner ih =>
    have parts : g.DependsOn a x ∧ (x :: (inner ++ [b])).IsChain g.DependsOn := by
      simpa using chain
    exact .more a x b parts.1 (ih parts.2)

theorem cycleThrough_of_path {id : NodeId} {node : Node P} (reached : g.Reachable id)
    (found : g.node? id = some node) (path : g.Path id id) : g.CycleThrough node.name := by
  obtain ⟨inner, chain, along⟩ := path.exists_chain reached
  exact ⟨id, node, inner, reached, found, rfl, chain, along⟩

theorem danglesAt_of_reachable {id : NodeId} (reached : g.Reachable id)
    (missing : g.node? id = none) : g.DanglesAt id.index := by
  have foreign : ¬ g.Has id := by simp [has_iff_isSome_node?, missing]
  cases reached with
  | output entry listed => exact ⟨_, rfl, foreign, .inl ⟨entry, listed, rfl⟩⟩
  | dependency a _ reached depends => exact ⟨_, rfl, foreign, .inr ⟨a, reached, depends⟩⟩

/-- The ids are reached, and all nodes being visited lead to them. -/
structure Below (g : Graph P) (visiting ids : List NodeId) : Prop where
  reached : ∀ id ∈ ids, g.Reachable id
  paths : ∀ above ∈ visiting, ∀ id ∈ ids, g.Path above id

theorem Below.roots (g : Graph P) : g.Below [] g.roots := by
  refine ⟨fun id member => ?_, by simp⟩
  obtain ⟨entry, listed, rfl⟩ := List.mem_map.mp member
  exact .output entry (Array.mem_toList_iff.mp listed)

theorem Below.tail {visiting ids : List NodeId} {id : NodeId}
    (below : g.Below visiting (id :: ids)) : g.Below visiting ids where
  reached := fun a member => below.reached a (by simp [member])
  paths := fun above visited a member => below.paths above visited a (by simp [member])

/-- Visiting the first id goes on with its dependencies, which are below it too. -/
theorem Below.dependencies {visiting ids : List NodeId} {id : NodeId} {node : Node P}
    (below : g.Below visiting (id :: ids)) (found : g.node? id = some node) :
    g.Below (id :: visiting) node.dependencies := by
  have depends : ∀ b ∈ node.dependencies, g.DependsOn id b :=
    fun b dependency => ⟨node, found, dependency⟩
  constructor
  · intro b dependency
    exact .dependency id b (below.reached id (by simp)) (depends b dependency)
  · intro above visited b dependency
    have last : g.Path id b := .one id b (depends b dependency)
    rcases List.mem_cons.mp visited with rfl | visited
    · exact last
    · exact (below.paths above visited id (by simp)).trans last

/-- A visit that fails has met what its error tells. An id that is to be visited is below all
nodes being visited, so when it is one of them it closes a cycle. -/
theorem explains_of_visited {visiting order ids : List NodeId} {error : GraphError}
    (failed : g.visited visiting order ids = .error error) (below : g.Below visiting ids) :
    g.Explains error := by
  induction visiting, order, ids using visited_induction g generalizing error with
  | nil visiting order =>
    rw [visited_nil] at failed
    cases failed
  | done visiting order id ids member ih =>
    rw [visited_cons, if_pos member] at failed
    exact ih failed below.tail
  | dangling visiting order id ids fresh missing =>
    simp only [visited_cons, if_neg fresh, missing] at failed
    cases failed
    exact danglesAt_of_reachable (below.reached id (by simp)) missing
  | cyclic visiting order id ids node fresh found above =>
    simp only [visited_cons, if_neg fresh, found, if_pos above] at failed
    cases failed
    exact cycleThrough_of_path (below.reached id (by simp)) found
      (below.paths id above id (by simp))
  | failed visiting order id ids node cause fresh found outside stuck ih =>
    simp only [visited_cons, if_neg fresh, found, if_neg outside, stuck] at failed
    cases failed
    exact ih stuck (below.dependencies found)
  | entered visiting order id ids node after fresh found outside finished _ ihRest =>
    simp only [visited_cons, if_neg fresh, found, if_neg outside, finished] at failed
    exact ihRest failed below.tail

theorem explains_of_postOrder {fault : Fault GraphError} (failed : g.postOrder = .error fault) :
    ∃ error, fault = .reported error ∧ g.Explains error := by
  have recursive : g.depthFirst = g.visited [] [] g.roots := rfl
  rw [postOrder_eq_ofExcept, recursive] at failed
  cases visit : g.visited [] [] g.roots with
  | ok order => simp [visit] at failed
  | error error =>
    rw [visit] at failed
    cases failed
    exact ⟨error, rfl, explains_of_visited visit (.roots g)⟩

theorem idxOf_lt_of_path {order : List NodeId} (walked : g.postOrder = .ok order) {a b : NodeId}
    (path : g.Path a b) (member : a ∈ order) : order.idxOf b < order.idxOf a := by
  have one : ∀ x y, g.DependsOn x y → x ∈ order → order.idxOf y < order.idxOf x :=
    fun x y depends member => (precedes_of_postOrder walked depends).idxOf_lt member
  induction path with
  | one a b depends => exact one a b depends member
  | more a b c depends _ ih =>
    obtain ⟨node, found, dependency⟩ := depends
    have early := dependencies_subset_postOrder walked member found dependency
    exact Nat.lt_trans (ih early) (one a b ⟨node, found, dependency⟩ member)

theorem Explains.cases {error : GraphError} (explains : g.Explains error) :
    (∃ name, error = .cycle name ∧ g.CycleThrough name) ∨
      ∃ index, error = .danglingNode index ∧ g.DanglesAt index := by
  cases error with
  | cycle name => exact .inl ⟨name, rfl, explains⟩
  | danglingNode index => exact .inr ⟨index, rfl, explains⟩
  | tooManyEntries name => exact explains.elim
  | invalidEntry name index numOutputs => exact explains.elim

/-- A walk returns an order exactly when all that the outputs lead to is in the graph and nothing
of it depends on itself. Its only errors are a cycle and a dangling id, and what it reports is
there. -/
theorem postOrder_exact_failure (g : Graph P) :
    ((∃ order, g.postOrder = .ok order) ↔
      (∀ id, g.Reachable id → g.Has id) ∧ ∀ id, g.Reachable id → ¬ g.Path id id) ∧
    (∀ name, g.postOrder = .report (.cycle name) → g.CycleThrough name) ∧
    (∀ index, g.postOrder = .report (.danglingNode index) → g.DanglesAt index) ∧
    ∀ fault, g.postOrder = .error fault →
      (∃ name, fault = .reported (.cycle name)) ∨
        ∃ index, fault = .reported (.danglingNode index) := by
  refine ⟨⟨?_, ?_⟩, ?_, ?_, ?_⟩
  · rintro ⟨order, walked⟩
    constructor
    · intro id reached
      obtain ⟨node, found⟩ :=
        holds_of_postOrder walked id ((mem_postOrder_iff walked id).mpr reached)
      exact has_of_node? found
    · intro id reached path
      have member := (mem_postOrder_iff walked id).mpr reached
      exact Nat.lt_irrefl _ (idxOf_lt_of_path walked path member)
  · rintro ⟨owned, acyclic⟩
    cases walked : g.postOrder with
    | ok order => exact ⟨order, rfl⟩
    | error fault =>
      exfalso
      obtain ⟨error, rfl, explains⟩ := explains_of_postOrder walked
      rcases explains.cases with ⟨name, rfl, cycle⟩ | ⟨index, rfl, dangles⟩
      · obtain ⟨id, node, inner, reached, _, _, chain, _⟩ := cycle
        exact acyclic id reached (.of_chain chain)
      · obtain ⟨id, _, foreign, occurs⟩ := dangles
        rcases occurs with ⟨entry, listed, rfl⟩ | ⟨a, reached, depends⟩
        · exact foreign (owned _ (.output entry listed))
        · exact foreign (owned id (.dependency a id reached depends))
  · intro name failed
    obtain ⟨error, same, explains⟩ := explains_of_postOrder failed
    cases same
    exact explains
  · intro index failed
    obtain ⟨error, same, explains⟩ := explains_of_postOrder failed
    cases same
    exact explains
  · intro fault failed
    obtain ⟨error, rfl, explains⟩ := explains_of_postOrder failed
    rcases explains.cases with ⟨name, rfl, _⟩ | ⟨index, rfl, _⟩
    · exact .inl ⟨name, rfl⟩
    · exact .inr ⟨index, rfl⟩

def ringGraph : Graph .plain where
  arena := 0
  nodes := #[
    { attrs := { name := "a" }, inputs := #[{ node := ⟨0, 1⟩ }] },
    { attrs := { name := "b" }, controlDeps := #[⟨0, 0⟩] }]
  outputs := #[{ node := ⟨0, 0⟩ }]

def strayGraph : Graph .plain where
  arena := 0
  nodes := #[{ attrs := { name := "a" }, controlDeps := #[⟨7, 0⟩] }]
  outputs := #[{ node := ⟨0, 0⟩ }]

theorem postOrder_exact_failure_ring :
    (ringGraph.postOrder = .report (.cycle "a") ∧ ringGraph.CycleThrough "a") ∧
      strayGraph.postOrder = .report (.danglingNode 0) ∧ strayGraph.DanglesAt 0 := by
  have ring : ringGraph.postOrder = .report (.cycle "a") := by cbv
  have stray : strayGraph.postOrder = .report (.danglingNode 0) := by cbv
  exact ⟨⟨ring, (postOrder_exact_failure ringGraph).2.1 "a" ring⟩,
    stray, (postOrder_exact_failure strayGraph).2.2.1 0 stray⟩

end Placement.Graph
