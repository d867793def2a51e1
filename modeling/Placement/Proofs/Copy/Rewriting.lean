import Placement.Copy.Splice
import Placement.Proofs.Copy.Crossing
import Placement.Proofs.Operator.Parsing

/-! Splicing reads the graph that it changes, and yet does what the crossings of the graph before
it tell: it makes one copy for each of them, in the order in which they are listed. What it leaves
behind is said slot by slot. -/
namespace Placement

variable {P : Client}

namespace Graph

def copyId (g : Graph P) (k : Nat) : NodeId := g.idAt (g.nodes.size + k)

def copyIds (g : Graph P) (crossings : List (Crossing P)) : List NodeId :=
  (List.range crossings.length).map g.copyId

/-- What a slot reads when every crossing of the list has its copy. -/
def reroute (g : Graph P) (crossings : List (Crossing P)) (id : NodeId) (slot : Nat)
    (entry : Entry) : Entry :=
  match crossings.findIdx? (Crossing.isInto id slot) with
  | some k => { node := g.copyId k }
  | none => entry

def rerouteNode (g : Graph P) (crossings : List (Crossing P)) (id : NodeId) (node : Node P) :
    Node P :=
  { node with inputs := node.inputs.mapIdx (g.reroute crossings id) }

theorem copyId_injective (g : Graph P) {j k : Nat} (same : g.copyId j = g.copyId k) : j = k := by
  simp only [copyId, idAt, NodeId.mk.injEq, true_and] at same
  omega

theorem ne_copyId {g : Graph P} {id : NodeId} {node : Node P} (found : g.node? id = some node)
    (k : Nat) : id ≠ g.copyId k := by
  rintro rfl
  have inside := index_lt_of_node? found
  simp only [copyId, idAt] at inside
  omega

section

variable (g : Graph P) {crossings : List (Crossing P)} {id : NodeId} {slot : Nat}

theorem reroute_of_fresh (fresh : ∀ c ∈ crossings, c.isInto id slot = false) (entry : Entry) :
    g.reroute crossings id slot entry = entry := by
  have nowhere : crossings.findIdx? (Crossing.isInto id slot) = none :=
    List.findIdx?_eq_none_iff.mpr fresh
  simp only [reroute, nowhere]

theorem reroute_append_here {c : Crossing P}
    (fresh : ∀ d ∈ crossings, d.isInto c.consumer c.slot = false) (entry : Entry) :
    g.reroute (crossings ++ [c]) c.consumer c.slot entry =
      { node := g.copyId crossings.length } := by
  have nowhere : crossings.findIdx? (Crossing.isInto c.consumer c.slot) = none :=
    List.findIdx?_eq_none_iff.mpr fresh
  have here : c.isInto c.consumer c.slot = true := by simp [Crossing.isInto]
  simp [reroute, List.findIdx?_append, List.findIdx?_cons, nowhere, here]

theorem reroute_append_other (crossings : List (Crossing P)) {c : Crossing P}
    (other : c.isInto id slot = false) (entry : Entry) :
    g.reroute (crossings ++ [c]) id slot entry = g.reroute crossings id slot entry := by
  simp [reroute, List.findIdx?_append, List.findIdx?_cons, other]

theorem reroute_of_listed
    (apart : crossings.Pairwise (fun d c => d.isInto c.consumer c.slot = false)) {k : Nat}
    {c : Crossing P} (listed : crossings[k]? = some c) (entry : Entry) :
    g.reroute crossings c.consumer c.slot entry = { node := g.copyId k } := by
  obtain ⟨inside, rfl⟩ := List.getElem?_eq_some_iff.mp listed
  have first : crossings.findIdx? (Crossing.isInto crossings[k].consumer crossings[k].slot) =
      some k := by
    rw [List.findIdx?_eq_some_iff_getElem]
    refine ⟨inside, by simp [Crossing.isInto], fun j before => ?_⟩
    have other := List.pairwise_iff_getElem.mp apart j k (by omega) inside before
    simp [other]
  simp only [reroute, first]

theorem reroute_cases (crossings : List (Crossing P)) (id : NodeId) (slot : Nat) (entry : Entry) :
    ((∀ c ∈ crossings, c.isInto id slot = false) ∧ g.reroute crossings id slot entry = entry) ∨
    ∃ k c, crossings[k]? = some c ∧ c.consumer = id ∧ c.slot = slot ∧
      g.reroute crossings id slot entry = { node := g.copyId k } := by
  cases search : crossings.findIdx? (Crossing.isInto id slot) with
  | none =>
    have fresh := List.findIdx?_eq_none_iff.mp search
    exact .inl ⟨fresh, g.reroute_of_fresh fresh entry⟩
  | some k =>
    obtain ⟨inside, here, _⟩ := List.findIdx?_eq_some_iff_getElem.mp search
    simp only [Crossing.isInto, Bool.and_eq_true, beq_iff_eq] at here
    refine .inr ⟨k, crossings[k], List.getElem?_eq_getElem inside, here.1, here.2, ?_⟩
    simp only [reroute, search]

end

theorem inputs_rerouteNode (g : Graph P) (crossings : List (Crossing P)) (id : NodeId)
    (node : Node P) (slot : Nat) :
    (g.rerouteNode crossings id node).inputs[slot]? =
      node.inputs[slot]?.map (g.reroute crossings id slot) := by
  simp [rerouteNode]

theorem inputs_rerouteNode_of_listed {g : Graph P} {op : Operator P} {order : List NodeId}
    (walked : g.postOrder = .ok order) {k : Nat} {c : Crossing P}
    (listed : (g.crossings op order)[k]? = some c) :
    (g.rerouteNode (g.crossings op order) c.consumer c.consumerNode).inputs[c.slot]? =
      some { node := g.copyId k } := by
  rw [inputs_rerouteNode, (own_of_listed listed).2.reads, Option.map_some,
    g.reroute_of_listed (crossings_apart walked op) listed]

theorem rerouteNode_nil (g : Graph P) (id : NodeId) (node : Node P) :
    g.rerouteNode [] id node = node := by
  have inputs : (g.rerouteNode [] id node).inputs = node.inputs := by
    apply Array.ext_getElem?
    intro slot
    have unchanged : g.reroute [] id slot = fun entry => entry := rfl
    simp [inputs_rerouteNode, unchanged]
  obtain ⟨attrs, entries, controlDeps⟩ := node
  simpa [rerouteNode] using inputs

theorem rerouteNode_append (g : Graph P) {crossings : List (Crossing P)} {c : Crossing P}
    (fresh : ∀ d ∈ crossings, d.isInto c.consumer c.slot = false) (node : Node P) :
    g.rerouteNode (crossings ++ [c]) c.consumer node =
      { node with
        inputs := (g.rerouteNode crossings c.consumer node).inputs.setIfInBounds c.slot
          { node := g.copyId crossings.length } } := by
  simp only [rerouteNode, Node.mk.injEq, true_and, and_true]
  apply Array.ext_getElem?
  intro slot
  by_cases here : c.slot = slot
  · subst here
    by_cases inside : c.slot < node.inputs.size
    · simp [inside, g.reroute_append_here fresh]
    · simp [inside]
  · have other : c.isInto c.consumer slot = false := by simp [Crossing.isInto, here]
    have same := g.reroute_append_other crossings other
    simp [here, funext same]

theorem rerouteNode_append_other (g : Graph P) {crossings : List (Crossing P)} {c : Crossing P}
    {id : NodeId} (other : c.consumer ≠ id) (node : Node P) :
    g.rerouteNode (crossings ++ [c]) id node = g.rerouteNode crossings id node := by
  have slots : g.reroute (crossings ++ [c]) id = g.reroute crossings id := by
    funext slot entry
    exact g.reroute_append_other crossings (Crossing.isInto_eq_false_of_ne other) entry
  simp only [rerouteNode, slots]

end Graph

namespace Crossing

def requested (settings : CopySettings) (op : Operator P) (c : Crossing P) : NodeAttrs P where
  name := settings.copyName c.producerNode.name c.consumerNode.name c.slot
  op := some op
  device := c.consumerNode.device
  dict := ∅
  payload := none

/-- What happens for one crossing: its copy is announced, then the parser is called if there is
one. -/
def happens (settings : CopySettings) (op : Operator P) (c : Crossing P) : List (Event P) :=
  .copyPlanned {
    name := settings.copyName c.producerNode.name c.consumerNode.name c.slot
    producer := c.producerNode.name
    producerDevice := c.producerNode.device
    consumer := c.consumerNode.name
    consumerDevice := c.consumerNode.device } ::
  match op.parser with
  | none => []
  | some parser => [.parserCalled parser (c.requested settings op)]

end Crossing

variable [CustomParsers P] {g : Graph P} {settings : CopySettings} {op : Operator P}

namespace Crossing

def copyNode (settings : CopySettings) (op : Operator P) (c : Crossing P) : Node P :=
  { attrs := (op.parseAttrs (c.requested settings op)).attrs, inputs := #[c.entry] }

def realize (settings : CopySettings) (op : Operator P) (s : Splicing P) (c : Crossing P) :
    Except (Interrupted P) (Splicing P) :=
  s.realize op (c.plan settings) c.entry c.consumer c.slot

theorem parses_copyNode {c : Crossing P} (accepted : op.Accepts (c.requested settings op)) :
    op.Parses (c.requested settings op) ⟨(c.copyNode settings op).attrs, .ok ()⟩ :=
  Operator.parses_of_verdict (Operator.accepts_iff.mp accepted)

theorem happens_eq (settings : CopySettings) (op : Operator P) (c : Crossing P) :
    c.happens settings op =
      .copyPlanned (c.plan settings) :: (op.runParser (c.requested settings op)).events := by
  unfold happens Operator.runParser
  cases op.parser with
  | none => rfl
  | some parser => rfl

theorem realize_of_accepted {c : Crossing P} (accepted : op.Accepts (c.requested settings op))
    (s : Splicing P) :
    c.realize settings op s = .ok ((s.record (c.happens settings op)).insert
      (c.copyNode settings op).attrs c.entry c.consumer c.slot) := by
  have verdict : (op.runParser ((c.plan settings).freshAttrs op)).parsing.verdict = .ok () :=
    Operator.accepts_iff.mp accepted
  rw [realize, Splicing.realize, verdict, happens_eq]
  rfl

theorem realize_of_rejected {c : Crossing P} {error : OpError}
    (rejected : op.Rejects (c.requested settings op) error) (s : Splicing P) :
    c.realize settings op s =
      .error ⟨(s.record (c.happens settings op)).trace, .reported (.op error)⟩ := by
  have verdict : (op.runParser ((c.plan settings).freshAttrs op)).parsing.verdict = .error error :=
    Operator.rejects_iff.mp rejected
  rw [realize, Splicing.realize, verdict, happens_eq]
  rfl

end Crossing

/-- The graph `after` is the graph `g` with a copy on each crossing of the list, and no other
change. -/
structure Rewritten (g : Graph P) (settings : CopySettings) (op : Operator P)
    (crossings : List (Crossing P)) (after : Graph P) : Prop where
  arena : after.arena = g.arena
  size : after.nodes.size = g.nodes.size + crossings.length
  outputs : after.outputs = g.outputs
  attrs : after.attrs = g.attrs
  kept : ∀ id node, g.node? id = some node →
    after.node? id = some (g.rerouteNode crossings id node)
  made : ∀ k c, crossings[k]? = some c → after.node? (g.copyId k) = some (c.copyNode settings op)

theorem Rewritten.start (g : Graph P) (settings : CopySettings) (op : Operator P) :
    Rewritten g settings op [] g where
  arena := rfl
  size := rfl
  outputs := rfl
  attrs := rfl
  kept := by
    intro id node found
    rw [found, Graph.rerouteNode_nil]
  made := by simp

theorem Rewritten.nextId {crossings : List (Crossing P)} {after : Graph P}
    (rewritten : Rewritten g settings op crossings after) :
    after.nextId = g.copyId crossings.length := by
  simp [Graph.nextId, Graph.copyId, Graph.idAt, rewritten.arena, rewritten.size]

omit [CustomParsers P] in
/-- The nodes after a copy was added, when its consumer was there before. -/
theorem Splicing.node?_insert (s : Splicing P) (attrs : NodeAttrs P) (entry : Entry)
    {consumer : NodeId} (old : consumer ≠ s.graph.nextId) (slot : Nat) (id : NodeId) :
    (s.insert attrs entry consumer slot).graph.node? id =
      if id = consumer then (s.graph.node? id).map (fun node => { node with
        inputs := node.inputs.setIfInBounds slot { node := s.graph.nextId } })
      else if id = s.graph.nextId then some { attrs := attrs, inputs := #[entry] }
      else s.graph.node? id := by
  simp only [insert, Graph.setInput, Graph.node?_modifyNode, Graph.node?_addNode, if_neg old]
  split
  next same => rw [same]
  next => rfl

theorem Rewritten.insert {crossings : List (Crossing P)} {s : Splicing P} {c : Crossing P}
    (rewritten : Rewritten g settings op crossings s.graph) (own : c.Of g op)
    (fresh : ∀ d ∈ crossings, d.isInto c.consumer c.slot = false) :
    Rewritten g settings op (crossings ++ [c])
      (s.insert (c.copyNode settings op).attrs c.entry c.consumer c.slot).graph := by
  have old : c.consumer ≠ s.graph.nextId := by
    rw [rewritten.nextId]
    exact Graph.ne_copyId own.consumer crossings.length
  have lookup := s.node?_insert (c.copyNode settings op).attrs c.entry old c.slot
  rw [rewritten.nextId] at lookup
  constructor
  · simp [Splicing.insert, rewritten.arena]
  · simp [Splicing.insert, rewritten.size, Nat.add_assoc]
  · simp [Splicing.insert, rewritten.outputs]
  · simp [Splicing.insert, rewritten.attrs]
  · intro id node found
    rw [lookup]
    by_cases here : id = c.consumer
    · subst here
      rw [if_pos rfl, rewritten.kept _ node found, Graph.rerouteNode_append g fresh]
      rfl
    · rw [if_neg here, if_neg (Graph.ne_copyId found _), rewritten.kept id node found,
        Graph.rerouteNode_append_other g (fun same => here same.symm)]
  · intro k d listed
    rw [lookup, if_neg (Graph.ne_copyId own.consumer k).symm]
    by_cases last : k = crossings.length
    · subst last
      obtain rfl : c = d := by simpa using listed
      rw [if_pos rfl]
      rfl
    · have inside : k < crossings.length := by
        have bound := (List.getElem?_eq_some_iff.mp listed).1
        rw [List.length_append, List.length_singleton] at bound
        omega
      rw [List.getElem?_append_left inside] at listed
      rw [if_neg (fun same => last (g.copyId_injective same)), rewritten.made k d listed]

structure Spliced (g : Graph P) (settings : CopySettings) (op : Operator P)
    (crossings : List (Crossing P)) (s : Splicing P) : Prop where
  rewritten : Rewritten g settings op crossings s.graph
  copies : s.copies.toList = g.copyIds crossings
  accepted : ∀ c ∈ crossings, op.Accepts (c.requested settings op)

namespace Spliced

variable {crossings : List (Crossing P)} {s : Splicing P}

theorem start (g : Graph P) (settings : CopySettings) (op : Operator P) :
    Spliced g settings op [] (.start g) where
  rewritten := .start g settings op
  copies := rfl
  accepted := by simp

theorem realize {c : Crossing P} {next : Splicing P} (spliced : Spliced g settings op crossings s)
    (own : c.Of g op) (fresh : ∀ d ∈ crossings, d.isInto c.consumer c.slot = false)
    (realized : c.realize settings op s = .ok next) :
    Spliced g settings op (crossings ++ [c]) next := by
  rcases op.accepts_or_rejects (c.requested settings op) with accepted | ⟨error, rejected⟩
  · rw [Crossing.realize_of_accepted accepted] at realized
    cases realized
    have recorded : Rewritten g settings op crossings
        (s.record (c.happens settings op)).graph := spliced.rewritten
    constructor
    · exact recorded.insert own fresh
    · have next := spliced.rewritten.nextId
      have graph : (s.record (c.happens settings op)).graph = s.graph := rfl
      have copies : (s.record (c.happens settings op)).copies = s.copies := rfl
      simp [Splicing.insert, graph, copies, next, spliced.copies, Graph.copyIds, List.range_succ]
    · intro d member
      rcases List.mem_append.mp member with member | member
      · exact spliced.accepted d member
      · obtain rfl : d = c := by simpa using member
        exact accepted
  · rw [Crossing.realize_of_rejected rejected] at realized
    cases realized

theorem parses (spliced : Spliced g settings op crossings s) {c : Crossing P}
    (member : c ∈ crossings) :
    op.Parses (c.requested settings op) ⟨(c.copyNode settings op).attrs, .ok ()⟩ :=
  Crossing.parses_copyNode (spliced.accepted c member)

theorem foldlM_realize (more : List (Crossing P)) {final : Splicing P}
    (spliced : Spliced g settings op crossings s) (own : ∀ c ∈ more, c.Of g op)
    (fresh : ∀ c ∈ more, ∀ d ∈ crossings, d.isInto c.consumer c.slot = false)
    (apart : more.Pairwise (fun d c => d.isInto c.consumer c.slot = false))
    (folded : more.foldlM (Crossing.realize settings op) s = .ok final) :
    Spliced g settings op (crossings ++ more) final := by
  induction more generalizing crossings s with
  | nil =>
    cases folded
    simpa using spliced
  | cons c more ih =>
    rw [List.foldlM_cons] at folded
    cases realized : c.realize settings op s with
    | error interrupted =>
      rw [realized] at folded
      cases folded
    | ok next =>
      rw [realized] at folded
      rw [List.pairwise_cons] at apart
      have spliced' := spliced.realize (own c (by simp)) (fresh c (by simp)) realized
      have rest := ih spliced' (fun d member => own d (by simp [member])) ?_ apart.2 folded
      · simpa using rest
      · intro d member e earlier
        rcases List.mem_append.mp earlier with earlier | earlier
        · exact fresh d (by simp [member]) e earlier
        · obtain rfl : e = c := by simpa using earlier
          exact apart.1 d member

theorem spliceSlot_eq {consumer : NodeId} {node : Node P} {slot : Nat} {entry : Entry}
    {producer : Node P} (spliced : Spliced g settings op crossings s)
    (found : g.node? consumer = some node) (reads : node.inputs[slot]? = some entry)
    (present : g.node? entry.node = some producer)
    (fresh : ∀ d ∈ crossings, d.isInto consumer slot = false) :
    s.spliceSlot settings op consumer node.device slot =
      match Crossing.at? g consumer node slot with
      | none => .ok s
      | some c => c.realize settings op s := by
  -- The consumer is read again at every slot, when earlier slots of it may read copies already.
  have here := spliced.rewritten.kept consumer node found
  have there := spliced.rewritten.kept entry.node producer present
  have same : (g.rerouteNode crossings consumer node).inputs[slot]? = some entry := by
    rw [Graph.inputs_rerouteNode, reads, Option.map_some, g.reroute_of_fresh fresh]
  have device : (g.rerouteNode crossings entry.node producer).device = producer.device := rfl
  simp only [Splicing.spliceSlot, Splicing.present, here, same, there, bind, Except.bind, device]
  simp only [Crossing.at?, reads, present]
  split
  next => rfl
  next => rfl

theorem foldlM_spliceSlot {order : List NodeId} (walked : g.postOrder = .ok order)
    {consumer : NodeId} {node : Node P} (member : consumer ∈ order)
    (found : g.node? consumer = some node) (plain : node.applies op = false) (slots : List Nat)
    (nodup : slots.Nodup) (inside : ∀ slot ∈ slots, slot < node.inputs.size)
    (spliced : Spliced g settings op crossings s)
    (fresh : ∀ slot ∈ slots, ∀ d ∈ crossings, d.isInto consumer slot = false) :
    slots.foldlM (Splicing.spliceSlot settings op consumer node.device) s =
      (slots.filterMap (Crossing.at? g consumer node)).foldlM (Crossing.realize settings op) s := by
  induction slots generalizing crossings s with
  | nil => rfl
  | cons slot slots ih =>
    obtain ⟨new, distinct⟩ := List.nodup_cons.mp nodup
    obtain ⟨entry, reads⟩ : ∃ entry, node.inputs[slot]? = some entry :=
      ⟨_, Array.getElem?_eq_getElem (inside slot (by simp))⟩
    obtain ⟨_, producer, present⟩ := Graph.producer_of_postOrder walked member found reads
    have inside' : ∀ other ∈ slots, other < node.inputs.size :=
      fun other h => inside other (by simp [h])
    have fresh' : ∀ other ∈ slots, ∀ d ∈ crossings, d.isInto consumer other = false :=
      fun other h => fresh other (by simp [h])
    rw [List.foldlM_cons, spliced.spliceSlot_eq found reads present (fresh slot (by simp)),
      List.filterMap_cons]
    cases crossing : Crossing.at? g consumer node slot with
    | none => exact ih distinct inside' spliced fresh'
    | some c =>
      simp only [List.foldlM_cons]
      cases realized : c.realize settings op s with
      | error interrupted => rfl
      | ok next =>
        obtain ⟨rfl, rfl, rfl, reads', producer', crosses⟩ :=
          (Crossing.at?_eq_some_iff c).mp crossing
        have own : c.Of g op := ⟨found, reads', producer', crosses, plain⟩
        have spliced' := spliced.realize own (fresh c.slot (by simp)) realized
        refine ih distinct inside' spliced' (fun other h d earlier => ?_)
        rcases List.mem_append.mp earlier with earlier | earlier
        · exact fresh' other h d earlier
        · obtain rfl : d = c := by simpa using earlier
          have different : d.slot ≠ other := fun equal => new (equal ▸ h)
          simp [Crossing.isInto, different]

theorem spliceNode_eq {order : List NodeId} (walked : g.postOrder = .ok order)
    {consumer : NodeId} (member : consumer ∈ order) (spliced : Spliced g settings op crossings s)
    (fresh : ∀ d ∈ crossings, d.consumer ≠ consumer) :
    s.spliceNode settings op consumer =
      (g.crossingsInto op consumer).foldlM (Crossing.realize settings op) s := by
  obtain ⟨node, found⟩ := Graph.holds_of_postOrder walked consumer member
  have here := spliced.rewritten.kept consumer node found
  have applies : (g.rerouteNode crossings consumer node).applies op = node.applies op := rfl
  have size : (g.rerouteNode crossings consumer node).inputs.size = node.inputs.size := by
    simp [Graph.rerouteNode]
  have device : (g.rerouteNode crossings consumer node).device = node.device := rfl
  simp only [Splicing.spliceNode, Splicing.present, here, bind, Except.bind, applies, size, device,
    Graph.crossingsInto, found]
  cases plain : node.applies op with
  | true => rfl
  | false =>
    exact spliced.foldlM_spliceSlot walked member found plain (List.range node.inputs.size)
      List.nodup_range (fun slot h => List.mem_range.mp h)
      (fun slot _ d earlier => Crossing.isInto_eq_false_of_ne (fresh d earlier))

theorem foldlM_realize_crossingsInto {consumer : NodeId} {final : Splicing P}
    (spliced : Spliced g settings op crossings s) (fresh : ∀ d ∈ crossings, d.consumer ≠ consumer)
    (folded : (g.crossingsInto op consumer).foldlM (Crossing.realize settings op) s = .ok final) :
    Spliced g settings op (crossings ++ g.crossingsInto op consumer) final := by
  refine spliced.foldlM_realize _ ?_ ?_ ?_ folded
  · exact fun c member => ((Graph.mem_crossingsInto_iff consumer c).mp member).2
  · intro c member d earlier
    obtain ⟨rfl, _⟩ := (Graph.mem_crossingsInto_iff consumer c).mp member
    exact Crossing.isInto_eq_false_of_ne (fresh d earlier)
  · refine (g.crossingsInto_pairwise op consumer).imp (fun {d c} later => ?_)
    have different : d.slot ≠ c.slot := Nat.ne_of_lt later.2
    simp [Crossing.isInto, different]

theorem foldlM_spliceNode {order : List NodeId} (walked : g.postOrder = .ok order)
    (ids : List NodeId) (subset : ids ⊆ order) (nodup : ids.Nodup)
    (spliced : Spliced g settings op crossings s) (fresh : ∀ d ∈ crossings, d.consumer ∉ ids) :
    ids.foldlM (Splicing.spliceNode settings op) s =
      (g.crossings op ids).foldlM (Crossing.realize settings op) s := by
  induction ids generalizing crossings s with
  | nil => rfl
  | cons id ids ih =>
    obtain ⟨new, nodup⟩ := List.nodup_cons.mp nodup
    have other : ∀ d ∈ crossings, d.consumer ≠ id :=
      fun d earlier same => fresh d earlier (by simp [same])
    have unfolded : g.crossings op (id :: ids) = g.crossingsInto op id ++ g.crossings op ids := rfl
    rw [List.foldlM_cons, spliced.spliceNode_eq walked (subset (by simp)) other, unfolded,
      List.foldlM_append]
    cases folded : (g.crossingsInto op id).foldlM (Crossing.realize settings op) s with
    | error interrupted => rfl
    | ok next =>
      have spliced' := spliced.foldlM_realize_crossingsInto other folded
      refine ih (fun a h => subset (by simp [h])) nodup spliced' (fun d earlier => ?_)
      rcases List.mem_append.mp earlier with earlier | earlier
      · exact fun h => fresh d earlier (by simp [h])
      · obtain ⟨rfl, _⟩ := (Graph.mem_crossingsInto_iff id d).mp earlier
        exact new

end Spliced

/-- Splicing makes the copies that the crossings of the graph ask for, in their order, until one is
rejected. -/
theorem Graph.splice_eq_foldlM {order : List NodeId} (walked : g.postOrder = .ok order)
    (settings : CopySettings) (op : Operator P) :
    g.splice settings op =
      (g.crossings op order).foldlM (Crossing.realize settings op) (.start g) := by
  simp only [splice, walked, Checked.within_ok]
  exact (Spliced.start g settings op).foldlM_spliceNode walked order (List.Subset.refl order)
    (nodup_of_postOrder walked) (by simp)

theorem Graph.splice_of_unordered {fault : Fault GraphError} (failed : g.postOrder = .error fault)
    (settings : CopySettings) (op : Operator P) :
    g.splice settings op = .error ⟨#[], fault.map .graph⟩ := by
  simp only [splice, failed, Checked.within_error]
  rfl

theorem Graph.spliced_of_splice {settings : CopySettings} {op : Operator P} {s : Splicing P}
    (succeeded : g.splice settings op = .ok s) :
    ∃ order, g.postOrder = .ok order ∧ Spliced g settings op (g.crossings op order) s := by
  cases walked : g.postOrder with
  | error fault => simp [splice, walked, Splicing.stop] at succeeded
  | ok order =>
    rw [splice_eq_foldlM walked] at succeeded
    refine ⟨order, rfl, ?_⟩
    have spliced := (Spliced.start g settings op).foldlM_realize (g.crossings op order)
      (fun c member => ((mem_crossings_iff order c).mp member).2) (by simp)
      (crossings_apart walked op) succeeded
    simpa using spliced

def squareGraph : Graph .plain where
  arena := 0
  nodes := #[
    { attrs := { name := "x", device := ⟨0⟩ } },
    { attrs := { name := "sq", op := some { name := "mul" }, device := ⟨1⟩ }
      inputs := #[{ node := ⟨0, 0⟩ }, { node := ⟨0, 0⟩ }] }]
  outputs := #[{ node := ⟨0, 1⟩ }]

def squareCopy : Node .plain where
  attrs := {
    name := "__copy_x_to_sq"
    op := some .deviceCopy
    device := ⟨1⟩
    payload := some (.copyTo ⟨1⟩) }
  inputs := #[{ node := ⟨0, 0⟩ }]

def squareCopied : Graph .plain where
  arena := 0
  nodes := #[
    { attrs := { name := "x", device := ⟨0⟩ } },
    { attrs := { name := "sq", op := some { name := "mul" }, device := ⟨1⟩ }
      inputs := #[{ node := ⟨0, 2⟩ }, { node := ⟨0, 3⟩ }] },
    squareCopy, squareCopy]
  outputs := #[{ node := ⟨0, 1⟩ }]

theorem postOrder_squareGraph : squareGraph.postOrder = .ok [⟨0, 0⟩, ⟨0, 1⟩] := by cbv

theorem postOrder_squareCopied :
    squareCopied.postOrder = .ok [⟨0, 0⟩, ⟨0, 2⟩, ⟨0, 3⟩, ⟨0, 1⟩] := by cbv

theorem splice_squareGraph : ∃ trace, squareGraph.splice {} .deviceCopy =
    .ok ⟨squareCopied, #[⟨0, 2⟩, ⟨0, 3⟩], trace⟩ := by
  rw [Graph.splice_eq_foldlM postOrder_squareGraph]
  exact ⟨_, rfl⟩

end Placement
