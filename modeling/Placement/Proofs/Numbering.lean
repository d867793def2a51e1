import Mathlib.Data.List.Forall2
import Placement.Numbering
import Placement.Proofs.Graph.Entries
import Placement.Proofs.Graph.PostOrder

namespace Placement

theorem mapM_eq_ok_iff {ε α β : Type} (f : α → Except ε β) (l : List α) (r : List β) :
    l.mapM f = .ok r ↔ List.Forall₂ (fun a b => f a = .ok b) l r := by
  induction l generalizing r with
  | nil =>
    rw [List.mapM_nil, List.forall₂_nil_left_iff]
    exact ⟨fun same => (Except.ok.inj same).symm, fun same => same ▸ rfl⟩
  | cons a l ih =>
    rw [List.mapM_cons, List.forall₂_cons_left_iff]
    cases first : f a with
    | error error => simp [bind, Except.bind]
    | ok b =>
      cases rest : l.mapM f with
      | error error => simp [bind, Except.bind, ← ih, rest]
      | ok r' => simp [bind, Except.bind, ← ih, rest, pure, Except.pure, eq_comm]

theorem mapM_eq_error {ε α β : Type} {f : α → Except ε β} {l : List α} {error : ε}
    (failed : l.mapM f = .error error) :
    ∃ front a back, l = front ++ a :: back ∧ (∀ b ∈ front, ∃ r, f b = .ok r) ∧
      f a = .error error := by
  induction l with
  | nil => cases failed
  | cons a l ih =>
    cases first : f a with
    | error cause =>
      simp only [List.mapM_cons, first, bind, Except.bind] at failed
      cases failed
      exact ⟨[], a, l, rfl, by simp, first⟩
    | ok r =>
      cases rest : l.mapM f with
      | ok _ => simp [List.mapM_cons, first, rest, bind, Except.bind, pure, Except.pure] at failed
      | error cause =>
        simp only [List.mapM_cons, first, rest, bind, Except.bind] at failed
        cases failed
        obtain ⟨front, b, back, rfl, before, here⟩ := ih rest
        exact ⟨a :: front, b, back, rfl, by simpa [first] using before, here⟩

theorem exists_of_mem_left {α β : Type} {R : α → β → Prop} {l : List α} {r : List β}
    (related : List.Forall₂ R l r) {a : α} (member : a ∈ l) : ∃ b ∈ r, R a b := by
  induction related with
  | nil => cases member
  | cons first _ ih =>
    rcases List.mem_cons.mp member with rfl | member
    · exact ⟨_, by simp, first⟩
    · obtain ⟨b, h, both⟩ := ih member
      exact ⟨b, by simp [h], both⟩

theorem exists_of_mem_right {α β : Type} {R : α → β → Prop} {l : List α} {r : List β}
    (related : List.Forall₂ R l r) {b : β} (member : b ∈ r) : ∃ a ∈ l, R a b := by
  induction related with
  | nil => cases member
  | cons first _ ih =>
    rcases List.mem_cons.mp member with rfl | member
    · exact ⟨_, by simp, first⟩
    · obtain ⟨a, h, both⟩ := ih member
      exact ⟨a, by simp [h], both⟩

variable {P : Client} {g : Graph P}

namespace Numbering

theorem numberNodes_of_getElem? {order : List NodeId} (nodup : order.Nodup) {i : Nat} {id : NodeId}
    (listed : order[i]? = some id) : (numberNodes order)[id]? = some i.toUInt32 := by
  apply Std.HashMap.getElem?_ofList_of_mem (k := id) (by simp)
  · rw [List.pairwise_map, List.pairwise_iff_getElem]
    intro a b ha hb less
    have distinct := List.pairwise_iff_getElem.mp nodup a b (by simpa using ha) (by simpa using hb)
      less
    simpa using distinct
  · refine List.mem_map.mpr ⟨(id, i), ?_, rfl⟩
    exact List.mem_zipIdx_iff_getElem?.mpr listed

theorem numberNodes_of_mem {order : List NodeId} (nodup : order.Nodup) {id : NodeId}
    (member : id ∈ order) :
    ∃ i : Nat, order[i]? = some id ∧ (numberNodes order)[id]? = some i.toUInt32 := by
  obtain ⟨i, listed⟩ := List.getElem?_of_mem member
  exact ⟨i, listed, numberNodes_of_getElem? nodup listed⟩

theorem numberNodes_of_not_mem {order : List NodeId} {id : NodeId} (absent : id ∉ order) :
    (numberNodes order)[id]? = none := by
  apply Std.HashMap.getElem?_ofList_of_contains_eq_false
  rw [List.map_map]
  change (order.zipIdx.map Prod.fst).contains id = false
  rw [List.zipIdx_map_fst]
  simpa using absent

theorem numberEntry_of_valid {order : List NodeId} (nodup : order.Nodup) {e : Entry}
    (valid : g.ValidEntry e) (member : e.node ∈ order) :
    ∃ i : Nat, order[i]? = some e.node ∧
      numberEntry g (numberNodes order) e = .ok ⟨i.toUInt32, e.index, e.version⟩ := by
  obtain ⟨producer, found, small⟩ := valid
  obtain ⟨i, listed, number⟩ := numberNodes_of_mem nodup member
  have notLarge : ¬ producer.numOutputs ≤ e.index := UInt32.not_le.mpr small
  exact ⟨i, listed, by simp [numberEntry, found, notLarge, number]⟩

theorem valid_of_numberEntry {numbers : Std.HashMap NodeId UInt32} {e : Entry} {n : NumberedEntry}
    (numbered : numberEntry g numbers e = .ok n) : g.ValidEntry e := by
  unfold numberEntry at numbered
  split at numbered
  next => cases numbered
  next producer found =>
    split at numbered
    next => cases numbered
    next small => exact ⟨producer, found, UInt32.not_le.mp small⟩

theorem valid_of_mapM {numbers : Std.HashMap NodeId UInt32} {entries : List Entry}
    {numbered : List NumberedEntry} (all : entries.mapM (numberEntry g numbers) = .ok numbered) :
    ∀ e ∈ entries, g.ValidEntry e := by
  intro e listed
  obtain ⟨n, _, own⟩ := exists_of_mem_left ((mapM_eq_ok_iff _ _ _).mp all) listed
  exact valid_of_numberEntry own

theorem Progress.add_eq_ok_iff (numbers : Std.HashMap NodeId UInt32) (p q : Progress)
    (id : NodeId) :
    p.add g numbers id = .ok q ↔ ∃ node inputs controlDeps next, g.node? id = some node ∧
      node.inputs.toList.mapM (numberEntry g numbers) = .ok inputs ∧
      node.controlDeps.toList.mapM (numberControlDep numbers) = .ok controlDeps ∧
      addWords? p.nextEntry node.numOutputs = some next ∧
      q = {
        nodes := p.nodes.push ⟨id, inputs, controlDeps⟩
        firstEntries := p.firstEntries.push next
        nextEntry := next
        variableNodes := if node.isVariable then p.variableNodes.push p.nodes.size.toUInt32
          else p.variableNodes } := by
  unfold Progress.add
  cases found : g.node? id with
  | none => simp [Checked.present, bind, Except.bind]
  | some node =>
    cases inputs : node.inputs.toList.mapM (numberEntry g numbers) with
    | error fault => simp [Checked.present, bind, Except.bind, inputs]
    | ok inputs' =>
      cases deps : node.controlDeps.toList.mapM (numberControlDep numbers) with
      | error fault => simp [Checked.present, bind, Except.bind, inputs, deps]
      | ok deps' =>
        cases sum : addWords? p.nextEntry node.numOutputs with
        | none => simp [Checked.present, bind, Except.bind, inputs, deps, sum, Checked.report]
        | some next =>
          simp only [Checked.present, bind, Except.bind, inputs, deps, sum]
          constructor
          · intro same
            exact ⟨node, inputs', deps', next, rfl, inputs, deps, sum, (Except.ok.inj same).symm⟩
          · rintro ⟨_, _, _, _, same, reads, controls, total, rfl⟩
            cases same
            cases inputs.symm.trans reads
            cases deps.symm.trans controls
            cases sum.symm.trans total
            rfl

structure Counted (g : Graph P) (numbers : Std.HashMap NodeId UInt32) (front : List NodeId)
    (p : Progress) : Prop where
  sources : p.nodes.toList.map NumberedNode.source = front
  nodes : ∀ numbered ∈ p.nodes, ∃ node, g.node? numbered.source = some node ∧
    node.inputs.toList.mapM (numberEntry g numbers) = .ok numbered.inputs ∧
    node.controlDeps.toList.mapM (numberControlDep numbers) = .ok numbered.controlDeps
  next : p.nextEntry.toNat = g.entryCount front
  size : p.firstEntries.size = front.length + 1
  firsts : ∀ j, j ≤ front.length → ∃ first, p.firstEntries[j]? = some first ∧
    first.toNat = g.entryCount (front.take j)

theorem Counted.start (g : Graph P) (numbers : Std.HashMap NodeId UInt32) :
    Counted g numbers [] .start where
  sources := rfl
  nodes := by simp [Progress.start]
  next := rfl
  size := rfl
  firsts := by
    intro j small
    obtain rfl : j = 0 := Nat.le_zero.mp small
    exact ⟨0, rfl, rfl⟩

theorem Counted.add {numbers : Std.HashMap NodeId UInt32} {front : List NodeId} {p q : Progress}
    {id : NodeId} (counted : Counted g numbers front p) (added : p.add g numbers id = .ok q) :
    Counted g numbers (front ++ [id]) q := by
  obtain ⟨node, inputs, controlDeps, next, found, reads, deps, sum, rfl⟩ :=
    (Progress.add_eq_ok_iff numbers p q id).mp added
  have total : next.toNat = g.entryCount (front ++ [id]) := by
    rw [toNat_of_addWords? sum, counted.next, g.entryCount_append, g.entryCount_singleton,
      Graph.width_of_node? found]
  constructor
  · simp [counted.sources]
  · intro numbered member
    rcases Array.mem_push.mp member with member | rfl
    · exact counted.nodes numbered member
    · exact ⟨node, found, reads, deps⟩
  · exact total
  · simp [counted.size]
  · intro j small
    rw [List.length_append, List.length_singleton] at small
    by_cases last : j = front.length + 1
    · subst last
      refine ⟨next, by simp [← counted.size], ?_⟩
      rw [total, List.take_of_length_le (by simp)]
    · have inside : j ≤ front.length := by omega
      obtain ⟨first, listed, value⟩ := counted.firsts j inside
      have within : j ≠ p.firstEntries.size := by rw [counted.size]; omega
      refine ⟨first, by simpa [Array.getElem?_push, within] using listed, ?_⟩
      rw [List.take_append_of_le_length inside, value]

theorem Counted.foldlM {numbers : Std.HashMap NodeId UInt32} (ids : List NodeId)
    {front : List NodeId} {p final : Progress} (counted : Counted g numbers front p)
    (folded : ids.foldlM (Progress.add g numbers) p = .ok final) :
    Counted g numbers (front ++ ids) final := by
  induction ids generalizing front p with
  | nil =>
    cases folded
    simpa using counted
  | cons id ids ih =>
    rw [List.foldlM_cons] at folded
    cases added : p.add g numbers id with
    | error fault =>
      rw [added] at folded
      cases folded
    | ok q =>
      rw [added] at folded
      simpa using ih (counted.add added) folded

theorem Counted.valid {numbers : Std.HashMap NodeId UInt32} {front : List NodeId} {p : Progress}
    (counted : Counted g numbers front p) : ∀ id ∈ front, g.ValidInputs id := by
  intro id member node found e reads
  rw [← counted.sources] at member
  obtain ⟨numbered, listed, rfl⟩ := List.mem_map.mp member
  obtain ⟨same, found', inputs, _⟩ := counted.nodes numbered (Array.mem_toList_iff.mp listed)
  obtain rfl : node = same := Option.some.inj (found.symm.trans found')
  exact valid_of_mapM inputs e (Array.mem_toList_iff.mpr reads)

theorem Counted.room {numbers : Std.HashMap NodeId UInt32} {front : List NodeId} {p : Progress}
    (counted : Counted g numbers front p) : g.entryCount front < UInt32.size := by
  rw [← counted.next]
  exact p.nextEntry.toNat_lt

end Numbering

structure Graph.Numberable (g : Graph P) (order : List NodeId) : Prop where
  inputs : ∀ id ∈ order, ∀ node, g.node? id = some node → ∀ e ∈ node.inputs, g.ValidEntry e
  outputs : ∀ e ∈ g.outputs, g.ValidEntry e
  small : g.entryCount order < UInt32.size

instance (g : Graph P) (order : List NodeId) : Decidable (g.Numberable order) :=
  decidable_of_iff
    ((∀ id ∈ order, (g.node? id).all (fun node =>
        node.inputs.toList.all (fun e => g.ValidEntry e)) = true) ∧
      (∀ e ∈ g.outputs.toList, g.ValidEntry e) ∧ g.entryCount order < UInt32.size)
    (by
      simp only [Option.all_eq_true, List.all_eq_true, Array.mem_toList_iff, decide_eq_true_eq]
      exact ⟨fun h => ⟨h.1, h.2.1, h.2.2⟩, fun h => ⟨h.inputs, h.outputs, h.small⟩⟩)

section

variable {order : List NodeId} (walked : g.postOrder = .ok order)

include walked

theorem Graph.Reads.producer {e : Entry} (read : g.Reads e) :
    ∃ producer, g.node? e.node = some producer := by
  rcases read with output | ⟨id, node, reached, found, input⟩
  · exact holds_of_postOrder walked e.node (output_mem_postOrder walked output)
  · obtain ⟨slot, listed⟩ := Array.getElem?_of_mem input
    exact (producer_of_postOrder walked ((mem_postOrder_iff walked id).mpr reached) found listed).2

theorem Graph.reads_of_input {id : NodeId} {node : Node P} {e : Entry} (member : id ∈ order)
    (found : g.node? id = some node) (input : e ∈ node.inputs) : g.Reads e :=
  .inr ⟨id, node, (mem_postOrder_iff walked id).mp member, found, input⟩

theorem Graph.numberable_iff : g.Numberable order ↔
    (∀ e, g.Reads e → g.ValidEntry e) ∧ g.entryCount order < UInt32.size := by
  constructor
  · intro numberable
    refine ⟨?_, numberable.small⟩
    rintro e (output | ⟨id, node, reached, found, input⟩)
    · exact numberable.outputs e output
    · exact numberable.inputs id ((mem_postOrder_iff walked id).mpr reached) node found e input
  · rintro ⟨valid, small⟩
    refine ⟨fun id member node found e input => ?_, fun e output => valid e (.inl output), small⟩
    exact valid e (reads_of_input walked member found input)

end

/-- Where the numbering of an order stops, and with which error. The inputs of a node are looked
at before its entries are counted, and the outputs of the graph after all nodes. -/
inductive Graph.Unnumberable (g : Graph P) (order : List NodeId) : GraphError → Prop where
  | input (front back : List NodeId) (id : NodeId) (node : Node P) (error : GraphError)
      (cut : order = front ++ id :: back) (found : g.node? id = some node)
      (valid : ∀ a ∈ front, g.ValidInputs a) (room : g.entryCount front < UInt32.size)
      (invalid : g.FirstInvalid node.inputs.toList error) : Unnumberable g order error
  | entries (front back : List NodeId) (id : NodeId) (node : Node P)
      (cut : order = front ++ id :: back) (found : g.node? id = some node)
      (valid : ∀ a ∈ front ++ [id], g.ValidInputs a) (room : g.entryCount front < UInt32.size)
      (full : UInt32.size ≤ g.entryCount (front ++ [id])) :
      Unnumberable g order (.tooManyEntries node.name)
  | output (error : GraphError) (valid : ∀ a ∈ order, g.ValidInputs a)
      (room : g.entryCount order < UInt32.size)
      (invalid : g.FirstInvalid g.outputs.toList error) : Unnumberable g order error

theorem Graph.Unnumberable.not_numberable {order : List NodeId} {error : GraphError}
    (stops : g.Unnumberable order error) : ¬ g.Numberable order := by
  intro numberable
  cases stops with
  | input front back id node _ cut found _ _ invalid =>
    refine invalid.not_valid (fun e reads => ?_)
    exact numberable.inputs id (by simp [cut]) node found e (Array.mem_toList_iff.mp reads)
  | entries front back id node cut found _ _ full =>
    have small := numberable.small
    have whole : order = (front ++ [id]) ++ back := by simp [cut]
    rw [whole, g.entryCount_append] at small
    omega
  | output _ _ _ invalid =>
    exact invalid.not_valid (fun e listed => numberable.outputs e (Array.mem_toList_iff.mp listed))

namespace Numbering

section

variable {order : List NodeId} (walked : g.postOrder = .ok order)

include walked

theorem ofGraph_eq_ok_iff (n : Numbering) :
    ofGraph g = .ok n ↔ ∃ p outputs,
      order.foldlM (Progress.add g (numberNodes order)) .start = .ok p ∧
      g.outputs.toList.mapM (numberEntry g (numberNodes order)) = .ok outputs ∧
      n = ⟨p.nodes, p.firstEntries, numberNodes order, p.variableNodes, outputs⟩ := by
  unfold ofGraph
  rw [walked]
  cases folded : order.foldlM (Progress.add g (numberNodes order)) .start with
  | error fault => simp [bind, Except.bind, folded]
  | ok p =>
    cases outputs : g.outputs.toList.mapM (numberEntry g (numberNodes order)) with
    | error fault => simp [bind, Except.bind, folded, outputs]
    | ok outputs' => simp [bind, Except.bind, folded, outputs, pure, Except.pure, @eq_comm _ n]

theorem firstInvalid_of_mapM {entries : List Entry} {fault : Fault GraphError}
    (inside : ∀ e ∈ entries, e.node ∈ order)
    (failed : entries.mapM (numberEntry g (numberNodes order)) = .error fault) :
    ∃ error, fault = .reported error ∧ g.FirstInvalid entries error := by
  obtain ⟨front, e, back, rfl, before, here⟩ := mapM_eq_error failed
  have member : e.node ∈ order := inside e (by simp)
  obtain ⟨producer, found⟩ := Graph.holds_of_postOrder walked e.node member
  have valid : ∀ a ∈ front, g.ValidEntry a := by
    intro a listed
    obtain ⟨n, numbered⟩ := before a listed
    exact valid_of_numberEntry numbered
  by_cases beyond : producer.numOutputs ≤ e.index
  · simp only [numberEntry, found, if_pos beyond] at here
    cases here
    exact ⟨_, rfl, front, e, back, producer, rfl, valid, found, beyond, rfl⟩
  · obtain ⟨i, _, numbered⟩ := numberEntry_of_valid (Graph.nodup_of_postOrder walked)
      ⟨producer, found, UInt32.not_le.mp beyond⟩ member
    cases here.symm.trans numbered

/-- A node that is not numbered has an invalid input, or more outputs than there is room for. -/
theorem Progress.add_eq_error {front : List NodeId} {p : Progress} {id : NodeId}
    {fault : Fault GraphError} (counted : Counted g (numberNodes order) front p)
    (member : id ∈ order) (failed : p.add g (numberNodes order) id = .error fault) :
    ∃ node error, g.node? id = some node ∧ fault = .reported error ∧
      (g.FirstInvalid node.inputs.toList error ∨
        g.ValidInputs id ∧ UInt32.size ≤ g.entryCount (front ++ [id]) ∧
          error = .tooManyEntries node.name) := by
  obtain ⟨node, found⟩ := Graph.holds_of_postOrder walked id member
  have dependencies := Graph.dependencies_subset_postOrder walked member found
  unfold Progress.add at failed
  cases reads : node.inputs.toList.mapM (numberEntry g (numberNodes order)) with
  | error cause =>
    simp only [found, reads, Checked.present, bind, Except.bind] at failed
    cases failed
    obtain ⟨error, rfl, invalid⟩ := firstInvalid_of_mapM walked
      (fun e listed => dependencies
        (Node.mem_dependencies_of_input (Array.mem_toList_iff.mp listed))) reads
    exact ⟨node, error, found, rfl, .inl invalid⟩
  | ok inputs =>
    cases deps : node.controlDeps.toList.mapM (numberControlDep (numberNodes order)) with
    | error cause =>
      obtain ⟨front', dep, back, cut, _, here⟩ := mapM_eq_error deps
      have control : dep ∈ node.controlDeps.toList := by simp [cut]
      obtain ⟨i, _, number⟩ := numberNodes_of_mem (Graph.nodup_of_postOrder walked)
        (dependencies (Node.mem_dependencies_of_controlDep (Array.mem_toList_iff.mp control)))
      simp [numberControlDep, number] at here
    | ok controlDeps =>
      cases sum : addWords? p.nextEntry node.numOutputs with
      | some next =>
        simp [found, reads, deps, sum, Checked.present, bind, Except.bind] at failed
      | none =>
        simp only [found, reads, deps, sum, Checked.present, bind, Except.bind] at failed
        cases failed
        have full := (addWords?_eq_none_iff _ _).mp sum
        refine ⟨node, _, found, rfl, .inr ⟨?_, ?_, rfl⟩⟩
        · intro same found' e listed
          obtain rfl : node = same := Option.some.inj (found.symm.trans found')
          exact valid_of_mapM reads e (Array.mem_toList_iff.mpr listed)
        · rwa [g.entryCount_append, g.entryCount_singleton, Graph.width_of_node? found,
            ← counted.next]

theorem unnumberable_of_foldlM (ids front : List NodeId) {p : Progress}
    {fault : Fault GraphError} (cut : order = front ++ ids)
    (counted : Counted g (numberNodes order) front p)
    (failed : ids.foldlM (Progress.add g (numberNodes order)) p = .error fault) :
    ∃ error, fault = .reported error ∧ g.Unnumberable order error := by
  induction ids generalizing front p with
  | nil => cases failed
  | cons id ids ih =>
    rw [List.foldlM_cons] at failed
    cases added : p.add g (numberNodes order) id with
    | ok q =>
      rw [added] at failed
      exact ih (front ++ [id]) (by simp [cut]) (counted.add added) failed
    | error cause =>
      rw [added] at failed
      cases failed
      obtain ⟨node, error, found, rfl, invalid | ⟨valid, full, rfl⟩⟩ :=
        Progress.add_eq_error walked counted (by simp [cut]) added
      · exact ⟨error, rfl,
          .input front ids id node error cut found counted.valid counted.room invalid⟩
      · refine ⟨_, rfl, .entries front ids id node cut found ?_ counted.room full⟩
        intro a member
        rcases List.mem_append.mp member with earlier | here
        · exact counted.valid a earlier
        · obtain rfl : a = id := by simpa using here
          exact valid

/-- A graph that has an order but no numbering fails one of the checks, and the error is that of
the first. -/
theorem unnumberable_of_ofGraph {fault : Fault GraphError} (failed : ofGraph g = .error fault) :
    ∃ error, fault = .reported error ∧ g.Unnumberable order error := by
  unfold ofGraph at failed
  rw [walked] at failed
  cases folded : order.foldlM (Progress.add g (numberNodes order)) .start with
  | error cause =>
    simp only [folded, bind, Except.bind] at failed
    cases failed
    exact unnumberable_of_foldlM walked order [] rfl (.start g _) folded
  | ok p =>
    have counted := Counted.foldlM order (.start g _) folded
    rw [List.nil_append] at counted
    cases outputs : g.outputs.toList.mapM (numberEntry g (numberNodes order)) with
    | ok _ => simp [folded, outputs, bind, Except.bind, pure, Except.pure] at failed
    | error cause =>
      simp only [folded, outputs, bind, Except.bind] at failed
      cases failed
      obtain ⟨error, rfl, invalid⟩ := firstInvalid_of_mapM walked
        (fun e listed => Graph.output_mem_postOrder walked (Array.mem_toList_iff.mp listed)) outputs
      exact ⟨error, rfl, .output error counted.valid counted.room invalid⟩

theorem ofGraph_ok_of_numberable (numberable : g.Numberable order) : ∃ n, ofGraph g = .ok n := by
  cases numbered : ofGraph g with
  | ok n => exact ⟨n, rfl⟩
  | error fault =>
    obtain ⟨error, _, stops⟩ := unnumberable_of_ofGraph walked numbered
    exact absurd numberable stops.not_numberable

theorem counted_of_ofGraph {n : Numbering} (numbered : ofGraph g = .ok n) :
    ∃ p, Counted g (numberNodes order) order p ∧ n.nodes = p.nodes ∧
      n.firstEntries = p.firstEntries := by
  obtain ⟨p, outputs, folded, _, rfl⟩ := (ofGraph_eq_ok_iff walked n).mp numbered
  exact ⟨p, Counted.foldlM order (.start g _) folded, rfl, rfl⟩

theorem numbers_of_ofGraph {n : Numbering} (numbered : ofGraph g = .ok n) :
    n.numbers = numberNodes order := by
  obtain ⟨p, outputs, _, _, rfl⟩ := (ofGraph_eq_ok_iff walked n).mp numbered
  rfl

theorem outputs_of_ofGraph {n : Numbering} (numbered : ofGraph g = .ok n) :
    g.outputs.toList.mapM (numberEntry g (numberNodes order)) = .ok n.outputs := by
  obtain ⟨p, outputs, _, reads, rfl⟩ := (ofGraph_eq_ok_iff walked n).mp numbered
  exact reads

theorem node_of_ofGraph {n : Numbering} (numbered : ofGraph g = .ok n) {own : NumberedNode}
    (listed : own ∈ n.nodes) : own.source ∈ order ∧ ∃ node, g.node? own.source = some node ∧
      node.inputs.toList.mapM (numberEntry g (numberNodes order)) = .ok own.inputs ∧
      node.controlDeps.toList.mapM (numberControlDep (numberNodes order)) =
        .ok own.controlDeps := by
  obtain ⟨p, counted, nodes, _⟩ := counted_of_ofGraph walked numbered
  rw [nodes] at listed
  refine ⟨?_, counted.nodes own listed⟩
  rw [← counted.sources]
  exact List.mem_map_of_mem (Array.mem_toList_iff.mpr listed)

theorem numberable_of_ofGraph {n : Numbering} (numbered : ofGraph g = .ok n) :
    g.Numberable order := by
  obtain ⟨p, outputs, folded, listed, rfl⟩ := (ofGraph_eq_ok_iff walked n).mp numbered
  have counted := Counted.foldlM order (.start g _) folded
  rw [List.nil_append] at counted
  refine ⟨counted.valid, fun e output => ?_, counted.room⟩
  exact valid_of_mapM listed e (Array.mem_toList_iff.mpr output)

end

theorem ofGraph_congr {h : Graph P} (nodes : ∀ id, g.node? id = h.node? id)
    (outputs : g.outputs = h.outputs) : ofGraph g = ofGraph h := by
  have entries : numberEntry g = numberEntry h := by
    funext numbers e
    simp only [numberEntry, nodes]
  have steps : Progress.add g = Progress.add h := by
    funext numbers p id
    simp only [Progress.add, nodes, entries]
  simp only [ofGraph, Graph.postOrder_congr nodes outputs, steps, entries, outputs]

end Numbering
end Placement
