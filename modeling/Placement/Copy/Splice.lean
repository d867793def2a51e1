import Placement.Copy.Settings
import Placement.Graph.Walk
import Placement.Pass.Run

/-! Splicing of copies into a graph. For each slot whose producer is on another device a copy is
added on the consumer's device, and the slot is made to read it. The graph that is read is the
one being changed; the order in which consumers are visited is fixed before. -/
namespace Placement

/-- The graph so far, the copies made in it, and what has happened. -/
structure Splicing (P : Client) where
  graph : Graph P
  copies : Array NodeId
  trace : Array (Event P)

structure Interrupted (P : Client) where
  trace : Array (Event P)
  fault : Fault PassError

namespace Splicing

variable {P : Client}

def start (g : Graph P) : Splicing P := ⟨g, #[], #[]⟩

def stop {α : Type} (s : Splicing P) (fault : Fault PassError) : Except (Interrupted P) α :=
  .error ⟨s.trace, fault⟩

def present {α : Type} (s : Splicing P) : Option α → Except (Interrupted P) α
  | some a => .ok a
  | none => s.stop .outOfRange

def record (s : Splicing P) (events : List (Event P)) : Splicing P :=
  { s with trace := events.foldl Array.push s.trace }

/-- Adds a copy that reads an entry, and makes the consumer's slot read the copy. -/
def insert (s : Splicing P) (attrs : NodeAttrs P) (entry : Entry) (consumer : NodeId)
    (slot : Nat) : Splicing P :=
  let copy := s.graph.nextId
  let extended := s.graph.addNode { attrs := attrs, inputs := #[entry] }
  { s with
    graph := extended.setInput consumer slot { node := copy }
    copies := s.copies.push copy }

variable [CustomParsers P]

/-- Makes the planned copy, unless the operator's parser rejects its attributes. -/
def realize (op : Operator P) (plan : CopyPlan) (entry : Entry) (consumer : NodeId) (slot : Nat)
    (s : Splicing P) : Except (Interrupted P) (Splicing P) :=
  let run := op.runParser (plan.freshAttrs op)
  let announced := s.record (.copyPlanned plan :: run.events)
  match run.parsing.verdict with
  | .error error => announced.stop (.reported (.op error))
  | .ok () => .ok (announced.insert run.parsing.attrs entry consumer slot)

def spliceSlot (settings : CopySettings) (op : Operator P) (consumer : NodeId) (device : Device)
    (s : Splicing P) (slot : Nat) : Except (Interrupted P) (Splicing P) := do
  let node ← s.present (s.graph.node? consumer)
  let entry ← s.present node.inputs[slot]?
  let producer ← s.present (s.graph.node? entry.node)
  if producer.device = device then
    return s
  else
    s.realize op (settings.plan producer node device slot) entry consumer slot

/-- Looks at all slots of a node. The input of a node that applies the copy operator is the
crossing it stands for, so it is left alone. -/
def spliceNode (settings : CopySettings) (op : Operator P) (s : Splicing P) (consumer : NodeId) :
    Except (Interrupted P) (Splicing P) := do
  let node ← s.present (s.graph.node? consumer)
  if node.applies op then
    return s
  else
    (List.range node.inputs.size).foldlM (spliceSlot settings op consumer node.device) s

end Splicing

/-- The graph with a copy on every crossing edge among the nodes its outputs depend on. -/
def Graph.splice {P : Client} [CustomParsers P] (settings : CopySettings) (op : Operator P)
    (g : Graph P) : Except (Interrupted P) (Splicing P) :=
  match Checked.within PassError.graph g.postOrder with
  | .error fault => (Splicing.start g).stop fault
  | .ok order => order.foldlM (Splicing.spliceNode settings op) (.start g)

end Placement
