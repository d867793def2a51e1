import Placement.Copy.Settings
import Placement.Graph.Basic

namespace Placement

/-- A slot whose producer is on another device than its consumer. -/
structure Crossing (P : Client) where
  consumer : NodeId
  slot : Nat
  entry : Entry
  producerNode : Node P
  consumerNode : Node P

namespace Crossing

variable {P : Client}

def plan (settings : CopySettings) (c : Crossing P) : CopyPlan :=
  settings.plan c.producerNode c.consumerNode c.consumerNode.device c.slot

def at? (g : Graph P) (consumer : NodeId) (node : Node P) (slot : Nat) : Option (Crossing P) :=
  match node.inputs[slot]? with
  | none => none
  | some entry =>
    match g.node? entry.node with
    | none => none
    | some producer =>
      if producer.device = node.device then none
      else some ⟨consumer, slot, entry, producer, node⟩

end Crossing

namespace Graph

variable {P : Client}

/-- The crossings into one node by slot. A node that applies the copy operator has none. -/
def crossingsInto (g : Graph P) (op : Operator P) (consumer : NodeId) : List (Crossing P) :=
  match g.node? consumer with
  | none => []
  | some node =>
    if node.applies op then []
    else (List.range node.inputs.size).filterMap (Crossing.at? g consumer node)

def crossings (g : Graph P) (op : Operator P) (order : List NodeId) : List (Crossing P) :=
  order.flatMap (g.crossingsInto op)

end Graph
end Placement
