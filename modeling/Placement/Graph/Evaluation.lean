import Placement.Graph.Walk

/-! What a graph computes. An interpretation says what a node makes of the values it reads; the
version of an entry means nothing to it. Values are worked out along the post-order, so each
node's inputs are known when it is reached. -/
namespace Placement

/-- From a node and the values of its inputs, a value for each of its outputs. -/
abbrev Interpretation (V : Type) := NodeId → List V → UInt32 → V

abbrev Valuation (V : Type) := NodeId → Option (UInt32 → V)

namespace Valuation

variable {V : Type}

def empty : Valuation V := fun _ => none

def read? (v : Valuation V) (e : Entry) : Option V :=
  (v e.node).map (fun outputs => outputs e.index)

def assign (v : Valuation V) (id : NodeId) (outputs : UInt32 → V) : Valuation V :=
  fun other => if other = id then some outputs else v other

end Valuation

namespace Graph

variable {P : Client} {V : Type}

/-- Evaluates one node, if the values it reads are known. -/
def evaluateNode (g : Graph P) (meaning : Interpretation V) (v : Valuation V) (id : NodeId) :
    Valuation V :=
  match g.node? id with
  | none => v
  | some node =>
    match node.inputs.toList.mapM v.read? with
    | none => v
    | some inputs => v.assign id (meaning id inputs)

def evaluate (g : Graph P) (meaning : Interpretation V) : Checked GraphError (Valuation V) :=
  g.postOrder.map (fun order => order.foldl (g.evaluateNode meaning) .empty)

def outputValues (g : Graph P) (meaning : Interpretation V) :
    Checked GraphError (List (Option V)) :=
  (g.evaluate meaning).map (fun v => g.outputs.toList.map v.read?)

end Graph
end Placement
