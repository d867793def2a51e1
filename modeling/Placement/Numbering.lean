import Std.Data.HashMap
import Placement.Graph.Walk
import Placement.Word

/-! Dense numbers for the nodes that the outputs depend on, and for their entries.
Nodes are numbered in post-order, so a node's number is above those of its dependencies. The
entries of a node are numbered without gaps after those of the nodes before it. Numbers are
32-bit words; a numbering keeps what it was built from and does not follow later changes. -/
namespace Placement

structure NumberedEntry where
  node : UInt32
  index : UInt32
  version : UInt32
deriving DecidableEq

structure NumberedNode where
  source : NodeId
  inputs : List NumberedEntry
  controlDeps : List UInt32

structure Numbering where
  nodes : Array NumberedNode
  /-- The first entry of each node, and after the last node the number of all entries. -/
  firstEntries : Array UInt32
  numbers : Std.HashMap NodeId UInt32
  /-- The numbers of the variables, in increasing order. -/
  variableNodes : Array UInt32
  outputs : List NumberedEntry

namespace Numbering

variable {P : Client} {ε : Type}

def numberNodes (order : List NodeId) : Std.HashMap NodeId UInt32 :=
  .ofList (order.zipIdx.map (fun (id, i) => (id, i.toUInt32)))

/-- An entry has to name an output that its node has. -/
def numberEntry (g : Graph P) (numbers : Std.HashMap NodeId UInt32) (e : Entry) :
    Checked GraphError NumberedEntry :=
  match g.node? e.node with
  | none => .report (.danglingNode e.node.index)
  | some producer =>
    if producer.numOutputs ≤ e.index then
      .report (.invalidEntry producer.name e.index producer.numOutputs)
    else
      match numbers[e.node]? with
      | none => .report (.danglingNode e.node.index)
      | some number => .ok ⟨number, e.index, e.version⟩

def numberControlDep (numbers : Std.HashMap NodeId UInt32) (id : NodeId) :
    Checked GraphError UInt32 :=
  match numbers[id]? with
  | none => .report (.danglingNode id.index)
  | some number => .ok number

structure Progress where
  nodes : Array NumberedNode
  firstEntries : Array UInt32
  nextEntry : UInt32
  variableNodes : Array UInt32

def Progress.start : Progress := ⟨#[], #[0], 0, #[]⟩

/-- Numbers one more node. Its inputs are checked before its outputs are counted. -/
def Progress.add (g : Graph P) (numbers : Std.HashMap NodeId UInt32) (p : Progress) (id : NodeId) :
    Checked GraphError Progress := do
  let node ← Checked.present (g.node? id)
  let inputs ← node.inputs.toList.mapM (numberEntry g numbers)
  let controlDeps ← node.controlDeps.toList.mapM (numberControlDep numbers)
  let number := p.nodes.size.toUInt32
  let variableNodes := if node.isVariable then p.variableNodes.push number else p.variableNodes
  match addWords? p.nextEntry node.numOutputs with
  | none => .report (.tooManyEntries node.name)
  | some next =>
    .ok {
      nodes := p.nodes.push ⟨id, inputs, controlDeps⟩
      firstEntries := p.firstEntries.push next
      nextEntry := next
      variableNodes := variableNodes }

def ofGraph (g : Graph P) : Checked GraphError Numbering := do
  let order ← g.postOrder
  let numbers := numberNodes order
  let p ← order.foldlM (Progress.add g numbers) Progress.start
  let outputs ← g.outputs.toList.mapM (numberEntry g numbers)
  return ⟨p.nodes, p.firstEntries, numbers, p.variableNodes, outputs⟩

def numNodes (n : Numbering) : Nat := n.nodes.size

def numEntries (n : Numbering) : Nat :=
  match n.firstEntries.back? with
  | some total => total.toNat
  | none => 0

def node (n : Numbering) (number : UInt32) : Checked ε NumberedNode :=
  .present n.nodes[number.toNat]?

/-- The number of an entry. The slot is not compared with the node's outputs, and the number of
nodes itself is admitted as a node. -/
def entryId (n : Numbering) (node index : UInt32) : Checked ε Nat := do
  let first ← Checked.present n.firstEntries[node.toNat]?
  let entry ← Checked.present (addWords? first index)
  return entry.toNat

def nodeNumber? (n : Numbering) (id : NodeId) : Option UInt32 := n.numbers[id]?

def entryIdFor (n : Numbering) (e : Entry) : Checked ε (Option Nat) :=
  match n.nodeNumber? e.node with
  | none => .ok none
  | some number => do return some (← n.entryId number e.index)

end Numbering
end Placement
