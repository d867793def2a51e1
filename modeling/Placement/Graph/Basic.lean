import Placement.Attribute.Store
import Placement.Fault
import Placement.Graph.Node

/-! Computation graphs: an arena of nodes, the outputs asked for, and a store of attributes.
Nodes are only added, so an id stays valid. Ids of other arenas, and of positions not filled yet,
may occur anywhere; they are dangling. -/
namespace Placement

inductive GraphError where
  | cycle (name : String)
  | danglingNode (index : Nat)
  | tooManyEntries (name : String)
  | invalidEntry (node : String) (index numOutputs : UInt32)
deriving DecidableEq

def GraphError.message : GraphError → String
  | cycle name => "Graph contains a cycle through node '" ++ name ++ "'"
  | danglingNode index => "Node #" ++ index.repr ++ " does not belong to this graph"
  | tooManyEntries name => "Graph has more than u32::MAX entries (at node '" ++ name ++ "')"
  | invalidEntry node index numOutputs =>
    "Node '" ++ node ++ "' has " ++ numOutputs.toNat.repr ++ " output(s) but output "
      ++ index.toNat.repr ++ " is referenced"

structure Graph (P : Client) where
  /-- The number of the arena that the nodes belong to. -/
  arena : Nat
  nodes : Array (Node P) := #[]
  outputs : Array Entry := #[]
  attrs : Store (AttrType P.Kind) := .empty

namespace Graph

variable {P : Client}

def idAt (g : Graph P) (index : Nat) : NodeId := ⟨g.arena, index⟩

def nextId (g : Graph P) : NodeId := g.idAt g.nodes.size

def node? (g : Graph P) (id : NodeId) : Option (Node P) :=
  if id.arena = g.arena then g.nodes[id.index]? else none

def node (g : Graph P) (id : NodeId) : Except GraphError (Node P) :=
  match g.node? id with
  | some node => .ok node
  | none => .error (.danglingNode id.index)

def addNode (g : Graph P) (node : Node P) : Graph P := { g with nodes := g.nodes.push node }

def addOutput (g : Graph P) (entry : Entry) : Graph P := { g with outputs := g.outputs.push entry }

/-- Changes one node. A dangling id changes nothing. -/
def modifyNode (g : Graph P) (id : NodeId) (change : Node P → Node P) : Graph P :=
  if id.arena = g.arena then { g with nodes := g.nodes.modify id.index change } else g

def setInput (g : Graph P) (id : NodeId) (slot : Nat) (entry : Entry) : Graph P :=
  g.modifyNode id (fun node => { node with inputs := node.inputs.setIfInBounds slot entry })

@[simp] theorem arena_addNode (g : Graph P) (node : Node P) : (g.addNode node).arena = g.arena := rfl

@[simp] theorem outputs_addNode (g : Graph P) (node : Node P) :
    (g.addNode node).outputs = g.outputs := rfl

@[simp] theorem attrs_addNode (g : Graph P) (node : Node P) : (g.addNode node).attrs = g.attrs := rfl

@[simp] theorem size_addNode (g : Graph P) (node : Node P) :
    (g.addNode node).nodes.size = g.nodes.size + 1 := Array.size_push node

section

variable (g : Graph P) (id : NodeId) (slot : Nat) (entry : Entry)

@[simp] theorem arena_setInput : (g.setInput id slot entry).arena = g.arena := by
  unfold setInput modifyNode
  split <;> rfl

@[simp] theorem outputs_setInput : (g.setInput id slot entry).outputs = g.outputs := by
  unfold setInput modifyNode
  split <;> rfl

@[simp] theorem attrs_setInput : (g.setInput id slot entry).attrs = g.attrs := by
  unfold setInput modifyNode
  split <;> rfl

@[simp] theorem size_setInput : (g.setInput id slot entry).nodes.size = g.nodes.size := by
  unfold setInput modifyNode
  split <;> simp

end

@[simp] theorem node?_idAt (g : Graph P) (index : Nat) :
    g.node? (g.idAt index) = g.nodes[index]? := by
  simp [node?, idAt]

/-- Adding a node fills the next id and leaves all others as they are. -/
theorem node?_addNode (g : Graph P) (node : Node P) (id : NodeId) :
    (g.addNode node).node? id = if id = g.nextId then some node else g.node? id := by
  obtain ⟨arena, index⟩ := id
  unfold node? addNode nextId idAt
  by_cases own : arena = g.arena
  · subst own
    by_cases last : index = g.nodes.size
    · simp [last]
    · simp [last, Array.getElem?_push]
  · simp [own]

theorem node?_modifyNode (g : Graph P) (id other : NodeId) (change : Node P → Node P) :
    (g.modifyNode id change).node? other =
      if other = id then (g.node? id).map change else g.node? other := by
  obtain ⟨arena, index⟩ := id
  obtain ⟨otherArena, otherIndex⟩ := other
  by_cases own : arena = g.arena
  · subst own
    by_cases equal : otherArena = g.arena
    · subst equal
      by_cases position : otherIndex = index
      · simp [modifyNode, node?, position, Array.getElem?_modify]
      · have apart : index ≠ otherIndex := fun h => position h.symm
        simp [modifyNode, node?, position, apart, Array.getElem?_modify]
    · simp [modifyNode, node?, equal]
  · by_cases equal : otherArena = arena
    · subst equal
      simp [modifyNode, node?, own]
    · simp [modifyNode, node?, own, equal]

end Graph
end Placement
