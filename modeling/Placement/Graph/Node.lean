import Placement.Operator.Parsing

namespace Placement

/-- A node is known by the arena it was made in and its position there. Arenas have different
numbers, so a node of one is never mistaken for a node of another. -/
structure NodeId where
  arena : Nat
  index : Nat
deriving DecidableEq, Hashable

structure Entry where
  node : NodeId
  index : UInt32 := 0
  version : UInt32 := 0
deriving DecidableEq

structure Node (P : Client) where
  attrs : NodeAttrs P
  inputs : Array Entry := #[]
  /-- Nodes that have to come first without giving data. -/
  controlDeps : Array NodeId := #[]

namespace Node

variable {P : Client}

def name (n : Node P) : String := n.attrs.name

def device (n : Node P) : Device := n.attrs.device

def op (n : Node P) : Option (Operator P) := n.attrs.op

def isVariable (n : Node P) : Bool := n.attrs.isVariable

def numOutputs (n : Node P) : UInt32 := n.attrs.numOutputs

def applies (n : Node P) (op : Operator P) : Bool := n.op.any (fun own => own.same op)

/-- What the node depends on: the nodes of its inputs by slot, then its control dependencies. -/
def dependencies (n : Node P) : List NodeId :=
  n.inputs.toList.map Entry.node ++ n.controlDeps.toList

def numDependencies (n : Node P) : Nat := n.inputs.size + n.controlDeps.size

def dependency? (n : Node P) (i : Nat) : Option NodeId :=
  match n.inputs[i]? with
  | some entry => some entry.node
  | none => n.controlDeps[i - n.inputs.size]?

theorem length_dependencies (n : Node P) : n.dependencies.length = n.numDependencies := by
  simp [dependencies, numDependencies]

theorem mem_dependencies_of_input {n : Node P} {e : Entry} (input : e ∈ n.inputs) :
    e.node ∈ n.dependencies :=
  List.mem_append_left _ (List.mem_map_of_mem (Array.mem_toList_iff.mpr input))

theorem mem_dependencies_of_controlDep {n : Node P} {id : NodeId} (control : id ∈ n.controlDeps) :
    id ∈ n.dependencies :=
  List.mem_append_right _ (Array.mem_toList_iff.mpr control)

theorem dependency?_eq_getElem? (n : Node P) (i : Nat) :
    n.dependency? i = n.dependencies[i]? := by
  unfold dependency? dependencies
  by_cases inside : i < n.inputs.size
  · simp [inside, List.getElem?_append]
  · simp [inside, List.getElem?_append]

theorem lt_numDependencies_of_dependency? {n : Node P} {i : Nat} {id : NodeId}
    (found : n.dependency? i = some id) : i < n.numDependencies := by
  rw [dependency?_eq_getElem?] at found
  rw [← length_dependencies]
  exact (List.getElem?_eq_some_iff.mp found).1

end Node
end Placement
