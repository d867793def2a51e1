import Placement.Numbering

/-! The device of every entry, at the entry's number. Each entry gets the device of its own node;
those that an edge reads are then written again with the device at the edge's source. -/
namespace Placement.DeviceVector

variable {P : Client}

/-- Writes a device to the positions from `first` up to, not including, `stop`. -/
def fill (devices : Array Device) (first stop : Nat) (device : Device) :
    Checked GraphError (Array Device) :=
  if first ≤ stop ∧ stop ≤ devices.size then
    .ok ((List.range' first (stop - first)).foldl
      (fun devices entry => devices.setIfInBounds entry device) devices)
  else .error .outOfRange

def write (devices : Array Device) (entry : Nat) (device : Device) :
    Checked GraphError (Array Device) :=
  if entry < devices.size then .ok (devices.setIfInBounds entry device) else .error .outOfRange

def deviceOf (g : Graph P) (n : Numbering) (number : UInt32) : Checked GraphError Device := do
  let numbered ← n.node number
  let source ← Checked.present (g.node? numbered.source)
  return source.device

def seedNode (g : Graph P) (n : Numbering) (devices : Array Device) (number : UInt32) :
    Checked GraphError (Array Device) := do
  let device ← deviceOf g n number
  let first ← n.entryId number 0
  let following ← Checked.present (addWords? number 1)
  let stop ← n.entryId following 0
  fill devices first stop device

def writeEdge (g : Graph P) (n : Numbering) (devices : Array Device) (e : NumberedEntry) :
    Checked GraphError (Array Device) := do
  let entry ← n.entryId e.node e.index
  let device ← deviceOf g n e.node
  write devices entry device

/-- The numbers of the nodes that seed their entries. Their count is cut to a word, so that with
2^32 nodes or more the last ones are left out. -/
def seedNumbers (n : Numbering) : List UInt32 :=
  (List.range n.numNodes.toUInt32.toNat).map Nat.toUInt32

/-- The devices after the first round, in which nodes write their own entries. -/
def seeded (g : Graph P) (n : Numbering) : Checked GraphError (Array Device) :=
  (seedNumbers n).foldlM (seedNode g n) (Array.replicate n.numEntries Device.unset)

/-- The devices after the second round, in which every edge writes the entry it reads. -/
def overwritten (g : Graph P) (n : Numbering) (devices : Array Device) :
    Checked GraphError (Array Device) :=
  n.nodes.toList.foldlM (fun devices node => node.inputs.foldlM (writeEdge g n) devices) devices

def ofNumbering (g : Graph P) (n : Numbering) : Checked GraphError (Array Device) := do
  overwritten g n (← seeded g n)

def ofGraph (g : Graph P) : Checked GraphError (Array Device) := do
  ofNumbering g (← Numbering.ofGraph g)

end Placement.DeviceVector
