import Placement.Copy.Splice
import Placement.DeviceVector
import Placement.Pass.Registry

namespace Placement

/-- The changed graph, and the copies in the order in which they were made. -/
structure CopyReport (P : Client) where
  graph : Graph P
  copies : List NodeId

namespace CopySettings

variable {P : Client}

/-- The copy operator, which has to be registered and to fit on an edge. -/
def findCopyOp (settings : CopySettings) (ops : OpRegistry P) : Except OpError (Operator P) := do
  let op ← ops.lookup settings.copyOp
  if op.canCopy then return op
  else throw (.invalidCopyOp op.name op.numInputs op.numOutputs)

variable [CustomParsers P]

def splice (settings : CopySettings) (op : Operator P) (g : Graph P) : Run P (CopyReport P) :=
  match g.splice settings op with
  | .error interrupted => do
    Run.emit interrupted.trace.toList
    Run.ofChecked (.error interrupted.fault)
  | .ok spliced => do
    Run.emit spliced.trace.toList
    return ⟨spliced.graph, spliced.copies.toList⟩

def insertCopies (settings : CopySettings) (g : Graph P) (ops : OpRegistry P) :
    Run P (CopyReport P) := do
  let op ← Run.ofChecked (Checked.within .op (.ofExcept (settings.findCopyOp ops)))
  let spliced ← settings.splice op g
  let devices ← Run.ofChecked (Checked.within .graph (DeviceVector.ofGraph spliced.graph))
  let published ← Run.allocate spliced.graph settings.attrKey ⟨.devices, devices⟩
  Run.emit [.copiesInserted spliced.copies.length]
  return ⟨published, spliced.copies⟩

def body (settings : CopySettings) (g : Graph P) (ops : OpRegistry P) : Run P (Graph P) := do
  let report ← settings.insertCopies g ops
  return report.graph

end CopySettings

variable {P : Client} [CustomParsers P]

def Pass.insertDataCopy : Pass P where
  name := "InsertDataCopy"
  description := "Insert cross device data copy nodes to transfer data between "
    ++ "operators that are executed on different devices."
  body := CopySettings.body {}
  changesGraph := true
  provides := ["device_index"]

def PassRegistry.builtin : PassRegistry P := Catalog.single .insertDataCopy

end Placement
