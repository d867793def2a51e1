import Placement.Operator.Parsing

namespace Placement

abbrev OpRegistry (P : Client) := Catalog (Operator P)

def Operator.deviceCopy {P : Client} : Operator P where
  name := deviceCopyName
  description := "Copy a tensor to the device the node is placed on."
  numInputs := some 1
  numOutputs := 1
  parser := some .deviceCopy

namespace OpRegistry

variable {P : Client}

def builtin : OpRegistry P := Catalog.single .deviceCopy

def register (ops : OpRegistry P) (op : Operator P) : Except OpError (OpRegistry P) :=
  ops.registerWith .alreadyRegistered op

def lookup (ops : OpRegistry P) (name : String) : Except OpError (Operator P) :=
  ops.lookupWith .notRegistered name

end OpRegistry
end Placement
