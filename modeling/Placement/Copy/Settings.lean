import Placement.Graph.Node
import Placement.Operator.Registry
import Placement.Pass.Event

namespace Placement

structure CopySettings where
  copyOp : String := deviceCopyName
  /-- The graph attribute that receives the device of every entry. -/
  attrKey : String := "device_index"
  /-- Whether the name of a copy ends in the slot of its consumer, so that two copies for one
  consumer have different names. -/
  slotSuffix : Bool := false

namespace CopySettings

def copyName (s : CopySettings) (producer consumer : String) (slot : Nat) : String :=
  let name := "__copy_" ++ producer ++ "_to_" ++ consumer
  if s.slotSuffix then name ++ "_" ++ slot.repr else name

def plan {P : Client} (s : CopySettings) (producer consumer : Node P) (device : Device)
    (slot : Nat) : CopyPlan where
  name := s.copyName producer.name consumer.name slot
  producer := producer.name
  producerDevice := producer.device
  consumer := consumer.name
  consumerDevice := device

end CopySettings

/-- The attributes of a copy before its operator's parser sees them. -/
def CopyPlan.freshAttrs {P : Client} (plan : CopyPlan) (op : Operator P) : NodeAttrs P where
  name := plan.name
  op := some op
  device := plan.consumerDevice

end Placement
