import Placement.Text.Decimal
import Placement.Text.Inspect

namespace Placement

structure Device where
  id : Int32
deriving DecidableEq

namespace Device

/-- No device assigned. Two unset devices are equal. -/
def unset : Device := ⟨-1⟩

instance : Inhabited Device := ⟨unset⟩

def isSet (d : Device) : Bool := d != unset

def text (d : Device) : String :=
  if d.isSet then "dev" ++ Text.Decimal.write d.id.toInt else "unset"

def inspect (d : Device) : String := Text.Inspect.applied "Device" (Text.Decimal.write d.id.toInt)

instance : LE Device := ⟨fun a b => a.id ≤ b.id⟩

instance (a b : Device) : Decidable (a ≤ b) := inferInstanceAs (Decidable (a.id ≤ b.id))

def sort (devices : List Device) : List Device := devices.mergeSort (fun a b => decide (a ≤ b))

end Device
end Placement
