import Placement.Operator.Attributes
import Placement.Text.Quoted

/-! Parsing of node attributes. A parser may change the attributes and may reject them; what it
changed before a rejection stays changed. -/
namespace Placement

/-- The attributes a parser leaves behind, and whether it accepted them. -/
structure Parsing (P : Client) where
  attrs : NodeAttrs P
  verdict : Except OpError Unit

class CustomParsers (P : Client) where
  parse : P.Parser → NodeAttrs P → Parsing P

instance : CustomParsers .plain := ⟨Empty.elim⟩

def deviceCopyName : String := "device_copy_op"

namespace Parsing

variable {P : Client}

def accept (attrs : NodeAttrs P) : Parsing P := ⟨attrs, .ok ()⟩

def reject (attrs : NodeAttrs P) (error : OpError) : Parsing P := ⟨attrs, .error error⟩

/-- A copy goes to the device its node is placed on. A `dst` text, where there is one, has to be
the number of that device. -/
def deviceCopy (attrs : NodeAttrs P) : Parsing P :=
  let accepted := accept { attrs with payload := some (.copyTo attrs.device) }
  let refused := fun message => reject attrs (.invalidAttr deviceCopyName attrs.name message)
  match attrs.dict["dst"]? with
  | none => accepted
  | some text =>
    match Text.Decimal.readInt32? text with
    | none => refused ("'dst' is not a device id: " ++ Text.Quoted.quote text)
    | some id =>
      if Device.mk id = attrs.device then accepted
      else refused ("'dst' is dev" ++ Text.Decimal.write id.toInt ++ " but the node runs on "
        ++ attrs.device.text)

end Parsing

variable {P : Client} [CustomParsers P]

def AttrParser.parse : AttrParser P → NodeAttrs P → Parsing P
  | deviceCopy, attrs => Parsing.deviceCopy attrs
  | custom parser, attrs => CustomParsers.parse parser attrs

end Placement
