import Placement.Operator.Basic

namespace Placement

inductive Payload (P : Client) where
  | copyTo (destination : Device)
  | value (value : AttrValue (AttrType P.Kind))

structure NodeAttrs (P : Client) where
  name : String
  /-- Left out for variables, the inputs of the graph. -/
  op : Option (Operator P) := none
  device : Device := .unset
  dict : Std.ExtTreeMap String String := ∅
  payload : Option (Payload P) := none

namespace NodeAttrs

variable {P : Client}

def isVariable (attrs : NodeAttrs P) : Bool := attrs.op.isNone

def numOutputs (attrs : NodeAttrs P) : UInt32 :=
  match attrs.op with
  | some op => op.numOutputs
  | none => 1

def inspect (attrs : NodeAttrs P) : String :=
  Text.Inspect.record "NodeAttrs" [
    ("op", Text.Inspect.option (attrs.op.map (fun op => Text.Inspect.string op.name))),
    ("name", Text.Inspect.string attrs.name),
    ("device", attrs.device.inspect),
    ("dict", Text.Inspect.map (attrs.dict.toList.map
      (fun (key, text) => (Text.Inspect.string key, Text.Inspect.string text)))),
    ("parsed", Text.Inspect.bool attrs.payload.isSome)]

end NodeAttrs
end Placement
