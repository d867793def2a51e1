import Placement.Attribute.Value
import Placement.Catalog
import Placement.Text.Inspect
import Placement.Text.Decimal

namespace Placement

/-- What a client adds to what is built in: parsers, and types of values. -/
structure Client where
  Parser : Type
  Kind : Type
  [sameKind : DecidableEq Kind]
  [kinds : TypeUniverse Kind]

attribute [instance] Client.sameKind Client.kinds

abbrev Client.plain : Client where
  Parser := Empty
  Kind := Empty

inductive AttrParser (P : Client) where
  | deviceCopy
  | custom (parser : P.Parser)

structure Operator (P : Client) where
  name : String
  description : String := ""
  /-- Left out if any number of inputs will do. -/
  numInputs : Option UInt32 := none
  numOutputs : UInt32 := 1
  parser : Option (AttrParser P) := none

inductive OpError where
  | notRegistered (name : String)
  | alreadyRegistered (name : String)
  | invalidCopyOp (op : String) (numInputs : Option UInt32) (numOutputs : UInt32)
  | invalidAttr (op node message : String)
deriving DecidableEq

def OpError.message : OpError → String
  | notRegistered name => "Operator '" ++ name ++ "' is not registered"
  | alreadyRegistered name => "Operator '" ++ name ++ "' is already registered"
  | invalidCopyOp op numInputs numOutputs =>
    "Operator '" ++ op ++ "' can't copy data: it takes "
      ++ Text.Inspect.option (numInputs.map (fun n => n.toNat.repr)) ++ " input(s) and has "
      ++ numOutputs.toNat.repr ++ " output(s)"
  | invalidAttr op node message =>
    "Node '" ++ node ++ "' has an invalid attribute for '" ++ op ++ "': " ++ message

namespace Operator

variable {P : Client}

instance : Named (Operator P) := ⟨Operator.name⟩

def same (a b : Operator P) : Bool := a.name == b.name

/-- Whether the operator can stand on an edge: one output, and one input or any number. -/
def canCopy (op : Operator P) : Bool :=
  op.numOutputs == 1 && (op.numInputs == none || op.numInputs == some 1)

def inspect (op : Operator P) : String :=
  Text.Inspect.record "Op" [
    ("name", Text.Inspect.string op.name),
    ("num_inputs", Text.Inspect.option (op.numInputs.map (fun n => n.toNat.repr))),
    ("num_outputs", op.numOutputs.toNat.repr),
    ("has_attr_parser", Text.Inspect.bool op.parser.isSome)]

end Operator
end Placement
