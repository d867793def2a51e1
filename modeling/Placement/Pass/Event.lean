import Placement.Operator.Parsing

namespace Placement

/-- A copy that is about to be made, between a producer and a consumer on different devices. -/
structure CopyPlan where
  name : String
  producer : String
  producerDevice : Device
  consumer : String
  consumerDevice : Device
deriving DecidableEq

inductive Event (P : Client) where
  | copyPlanned (plan : CopyPlan)
  /-- A parser was called on attributes, here as they were before the call. -/
  | parserCalled (parser : AttrParser P) (attrs : NodeAttrs P)
  | copiesInserted (count : Nat)
  | passFinished (name : String) (changesGraph : Bool)

inductive LogLevel where
  | debug
  | info
deriving DecidableEq

structure LogLine where
  level : LogLevel
  text : String
deriving DecidableEq

def CopyPlan.text (plan : CopyPlan) : String :=
  plan.name ++ ": " ++ plan.producer ++ " (" ++ plan.producerDevice.text ++ ") -> "
    ++ plan.consumer ++ " (" ++ plan.consumerDevice.text ++ ")"

/-- Calls of parsers are not logged. -/
def Event.logLine? {P : Client} : Event P → Option LogLine
  | copyPlanned plan => some ⟨.debug, plan.text⟩
  | parserCalled _ _ => none
  | copiesInserted count => some ⟨.info, "insert_copy(" ++ count.repr ++ ")"⟩
  | passFinished name changesGraph =>
    some ⟨.debug, name ++ " (change_graph=" ++ Text.Inspect.bool changesGraph ++ ")"⟩

structure ParserRun (P : Client) where
  events : List (Event P)
  parsing : Parsing P

namespace Operator

variable {P : Client} [CustomParsers P]

/-- An operator without a parser accepts all attributes as they are. -/
def runParser (op : Operator P) (attrs : NodeAttrs P) : ParserRun P :=
  match op.parser with
  | some parser => ⟨[.parserCalled parser attrs], parser.parse attrs⟩
  | none => ⟨[], .accept attrs⟩

def parseAttrs (op : Operator P) (attrs : NodeAttrs P) : Parsing P := (op.runParser attrs).parsing

end Operator

end Placement
