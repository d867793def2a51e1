import Placement.Operator.Registry
import Placement.Pass.Run

namespace Placement

structure Pass (P : Client) where
  name : String
  description : String := ""
  body : Graph P → OpRegistry P → Run P (Graph P)
  /-- Whether the pass changes nodes or edges, so that a numbering has to be made anew. -/
  changesGraph : Bool := false
  needs : List String := []
  provides : List String := []

namespace Pass

variable {P : Client}

instance : Named (Pass P) := ⟨Pass.name⟩

def inspect (pass : Pass P) : String :=
  Text.Inspect.record "PassInfo" [
    ("name", Text.Inspect.string pass.name),
    ("change_graph", Text.Inspect.bool pass.changesGraph),
    ("depend_graph_attrs", Text.Inspect.list (pass.needs.map Text.Inspect.string)),
    ("provide_graph_attrs", Text.Inspect.list (pass.provides.map Text.Inspect.string))]

/-- The first attribute, in the order of declaration, that the pass needs and the graph lacks. -/
def lacking? (pass : Pass P) (g : Graph P) : Option String :=
  pass.needs.find? (fun key => !g.attrs.contains key)

def apply (pass : Pass P) (g : Graph P) (ops : OpRegistry P) : Run P (Graph P) :=
  match pass.lacking? g with
  | some key => .fail (.missingGraphAttr pass.name key)
  | none => do
    let result ← pass.body g ops
    Run.emit [.passFinished pass.name pass.changesGraph]
    return result

end Pass

abbrev PassRegistry (P : Client) := Catalog (Pass P)

namespace PassRegistry

variable {P : Client}

def register (passes : PassRegistry P) (pass : Pass P) : Except PassError (PassRegistry P) :=
  passes.registerWith .alreadyRegistered pass

def lookup (passes : PassRegistry P) (name : String) : Except PassError (Pass P) :=
  passes.lookupWith .unknownPass name

def applyPass (passes : PassRegistry P) (ops : OpRegistry P) (g : Graph P) (name : String) :
    Run P (Graph P) := do
  let pass ← Run.ofChecked (.ofExcept (passes.lookup name))
  pass.apply g ops

/-- Applies the named passes in order, each to the graph that the one before it made. -/
def applyPasses (passes : PassRegistry P) (ops : OpRegistry P) (g : Graph P)
    (names : List String) : Run P (Graph P) :=
  names.foldlM (passes.applyPass ops) g

end PassRegistry
end Placement
