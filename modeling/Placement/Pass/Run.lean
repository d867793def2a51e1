import Placement.Graph.Basic
import Placement.Pass.Event

/-! Runs of passes. A run yields the events that happened, also when it fails, and draws stamps
for the values it allocates from a supply that starts where the run before it stopped. -/
namespace Placement

inductive PassError where
  | graph (error : GraphError)
  | op (error : OpError)
  | attr (error : AttrError)
  | unknownPass (name : String)
  | alreadyRegistered (name : String)
  | missingGraphAttr (pass key : String)
deriving DecidableEq

def PassError.message : PassError → String
  | graph error => "Graph: " ++ error.message
  | op error => "Op: " ++ error.message
  | attr error => "Attr: " ++ error.message
  | unknownPass name => "Pass '" ++ name ++ "' is not registered"
  | alreadyRegistered name => "Pass '" ++ name ++ "' is already registered"
  | missingGraphAttr pass key => "Pass '" ++ pass ++ "' requires graph attribute '" ++ key ++ "'"

structure Outcome (P : Client) (α : Type) where
  trace : List (Event P)
  drawn : Nat
  result : Checked PassError α

/-- A run, given the first stamp that is free. -/
def Run (P : Client) (α : Type) := Nat → Outcome P α

namespace Run

variable {P : Client} {α β : Type}

def pure (a : α) : Run P α := fun _ => ⟨[], 0, .ok a⟩

def bind (first : Run P α) (next : α → Run P β) : Run P β := fun free =>
  let done := first free
  match done.result with
  | .error fault => ⟨done.trace, done.drawn, .error fault⟩
  | .ok a =>
    let rest := next a (free + done.drawn)
    ⟨done.trace ++ rest.trace, done.drawn + rest.drawn, rest.result⟩

instance : Monad (Run P) where
  pure := Run.pure
  bind := Run.bind

theorem bind_ok {first : Run P α} {next : α → Run P β} {free : Nat} {a : α}
    (succeeded : (first free).result = .ok a) :
    (first >>= next) free =
      { trace := (first free).trace ++ (next a (free + (first free).drawn)).trace
        drawn := (first free).drawn + (next a (free + (first free).drawn)).drawn
        result := (next a (free + (first free).drawn)).result } := by
  change Run.bind first next free = _
  simp only [Run.bind, succeeded]

theorem bind_error {first : Run P α} {next : α → Run P β} {free : Nat} {fault : Fault PassError}
    (failed : (first free).result = .error fault) :
    (first >>= next) free =
      { trace := (first free).trace, drawn := (first free).drawn, result := .error fault } := by
  change Run.bind first next free = _
  simp only [Run.bind, failed]

/-- A sequence succeeds when its parts do, one after the other. -/
theorem bind_eq_ok_iff (first : Run P α) (next : α → Run P β) (free : Nat) (b : β) :
    ((first >>= next) free).result = .ok b ↔
      ∃ a, (first free).result = .ok a ∧ (next a (free + (first free).drawn)).result = .ok b := by
  cases succeeded : (first free).result with
  | error fault => simp [bind_error succeeded]
  | ok a => simp [bind_ok succeeded]

theorem pure_bind (a : α) (next : α → Run P β) : Run.bind (Run.pure a) next = next a := by
  funext free
  simp [Run.bind, Run.pure]

theorem bind_pure (run : Run P α) : Run.bind run Run.pure = run := by
  funext free
  cases done : run free with
  | mk trace drawn result => cases result <;> simp [Run.bind, Run.pure, done]

theorem bind_assoc {γ : Type} (run : Run P α) (second : α → Run P β) (third : β → Run P γ) :
    Run.bind (Run.bind run second) third = Run.bind run (fun a => Run.bind (second a) third) := by
  funext free
  cases done : run free with
  | mk trace drawn result =>
    cases result with
    | error fault => simp [Run.bind, done]
    | ok a =>
      cases next : second a (free + drawn) with
      | mk trace' drawn' result' =>
        cases result' with
        | error fault => simp [Run.bind, done, next]
        | ok b => simp [Run.bind, done, next, Nat.add_assoc]

instance : LawfulMonad (Run P) :=
  LawfulMonad.mk' (Run P) bind_pure pure_bind bind_assoc

def ofChecked (result : Checked PassError α) : Run P α := fun _ => ⟨[], 0, result⟩

def fail (error : PassError) : Run P α := ofChecked (.report error)

def emit (events : List (Event P)) : Run P Unit := fun _ => ⟨events, 0, .ok ()⟩

def allocate (g : Graph P) (key : String) (value : AttrValue (AttrType P.Kind)) :
    Run P (Graph P) := fun free =>
  let (attrs, next) := g.attrs.allocate free key value
  ⟨[], next - free, .ok { g with attrs := attrs }⟩

end Run
end Placement
