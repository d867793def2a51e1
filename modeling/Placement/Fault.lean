/-! Outcomes of operations that look things up by position.
An operation either reports one of the errors it declares or reads a position that does not
exist. The two are kept apart, so that the absence of the second kind is a statement. -/
namespace Placement

inductive Fault (ε : Type) where
  | reported (error : ε)
  /-- A read of a position that does not exist, or a machine word that overflowed. -/
  | outOfRange
deriving DecidableEq

/-- A result, an error of type `ε`, or a read out of range. -/
abbrev Checked (ε α : Type) := Except (Fault ε) α

namespace Fault

def map {ε δ : Type} (f : ε → δ) : Fault ε → Fault δ
  | reported error => reported (f error)
  | outOfRange => outOfRange

@[simp] theorem map_reported {ε δ : Type} (f : ε → δ) (error : ε) :
    (reported error).map f = reported (f error) := rfl

@[simp] theorem map_outOfRange {ε δ : Type} (f : ε → δ) :
    (outOfRange : Fault ε).map f = outOfRange := rfl

end Fault

namespace Checked

def report {ε α : Type} (error : ε) : Checked ε α := .error (.reported error)

def present {ε α : Type} : Option α → Checked ε α
  | some a => .ok a
  | none => .error .outOfRange

/-- Wraps the declared errors of an inner operation into those of an outer one. -/
def within {ε δ α : Type} (wrap : ε → δ) (result : Checked ε α) : Checked δ α :=
  result.mapError (Fault.map wrap)

def ofExcept {ε α : Type} (result : Except ε α) : Checked ε α :=
  result.mapError .reported

@[simp] theorem within_ok {ε δ α : Type} (wrap : ε → δ) (a : α) :
    within wrap (.ok a) = .ok a := rfl

@[simp] theorem within_error {ε δ α : Type} (wrap : ε → δ) (fault : Fault ε) :
    within (α := α) wrap (.error fault) = .error (fault.map wrap) := rfl

@[simp] theorem ofExcept_ok {ε α : Type} (a : α) : ofExcept (ε := ε) (.ok a) = .ok a := rfl

@[simp] theorem ofExcept_error {ε α : Type} (error : ε) :
    ofExcept (α := α) (.error error) = .error (.reported error) := rfl

@[simp] theorem within_eq_ok_iff {ε δ α : Type} (wrap : ε → δ) (result : Checked ε α) (a : α) :
    within wrap result = .ok a ↔ result = .ok a := by
  cases result <;> simp

@[simp] theorem ofExcept_eq_ok_iff {ε α : Type} (result : Except ε α) (a : α) :
    ofExcept result = .ok a ↔ result = .ok a := by
  cases result <;> simp

@[simp] theorem present_eq_ok_iff {ε α : Type} (found : Option α) (a : α) :
    present (ε := ε) found = .ok a ↔ found = some a := by
  cases found <;> simp [present]

end Checked

end Placement
