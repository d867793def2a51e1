import Std.Data.ExtTreeMap
import Placement.Attribute.Value

/-! Attribute stores: values under string keys. Values are shared between stores, and a stamp
tells one allocation of a value from another of equal content. A copy of a store is the store
itself, so a change to one never shows in another. -/
namespace Placement

/-- A value together with the number of its allocation. -/
structure Shared (T : Type) [TypeUniverse T] where
  stamp : Nat
  value : AttrValue T

inductive AttrError where
  | missing (key : String)
  | typeMismatch (key expected : String)
deriving DecidableEq

def AttrError.message : AttrError → String
  | missing key => "Attribute '" ++ key ++ "' is not set"
  | typeMismatch key expected => "Attribute '" ++ key ++ "' is not of type " ++ expected

structure Store (T : Type) [TypeUniverse T] where
  entries : Std.ExtTreeMap String (Shared T)

namespace Store

variable {T : Type} [TypeUniverse T]

def empty : Store T := ⟨∅⟩

instance : Inhabited (Store T) := ⟨empty⟩

def find? (s : Store T) (key : String) : Option (Shared T) := s.entries[key]?

def insert (s : Store T) (key : String) (shared : Shared T) : Store T :=
  ⟨s.entries.insert key shared⟩

/-- Stores a newly allocated value. The stamp `free` must not be in use; the one after it is the
next that is free. -/
def allocate (s : Store T) (free : Nat) (key : String) (value : AttrValue T) : Store T × Nat :=
  (s.insert key ⟨free, value⟩, free + 1)

def remove (s : Store T) (key : String) : Store T := ⟨s.entries.erase key⟩

/-- Puts a shared value under a key, and gives back the one that was there. -/
def replace (s : Store T) (key : String) (shared : Shared T) : Option (Shared T) × Store T :=
  (s.find? key, s.insert key shared)

def take (s : Store T) (key : String) : Option (Shared T) × Store T := (s.find? key, s.remove key)

def contains (s : Store T) (key : String) : Bool := s.entries.contains key

def size (s : Store T) : Nat := s.entries.size

def isEmpty (s : Store T) : Bool := s.entries.isEmpty

def keys (s : Store T) : List String := s.entries.keys

def toList (s : Store T) : List (String × Shared T) := s.entries.toList

def get [DecidableEq T] (s : Store T) (type : T) (key : String) :
    Except AttrError (TypeUniverse.Carrier type) :=
  match s.find? key with
  | none => .error (.missing key)
  | some shared =>
    match shared.value.at? type with
    | none => .error (.typeMismatch key (TypeUniverse.label type))
    | some content => .ok content

def inspect (s : Store T) : String := Text.Inspect.set (s.keys.map Text.Inspect.string)

theorem find?_insert (s : Store T) (key other : String) (shared : Shared T) :
    (s.insert key shared).find? other = if key = other then some shared else s.find? other := by
  simp [find?, insert, Std.ExtTreeMap.getElem?_insert]

theorem find?_remove (s : Store T) (key other : String) :
    (s.remove key).find? other = if key = other then none else s.find? other := by
  simp [find?, remove, Std.ExtTreeMap.getElem?_erase]

theorem contains_eq_isSome_find? (s : Store T) (key : String) :
    s.contains key = (s.find? key).isSome := by
  simp [contains, find?]

@[simp] theorem find?_empty (key : String) : (empty : Store T).find? key = none := by
  simp [find?, empty]

theorem allocate_eq_replace (s : Store T) (free : Nat) (key : String) (value : AttrValue T) :
    s.allocate free key value = ((s.replace key ⟨free, value⟩).2, free + 1) := rfl

theorem mem_keys_iff (s : Store T) (key : String) :
    key ∈ s.keys ↔ ∃ shared, s.find? key = some shared := by
  simp [keys, find?, ← Option.isSome_iff_exists]

theorem keys_increasing (s : Store T) : s.keys.Pairwise (· < ·) := by
  have ordered := s.entries.ordered_keys
  exact ordered.imp compareOfLessAndEq_eq_lt.mp

theorem length_keys (s : Store T) : s.keys.length = s.size := Std.ExtTreeMap.length_keys

section

variable [DecidableEq T] (s : Store T) (type : T) (key : String)

theorem get_eq_ok_iff (content : TypeUniverse.Carrier type) :
    s.get type key = .ok content ↔ ∃ stamp, s.find? key = some ⟨stamp, type, content⟩ := by
  unfold get
  cases s.find? key with
  | none => simp
  | some shared =>
    obtain ⟨stamp, value⟩ := shared
    have same : value.at? type = some content ↔ value = ⟨type, content⟩ :=
      value.at?_eq_some_iff type content
    cases read : value.at? type <;> simp [read, ← same]

theorem get_eq_missing_iff : s.get type key = .error (.missing key) ↔ s.find? key = none := by
  unfold get
  cases s.find? key with
  | none => simp
  | some shared => cases read : shared.value.at? type <;> simp [read]

theorem get_eq_typeMismatch_iff :
    s.get type key = .error (.typeMismatch key (TypeUniverse.label type)) ↔
      ∃ shared, s.find? key = some shared ∧ shared.value.type ≠ type := by
  unfold get
  cases s.find? key with
  | none => simp
  | some shared =>
    have other : shared.value.at? type = none ↔ shared.value.type ≠ type :=
      shared.value.at?_eq_none_iff type
    cases read : shared.value.at? type <;> simp [read, ← other]

end

end Store
end Placement
