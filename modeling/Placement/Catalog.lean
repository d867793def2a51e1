import Std.Data.ExtTreeMap

/-! Catalogs of named things. The first entry of a name stays: a second one is refused.
Every entry is filed under its own name, and names are listed in code-point order. -/
namespace Placement

class Named (α : Type) where
  nameOf : α → String

structure Catalog (α : Type) [Named α] where
  entries : Std.ExtTreeMap String α
  filed : ∀ (name : String) (a : α), entries[name]? = some a → Named.nameOf a = name

namespace Catalog

variable {α ε : Type} [Named α]

def empty : Catalog α where
  entries := ∅
  filed := by simp

def find? (c : Catalog α) (name : String) : Option α := c.entries[name]?

def contains (c : Catalog α) (name : String) : Bool := c.entries.contains name

def names (c : Catalog α) : List String := c.entries.keys

/-- Files a new entry, unless its name is taken. -/
def add? (c : Catalog α) (a : α) : Option (Catalog α) :=
  if c.contains (Named.nameOf a) then none
  else some {
    entries := c.entries.insert (Named.nameOf a) a
    filed := by
      intro name b found
      rw [Std.ExtTreeMap.getElem?_insert] at found
      split at found
      next same =>
        cases Option.some.inj found
        exact Std.LawfulEqCmp.eq_of_compare same
      next => exact c.filed name b found }

/-- Files a new entry, or gives the error `taken` for its name. -/
def registerWith (taken : String → ε) (c : Catalog α) (a : α) : Except ε (Catalog α) :=
  match c.add? a with
  | some extended => .ok extended
  | none => .error (taken (Named.nameOf a))

/-- The entry of a name, or the error `unknown` for it. -/
def lookupWith (unknown : String → ε) (c : Catalog α) (name : String) : Except ε α :=
  match c.find? name with
  | some a => .ok a
  | none => .error (unknown name)

def single (a : α) : Catalog α := (empty.add? a).getD empty

theorem contains_eq_isSome_find? (c : Catalog α) (name : String) :
    c.contains name = (c.find? name).isSome := by
  simp [contains, find?]

theorem add?_eq_none_iff (c : Catalog α) (a : α) :
    c.add? a = none ↔ (c.find? (Named.nameOf a)).isSome := by
  unfold add?
  split
  next taken => simp [← contains_eq_isSome_find?, taken]
  next free => simp [← contains_eq_isSome_find?, free]

/-- Adding an entry answers to its own name and leaves all others as they are. -/
theorem find?_of_add? {c extended : Catalog α} {a : α} (added : c.add? a = some extended)
    (name : String) :
    extended.find? name = if Named.nameOf a = name then some a else c.find? name := by
  unfold add? at added
  split at added
  next => cases added
  next =>
    cases added
    simp [find?, Std.ExtTreeMap.getElem?_insert]

theorem free_of_add? {c extended : Catalog α} {a : α} (added : c.add? a = some extended) :
    c.find? (Named.nameOf a) = none := by
  cases found : c.find? (Named.nameOf a) with
  | none => rfl
  | some b =>
    have refused : c.add? a = none := (add?_eq_none_iff c a).mpr (by simp [found])
    cases refused.symm.trans added

theorem nameOf_of_find? {c : Catalog α} {name : String} {a : α} (found : c.find? name = some a) :
    Named.nameOf a = name := c.filed name a found

theorem mem_names_iff (c : Catalog α) (name : String) :
    name ∈ c.names ↔ ∃ a, c.find? name = some a := by
  simp [names, find?, ← Option.isSome_iff_exists]

theorem names_increasing (c : Catalog α) : c.names.Pairwise (· < ·) := by
  have ordered := c.entries.ordered_keys
  exact ordered.imp compareOfLessAndEq_eq_lt.mp

section

variable (taken unknown : String → ε)

theorem registerWith_eq_error_iff (c : Catalog α) (a : α) (error : ε) :
    c.registerWith taken a = .error error ↔
      error = taken (Named.nameOf a) ∧ ∃ b, c.find? (Named.nameOf a) = some b := by
  rw [← Option.isSome_iff_exists, ← add?_eq_none_iff]
  unfold registerWith
  cases c.add? a with
  | none => simp [eq_comm]
  | some extended => simp

theorem registerWith_eq_ok_iff (c extended : Catalog α) (a : α) :
    c.registerWith taken a = .ok extended ↔ c.add? a = some extended := by
  unfold registerWith
  cases c.add? a <;> simp

theorem exists_registerWith_ok {c : Catalog α} {a : α} (free : c.find? (Named.nameOf a) = none) :
    ∃ extended, c.registerWith taken a = .ok extended := by
  cases outcome : c.registerWith taken a with
  | ok extended => exact ⟨extended, rfl⟩
  | error error =>
    obtain ⟨_, b, found⟩ := (registerWith_eq_error_iff taken c a error).mp outcome
    cases free.symm.trans found

theorem lookupWith_eq_ok_iff (c : Catalog α) (name : String) (a : α) :
    c.lookupWith unknown name = .ok a ↔ c.find? name = some a := by
  unfold lookupWith
  cases c.find? name <;> simp

theorem lookupWith_eq_error_iff (c : Catalog α) (name : String) (error : ε) :
    c.lookupWith unknown name = .error error ↔ error = unknown name ∧ c.find? name = none := by
  unfold lookupWith
  cases c.find? name <;> simp [eq_comm]

end

end Catalog
end Placement
