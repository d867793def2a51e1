import Placement.Device

/-! Attribute values. The types a value can have form a universe; a value carries its type, and
is read back only at that type. The universe may be any; that of graphs is open to the types of a
client. -/
namespace Placement

/-- A universe of types: each member of `T` stands for a type of values, and messages call it by
its label. -/
class TypeUniverse (T : Type) where
  Carrier : T → Type
  label : T → String

instance : TypeUniverse Empty := ⟨Empty.elim, Empty.elim⟩

/-- The types of the attributes of graphs. Those named by `K` are the client's. -/
inductive AttrType (K : Type) where
  | bool
  | int32
  | word32
  | int64
  | word64
  | string
  | unit
  | int32s
  | devices
  | custom (kind : K)
deriving DecidableEq

namespace AttrType

variable {K : Type} [TypeUniverse K]

abbrev Carrier : AttrType K → Type
  | bool => Bool
  | int32 => Int32
  | word32 => UInt32
  | int64 => Int64
  | word64 => UInt64
  | string => String
  | unit => Unit
  | int32s => Array Int32
  | devices => Array Device
  | custom kind => TypeUniverse.Carrier kind

def label : AttrType K → String
  | bool => "bool"
  | int32 => "i32"
  | word32 => "u32"
  | int64 => "i64"
  | word64 => "u64"
  | string => "alloc::string::String"
  | unit => "()"
  | int32s => "alloc::vec::Vec<i32>"
  | devices => "alloc::vec::Vec<nnplace_core::device::Device>"
  | custom kind => TypeUniverse.label kind

instance : TypeUniverse (AttrType K) := ⟨Carrier, label⟩

end AttrType

structure AttrValue (T : Type) [TypeUniverse T] where
  type : T
  value : TypeUniverse.Carrier type

namespace AttrValue

variable {T : Type} [TypeUniverse T] [DecidableEq T]

def at? (v : AttrValue T) (type : T) : Option (TypeUniverse.Carrier type) :=
  if same : v.type = type then some (same ▸ v.value) else none

@[simp] theorem at?_self (v : AttrValue T) : v.at? v.type = some v.value := by simp [at?]

theorem at?_eq_some_iff (v : AttrValue T) (type : T) (a : TypeUniverse.Carrier type) :
    v.at? type = some a ↔ v = ⟨type, a⟩ := by
  obtain ⟨own, value⟩ := v
  by_cases same : own = type
  · subst same
    simp [at?]
  · simp [at?, same]

theorem at?_eq_none_iff (v : AttrValue T) (type : T) : v.at? type = none ↔ v.type ≠ type := by
  simp [at?]

end AttrValue
end Placement
