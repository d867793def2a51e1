namespace Placement

def addWords? (a b : UInt32) : Option UInt32 :=
  if a.toNat + b.toNat < UInt32.size then some (a + b) else none

theorem addWords?_eq_none_iff (a b : UInt32) :
    addWords? a b = none ↔ UInt32.size ≤ a.toNat + b.toNat := by
  simp [addWords?]

theorem toNat_of_addWords? {a b sum : UInt32} (added : addWords? a b = some sum) :
    sum.toNat = a.toNat + b.toNat := by
  unfold addWords? at added
  split at added
  next small =>
    cases added
    rw [UInt32.toNat_add]
    exact Nat.mod_eq_of_lt small
  next => cases added

end Placement
