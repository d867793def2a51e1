import Placement.Copy.Insertion

/-! Registries over any number of calls. The first entry of a name stays: a later call for that name
is refused and changes nothing. A name therefore leads to what was first registered under it. -/
namespace Placement

variable {α ε : Type} [Named α]

/-- Of the entries with this name, `a` stands first in the list. -/
def FirstNamed (name : String) (entries : List α) (a : α) : Prop :=
  ∃ front back, entries = front ++ a :: back ∧ Named.nameOf a = name ∧
    ∀ b ∈ front, Named.nameOf b ≠ name

theorem firstNamed_iff_find? {name : String} {entries : List α} {a : α} :
    FirstNamed name entries a ↔ entries.find? (fun b => Named.nameOf b = name) = some a := by
  rw [List.find?_eq_some_iff_append]
  constructor
  · rintro ⟨front, back, split, named, others⟩
    exact ⟨by simpa using named, front, back, split, by simpa using others⟩
  · rintro ⟨named, front, back, split, others⟩
    exact ⟨front, back, split, by simpa using named, by simpa using others⟩

namespace Catalog

section

variable (register : Catalog α → α → Except ε (Catalog α)) (start : Catalog α)

def afterCall (c : Catalog α) (a : α) : Catalog α :=
  match register c a with
  | .ok extended => extended
  | .error _ => c

def afterCalls (calls : List α) : Catalog α := calls.foldl (afterCall register) start

/-- The entry was held at the start, or a call for it succeeded. -/
def Registered (held calls : List α) (a : α) : Prop :=
  a ∈ held ∨ ∃ front back extended, calls = front ++ a :: back ∧
    register (start.afterCalls register front) a = .ok extended

end

/-- How a registry answers after any calls, if it held certain entries at the start. -/
structure KeepsFirst (register : Catalog α → α → Except ε (Catalog α))
    (lookup : Catalog α → String → Except ε α) (taken unknown : String → ε) (start : Catalog α)
    (held : List α) : Prop where
  refused : ∀ calls a error, register (start.afterCalls register calls) a = .error error ↔
    error = taken (Named.nameOf a) ∧
      ∃ b, Registered register start held calls b ∧ Named.nameOf b = Named.nameOf a
  unchanged : ∀ calls a error, register (start.afterCalls register calls) a = .error error →
    start.afterCalls register (calls ++ [a]) = start.afterCalls register calls
  found : ∀ calls name a, lookup (start.afterCalls register calls) name = .ok a ↔
    FirstNamed name (held ++ calls) a
  registered : ∀ calls name a, lookup (start.afterCalls register calls) name = .ok a ↔
    Registered register start held calls a ∧ Named.nameOf a = name
  missing : ∀ calls name error, lookup (start.afterCalls register calls) name = .error error ↔
    error = unknown name ∧ ¬ ∃ b, Registered register start held calls b ∧ Named.nameOf b = name
  contained : ∀ calls name, (start.afterCalls register calls).contains name = true ↔
    ∃ a, lookup (start.afterCalls register calls) name = .ok a
  increasing : ∀ calls, (start.afterCalls register calls).names.Pairwise (· < ·)
  listed : ∀ calls name, name ∈ (start.afterCalls register calls).names ↔
    ∃ b, Registered register start held calls b ∧ Named.nameOf b = name

section

variable (taken unknown : String → ε)

/-- A call adds its entry under a name that was free, and does nothing to a name that was not. -/
theorem find?_afterCall (c : Catalog α) (a : α) (name : String) :
    (afterCall (registerWith taken) c a).find? name =
      (c.find? name).or (if Named.nameOf a = name then some a else none) := by
  unfold afterCall registerWith
  cases added : c.add? a with
  | none =>
    obtain ⟨b, found⟩ := Option.isSome_iff_exists.mp ((add?_eq_none_iff c a).mp added)
    by_cases named : Named.nameOf a = name
    · subst named
      simp [found]
    · simp [named]
  | some extended =>
    have free := free_of_add? added
    simp only [find?_of_add? added]
    by_cases named : Named.nameOf a = name
    · subst named
      simp [free]
    · simp [named]

theorem find?_afterCalls (start : Catalog α) (calls : List α) (name : String) :
    (start.afterCalls (registerWith taken) calls).find? name =
      (start.find? name).or (calls.find? (fun a => Named.nameOf a = name)) := by
  unfold afterCalls
  induction calls generalizing start with
  | nil => simp
  | cons a calls ih =>
    rw [List.foldl_cons, ih, find?_afterCall, Option.or_assoc]
    by_cases named : Named.nameOf a = name <;> simp [named]

section

variable {start : Catalog α} {held : List α}
  (starts : ∀ name a, start.find? name = some a ↔ a ∈ held ∧ Named.nameOf a = name)

include starts

theorem find?_start (name : String) :
    start.find? name = held.find? (fun a => Named.nameOf a = name) := by
  cases found : start.find? name with
  | none =>
    symm
    rw [List.find?_eq_none]
    intro a member
    have absent : ¬ start.find? name = some a := by simp [found]
    rw [starts] at absent
    simpa [member] using absent
  | some a =>
    obtain ⟨member, named⟩ := (starts name a).mp found
    obtain ⟨b, first⟩ : ∃ b, held.find? (fun a => Named.nameOf a = name) = some b := by
      rw [← Option.isSome_iff_exists, List.find?_isSome]
      exact ⟨a, member, by simpa using named⟩
    have named' : Named.nameOf b = name := by simpa using List.find?_some first
    have again := (starts name b).mpr ⟨List.mem_of_find?_eq_some first, named'⟩
    rw [first, ← again, found]

theorem find?_eq_some_iff_registered (calls : List α) (name : String) (a : α) :
    (start.afterCalls (registerWith taken) calls).find? name = some a ↔
      Registered (registerWith taken) start held calls a ∧ Named.nameOf a = name := by
  rw [find?_afterCalls, Option.or_eq_some_iff]
  constructor
  · rintro (atStart | ⟨free, later⟩)
    · obtain ⟨member, named⟩ := (starts name a).mp atStart
      exact ⟨.inl member, named⟩
    · obtain ⟨front, back, rfl, rfl, others⟩ := firstNamed_iff_find?.mpr later
      have unused :
          (start.afterCalls (registerWith taken) front).find? (Named.nameOf a) = none := by
        rw [find?_afterCalls, free, Option.none_or, List.find?_eq_none]
        simpa using others
      obtain ⟨extended, succeeded⟩ := exists_registerWith_ok taken unused
      exact ⟨.inr ⟨front, back, extended, rfl, succeeded⟩, rfl⟩
  · rintro ⟨member | ⟨front, back, extended, rfl, succeeded⟩, rfl⟩
    · exact .inl ((starts _ a).mpr ⟨member, rfl⟩)
    · have unused := free_of_add? ((registerWith_eq_ok_iff taken _ _ a).mp succeeded)
      rw [find?_afterCalls, Option.or_eq_none_iff] at unused
      exact .inr ⟨unused.1, by simp [List.find?_append, unused.2]⟩

theorem keepsFirst :
    KeepsFirst (registerWith taken) (lookupWith unknown) taken unknown start held := by
  have found := find?_eq_some_iff_registered taken starts
  have present : ∀ calls name,
      (∃ b, (start.afterCalls (registerWith taken) calls).find? name = some b) ↔
        ∃ b, Registered (registerWith taken) start held calls b ∧ Named.nameOf b = name :=
    fun calls name => exists_congr (found calls name)
  constructor
  · intro calls a error
    rw [registerWith_eq_error_iff, present]
  · intro calls a error failed
    simp only [afterCalls, List.foldl_append, List.foldl_cons, List.foldl_nil]
    simp only [afterCalls] at failed
    simp only [afterCall, failed]
  · intro calls name a
    rw [lookupWith_eq_ok_iff, find?_afterCalls, find?_start starts, firstNamed_iff_find?,
      List.find?_append]
  · intro calls name a
    rw [lookupWith_eq_ok_iff, found]
  · intro calls name error
    rw [lookupWith_eq_error_iff, ← present, ← Option.isSome_iff_exists,
      Option.not_isSome_iff_eq_none]
  · intro calls name
    rw [contains_eq_isSome_find?, Option.isSome_iff_exists]
    simp only [lookupWith_eq_ok_iff]
  · intro calls
    exact names_increasing _
  · intro calls name
    rw [mem_names_iff, present]

end
end

theorem find?_empty_eq_some_iff (name : String) (a : α) :
    (empty : Catalog α).find? name = some a ↔ a ∈ [] ∧ Named.nameOf a = name := by
  simp [find?, empty]

theorem find?_single_eq_some_iff (b : α) (name : String) (a : α) :
    (single b).find? name = some a ↔ a ∈ [b] ∧ Named.nameOf a = name := by
  have free : (empty : Catalog α).add? b ≠ none := by
    simp [add?_eq_none_iff, find?, empty]
  obtain ⟨filled, added⟩ := Option.ne_none_iff_exists'.mp free
  rw [single, added, Option.getD_some, find?_of_add? added]
  by_cases named : Named.nameOf b = name
  · subst named
    simp only [if_pos, Option.some.injEq, List.mem_singleton]
    exact ⟨fun same => ⟨same.symm, same ▸ rfl⟩, fun same => same.1.symm⟩
  · simp only [if_neg named, List.mem_singleton, find?, empty]
    constructor
    · intro impossible
      simp at impossible
    · rintro ⟨rfl, same⟩
      exact absurd same named

end Catalog

variable {P : Client}

/-- Registries of operators and of passes keep what was first registered under a name, whether they
start empty or with what is built in. -/
theorem registries_keepFirst [CustomParsers P] :
    (Catalog.KeepsFirst (OpRegistry.register (P := P)) OpRegistry.lookup .alreadyRegistered
        .notRegistered .empty [] ∧
      Catalog.KeepsFirst (OpRegistry.register (P := P)) OpRegistry.lookup .alreadyRegistered
        .notRegistered OpRegistry.builtin [.deviceCopy]) ∧
    Catalog.KeepsFirst (PassRegistry.register (P := P)) PassRegistry.lookup .alreadyRegistered
        .unknownPass .empty [] ∧
      Catalog.KeepsFirst (PassRegistry.register (P := P)) PassRegistry.lookup .alreadyRegistered
        .unknownPass PassRegistry.builtin [.insertDataCopy] := by
  refine ⟨⟨?_, ?_⟩, ?_, ?_⟩
  · exact Catalog.keepsFirst _ _ Catalog.find?_empty_eq_some_iff
  · exact Catalog.keepsFirst _ _ (Catalog.find?_single_eq_some_iff Operator.deviceCopy)
  · exact Catalog.keepsFirst _ _ Catalog.find?_empty_eq_some_iff
  · exact Catalog.keepsFirst _ _ (Catalog.find?_single_eq_some_iff Pass.insertDataCopy)

def splitInto (numOutputs : UInt32) : Operator .plain := { name := "split", numOutputs }

theorem registries_keepFirst_split :
    let ops := OpRegistry.builtin.afterCalls OpRegistry.register [splitInto 2, splitInto 3]
    OpRegistry.lookup ops "split" = .ok (splitInto 2) ∧
      OpRegistry.register ops (splitInto 4) = .error (.alreadyRegistered "split") ∧
      OpRegistry.lookup ops "merge" = .error (.notRegistered "merge") := by
  have keeps := (registries_keepFirst (P := .plain)).1.2
  have found := (keeps.found [splitInto 2, splitInto 3] "split" (splitInto 2)).mpr
    ⟨[.deviceCopy], [splitInto 3], rfl, rfl, by decide⟩
  have registered := (keeps.registered _ _ _).mp found
  refine ⟨found, (keeps.refused _ _ _).mpr ⟨rfl, _, registered⟩, ?_⟩
  refine (keeps.missing _ _ _).mpr ⟨rfl, ?_⟩
  rintro ⟨op, known⟩
  have others : ∀ b ∈ [Operator.deviceCopy] ++ [splitInto 2, splitInto 3],
      Named.nameOf b ≠ "merge" := by decide
  obtain ⟨front, back, split, named, _⟩ :=
    (keeps.found _ _ _).mp ((keeps.registered _ _ _).mpr known)
  exact others op (by simp [split]) named

end Placement
