import Mathlib.Data.Set.Card
import Placement.Attribute.Store

/-! Histories of attribute stores. Stores are edited, one is made a copy of another, and values are
shared between them. What a store holds under a key is what the latest edit of the key in its own
history has put there; the history of a copy goes on from that of its origin.

Steps and edits are listed with the latest first, so that what is behind an element is its past. -/
namespace Placement

variable {M T : Type} [TypeUniverse T]

inductive Edit (T : Type) [TypeUniverse T] where
  | put (key : String) (shared : Shared T)
  | drop (key : String)

def Edit.key : Edit T → String
  | put key _ => key
  | drop key => key

def Store.edit (s : Store T) : Edit T → Option (Shared T) × Store T
  | .put key shared => s.replace key shared
  | .drop key => s.take key

/-- The latest edit of the key has put this value there. -/
def Live (edits : List (Edit T)) (key : String) (shared : Shared T) : Prop :=
  ∃ later earlier, edits = later ++ .put key shared :: earlier ∧ ∀ e ∈ later, e.key ≠ key

theorem not_live_nil (key : String) (shared : Shared T) : ¬ Live [] key shared := by
  rintro ⟨later, earlier, split, _⟩
  simp at split

theorem live_cons_iff (e : Edit T) (edits : List (Edit T)) (key : String) (shared : Shared T) :
    Live (e :: edits) key shared ↔ e = .put key shared ∨ e.key ≠ key ∧ Live edits key shared := by
  constructor
  · rintro ⟨later, earlier, split, others⟩
    cases later with
    | nil => exact .inl (List.cons.inj split).1
    | cons first later =>
      obtain ⟨rfl, rfl⟩ := List.cons.inj split
      rw [List.forall_mem_cons] at others
      exact .inr ⟨others.1, later, earlier, rfl, others.2⟩
  · rintro (rfl | ⟨other, later, earlier, rfl, others⟩)
    · exact ⟨[], edits, rfl, by simp⟩
    · exact ⟨e :: later, earlier, rfl, List.forall_mem_cons.mpr ⟨other, others⟩⟩

namespace Store

theorem find?_edit (s : Store T) (e : Edit T) (key : String) (shared : Shared T) :
    (s.edit e).2.find? key = some shared ↔
      e = .put key shared ∨ e.key ≠ key ∧ s.find? key = some shared := by
  cases e with
  | put own stored =>
    simp only [edit, replace, find?_insert, Edit.key, Edit.put.injEq]
    by_cases same : own = key <;> simp [same]
  | drop own =>
    simp only [edit, take, find?_remove, Edit.key]
    by_cases same : own = key <;> simp [same]

theorem size_eq_ncard (s : Store T) :
    s.size = Set.ncard {key | ∃ shared, s.find? key = some shared} := by
  have members : {key | ∃ shared, s.find? key = some shared} = (s.keys.toFinset : Set String) := by
    ext key
    simp [mem_keys_iff]
  have distinct : s.keys.Nodup := Std.ExtTreeMap.nodup_keys
  rw [members, Set.ncard_coe_finset, List.toFinset_card_of_nodup distinct, length_keys]

end Store

/-- What a client can do with stores that it calls by names from `M`. -/
inductive StoreStep (M T : Type) [TypeUniverse T] where
  /-- Makes a shared value without storing it. -/
  | allocate (value : AttrValue T)
  /-- Makes a shared value and stores it. -/
  | insert (name : M) (key : String) (value : AttrValue T)
  /-- Stores a shared value that was made before. -/
  | insertShared (name : M) (key : String) (shared : Shared T)
  | remove (name : M) (key : String)
  | clone (origin copy : M)

namespace StoreStep

def place? : StoreStep M T → Option (M × String)
  | insert name key _ => some (name, key)
  | insertShared name key _ => some (name, key)
  | remove name key => some (name, key)
  | allocate _ => none
  | clone _ _ => none

def target? : StoreStep M T → Option M
  | insert name _ _ => some name
  | insertShared name _ _ => some name
  | remove name _ => some name
  | allocate _ => none
  | clone _ copy => some copy

end StoreStep

/-- The values that were allocated. The stamp of an allocation is its position. -/
def allocated : List (StoreStep M T) → List (AttrValue T)
  | [] => []
  | .allocate value :: past => allocated past ++ [value]
  | .insert _ _ value :: past => allocated past ++ [value]
  | .insertShared _ _ _ :: past => allocated past
  | .remove _ _ :: past => allocated past
  | .clone _ _ :: past => allocated past

def Allocated (past : List (StoreStep M T)) (shared : Shared T) : Prop :=
  (allocated past)[shared.stamp]? = some shared.value

/-- A shared value is stored only after it was allocated. -/
def Genuine : List (StoreStep M T) → Prop
  | [] => True
  | .insertShared _ _ shared :: past => Allocated past shared ∧ Genuine past
  | .allocate _ :: past => Genuine past
  | .insert _ _ _ :: past => Genuine past
  | .remove _ _ :: past => Genuine past
  | .clone _ _ :: past => Genuine past

variable [DecidableEq M]

/-- The own history of a store: its edits since it was made a copy, and before them those that its
origin had at that time. -/
def ownEdits : List (StoreStep M T) → M → List (Edit T)
  | [], _ => []
  | .allocate _ :: past, m => ownEdits past m
  | .insert name key value :: past, m =>
    if m = name then .put key ⟨(allocated past).length, value⟩ :: ownEdits past m
    else ownEdits past m
  | .insertShared name key shared :: past, m =>
    if m = name then .put key shared :: ownEdits past m else ownEdits past m
  | .remove name key :: past, m =>
    if m = name then .drop key :: ownEdits past m else ownEdits past m
  | .clone origin copy :: past, m => ownEdits past (if m = copy then origin else m)

structure Stores (M T : Type) [TypeUniverse T] where
  store : M → Store T
  free : Nat

namespace Stores

def set (s : Stores M T) (name : M) (store : Store T) : Stores M T :=
  { s with store := fun m => if m = name then store else s.store m }

def edit (s : Stores M T) (name : M) (e : Edit T) : Option (Shared T) × Stores M T :=
  let (prior, store) := (s.store name).edit e
  (prior, s.set name store)

/-- Performs a step. An edit returns the value that was there before it. -/
def perform (s : Stores M T) : StoreStep M T → Option (Shared T) × Stores M T
  | .allocate _ => (none, { s with free := s.free + 1 })
  | .insert name key value =>
    let (prior, edited) := s.edit name (.put key ⟨s.free, value⟩)
    (prior, { edited with free := s.free + 1 })
  | .insertShared name key shared => s.edit name (.put key shared)
  | .remove name key => s.edit name (.drop key)
  | .clone origin copy => (none, s.set copy (s.store origin))

def after : List (StoreStep M T) → Stores M T
  | [] => ⟨fun _ => .empty, 0⟩
  | step :: past => ((after past).perform step).2

theorem free_after (past : List (StoreStep M T)) :
    (after past).free = (allocated past).length := by
  induction past with
  | nil => rfl
  | cons step past ih => cases step <;> simp [after, perform, allocated, edit, set, ih]

theorem fst_perform {step : StoreStep M T} {name : M} {key : String}
    (edits : step.place? = some (name, key)) (s : Stores M T) :
    (s.perform step).1 = (s.store name).find? key := by
  cases step with
  | allocate value => cases edits
  | insert name key value =>
    cases edits
    rfl
  | insertShared name key shared =>
    cases edits
    rfl
  | remove name key =>
    cases edits
    rfl
  | clone origin copy => cases edits

theorem store_perform_of_ne {step : StoreStep M T} {m : M} (other : step.target? ≠ some m)
    (s : Stores M T) : (s.perform step).2.store m = s.store m := by
  cases step with
  | allocate value => rfl
  | insert name key value =>
    have apart : m ≠ name := fun same => other (congrArg some same.symm)
    simp [perform, edit, set, apart]
  | insertShared name key shared =>
    have apart : m ≠ name := fun same => other (congrArg some same.symm)
    simp [perform, edit, set, apart]
  | remove name key =>
    have apart : m ≠ name := fun same => other (congrArg some same.symm)
    simp [perform, edit, set, apart]
  | clone origin copy =>
    have apart : m ≠ copy := fun same => other (congrArg some same.symm)
    simp [perform, set, apart]

/-- Steps that write to other stores leave a store as it is. -/
theorem store_after_append {later : List (StoreStep M T)} {m : M}
    (others : ∀ step ∈ later, step.target? ≠ some m) (past : List (StoreStep M T)) :
    (after (later ++ past)).store m = (after past).store m := by
  induction later with
  | nil => rfl
  | cons step later ih =>
    rw [List.forall_mem_cons] at others
    rw [List.cons_append, after, store_perform_of_ne others.1, ih others.2]

theorem find?_edit {s : Stores M T} {own : M → List (Edit T)}
    (agrees : ∀ m key shared, (s.store m).find? key = some shared ↔ Live (own m) key shared)
    (name : M) (e : Edit T) (m : M) (key : String) (shared : Shared T) :
    ((s.edit name e).2.store m).find? key = some shared ↔
      Live (if m = name then e :: own m else own m) key shared := by
  by_cases here : m = name
  · subst here
    simp only [edit, set, if_pos, live_cons_iff, Store.find?_edit, agrees]
  · simp only [edit, set, if_neg here, agrees]

theorem find?_after (past : List (StoreStep M T)) (m : M) (key : String) (shared : Shared T) :
    ((after past).store m).find? key = some shared ↔ Live (ownEdits past m) key shared := by
  induction past generalizing m key shared with
  | nil => simp [after, ownEdits, not_live_nil]
  | cons step past ih =>
    cases step with
    | allocate value => exact ih m key shared
    | insert name own value =>
      rw [ownEdits, ← free_after]
      exact find?_edit ih name (.put own ⟨(after past).free, value⟩) m key shared
    | insertShared name own stored => exact find?_edit ih name (.put own stored) m key shared
    | remove name own => exact find?_edit ih name (.drop own) m key shared
    | clone origin copy =>
      simp only [after, perform, set, ownEdits]
      by_cases here : m = copy
      · simp only [if_pos here]
        exact ih origin key shared
      · simp only [if_neg here]
        exact ih m key shared

end Stores

section

variable {past : List (StoreStep M T)}

omit [DecidableEq M] in
theorem Allocated.cons {shared : Shared T} (known : Allocated past shared) (step : StoreStep M T) :
    Allocated (step :: past) shared := by
  have inside := (List.getElem?_eq_some_iff.mp known).1
  cases step with
  | allocate value => exact (List.getElem?_append_left inside).trans known
  | insert name key value => exact (List.getElem?_append_left inside).trans known
  | insertShared name key other => exact known
  | remove name key => exact known
  | clone origin copy => exact known

omit [DecidableEq M] in
theorem Allocated.stamp_lt {shared : Shared T} (known : Allocated past shared) :
    shared.stamp < (allocated past).length :=
  (List.getElem?_eq_some_iff.mp known).1

omit [DecidableEq M] in
/-- A stamp stands for one allocation. -/
theorem Allocated.eq_of_stamp {one other : Shared T} (first : Allocated past one)
    (second : Allocated past other) (same : one.stamp = other.stamp) : one = other := by
  obtain ⟨stamp, value⟩ := one
  obtain ⟨_, value'⟩ := other
  obtain rfl : stamp = _ := same
  obtain rfl : value = value' := Option.some.inj (first.symm.trans second)
  rfl

omit [DecidableEq M] in
theorem Genuine.tail {step : StoreStep M T} (genuine : Genuine (step :: past)) : Genuine past := by
  cases step with
  | insertShared name key shared => exact genuine.2
  | allocate value => exact genuine
  | insert name key value => exact genuine
  | remove name key => exact genuine
  | clone origin copy => exact genuine

/-- What is live after an edit is what the edit has put, or was live before it. -/
theorem live_edit_cases {own : List (Edit T)} {name m : M} {e : Edit T} {key : String}
    {shared : Shared T} (live : Live (if m = name then e :: own else own) key shared) :
    e = .put key shared ∨ Live own key shared := by
  split at live
  next =>
    rw [live_cons_iff] at live
    exact live.imp_right And.right
  next => exact .inr live

theorem Genuine.allocated_of_live (genuine : Genuine past) {m : M} {key : String}
    {shared : Shared T} (live : Live (ownEdits past m) key shared) : Allocated past shared := by
  induction past generalizing m key shared with
  | nil => exact absurd live (not_live_nil key shared)
  | cons step past ih =>
    have earlier : ∀ n, Live (ownEdits past n) key shared → Allocated (step :: past) shared :=
      fun n before => (ih genuine.tail before).cons step
    cases step with
    | allocate value => exact earlier m live
    | insert name own value =>
      rcases live_edit_cases live with put | before
      · cases put
        simp [Allocated, allocated]
      · exact earlier m before
    | insertShared name own stored =>
      rcases live_edit_cases live with put | before
      · cases put
        exact genuine.1
      · exact earlier m before
    | remove name own =>
      rcases live_edit_cases live with put | before
      · cases put
      · exact earlier m before
    | clone origin copy => exact earlier _ live

end

/-- What the stores answer after steps, and what further steps return and change. -/
structure Remembers [DecidableEq T] (past : List (StoreStep M T)) : Prop where
  shared : ∀ m key shared, ((Stores.after past).store m).find? key = some shared ↔
    Live (ownEdits past m) key shared
  read : ∀ m key type content, ((Stores.after past).store m).get type key = .ok content ↔
    ∃ stamp, Live (ownEdits past m) key ⟨stamp, type, content⟩
  missing : ∀ m key type, ((Stores.after past).store m).get type key = .error (.missing key) ↔
    ¬ ∃ shared, Live (ownEdits past m) key shared
  mismatch : ∀ m key type,
    ((Stores.after past).store m).get type key =
        .error (.typeMismatch key (TypeUniverse.label type)) ↔
      ∃ shared, Live (ownEdits past m) key shared ∧ shared.value.type ≠ type
  returned : ∀ (step : StoreStep M T) m key, step.place? = some (m, key) →
    ∀ shared, ((Stores.after past).perform step).1 = some shared ↔
      Live (ownEdits past m) key shared
  size : ∀ m, ((Stores.after past).store m).size =
    Set.ncard {key | ∃ shared, Live (ownEdits past m) key shared}
  increasing : ∀ m, ((Stores.after past).store m).keys.Pairwise (· < ·)
  listed : ∀ m key, key ∈ ((Stores.after past).store m).keys ↔
    ∃ shared, Live (ownEdits past m) key shared
  apart : ∀ later m, (∀ step ∈ later, step.target? ≠ some m) →
    (Stores.after (later ++ past)).store m = (Stores.after past).store m
  allocates : ∀ m key value,
    ((Stores.after past).store m).allocate (Stores.after past).free key value =
      ((Stores.after (.insert m key value :: past)).store m,
        (Stores.after (.insert m key value :: past)).free)
  cloned : ∀ origin copy,
    (Stores.after (.clone origin copy :: past)).store copy = (Stores.after past).store origin
  reinserted : ∀ m key shared,
    ((Stores.after (.insertShared m key shared :: past)).store m).find? key = some shared
  fresh : Genuine past → ∀ m key value, ∃ stamp,
    ((Stores.after (.insert m key value :: past)).store m).find? key = some ⟨stamp, value⟩ ∧
      (∀ other, Allocated past other → other.stamp ≠ stamp) ∧
      ∀ n name other, ((Stores.after past).store n).find? name = some other → other.stamp ≠ stamp
  identity : Genuine past → ∀ m key n name one other,
    ((Stores.after past).store m).find? key = some one →
    ((Stores.after past).store n).find? name = some other → one.stamp = other.stamp → one = other

namespace Stores

/-- A store holds under each key what the latest edit of the key in its own history has put there,
and no step changes another store than the one it writes to. -/
theorem after_remembers [DecidableEq T] (past : List (StoreStep M T)) : Remembers past := by
  have holds := find?_after past
  have present : ∀ m key, (∃ shared, ((after past).store m).find? key = some shared) ↔
      ∃ shared, Live (ownEdits past m) key shared :=
    fun m key => exists_congr (holds m key)
  have known : Genuine past → ∀ m key shared,
      ((after past).store m).find? key = some shared → Allocated past shared :=
    fun genuine m key shared found => genuine.allocated_of_live ((holds m key shared).mp found)
  constructor
  · exact holds
  · intro m key type content
    rw [Store.get_eq_ok_iff]
    exact exists_congr (fun stamp => holds m key ⟨stamp, type, content⟩)
  · intro m key type
    rw [Store.get_eq_missing_iff, ← present, ← Option.isSome_iff_exists,
      Option.not_isSome_iff_eq_none]
  · intro m key type
    simp only [Store.get_eq_typeMismatch_iff, holds]
  · intro step m key edits shared
    rw [fst_perform edits, holds]
  · intro m
    simp only [Store.size_eq_ncard, present]
  · intro m
    exact Store.keys_increasing _
  · intro m key
    rw [Store.mem_keys_iff, present]
  · intro later m others
    exact store_after_append others past
  · intro m key value
    simp [after, perform, edit, set, Store.edit, Store.allocate_eq_replace]
  · intro origin copy
    simp [after, perform, set]
  · intro m key shared
    simp [after, perform, edit, set, Store.edit, Store.replace, Store.find?_insert]
  · intro genuine m key value
    have free : ∀ other, Allocated past other → other.stamp ≠ (after past).free := by
      intro other allocated
      rw [free_after]
      exact Nat.ne_of_lt allocated.stamp_lt
    refine ⟨(after past).free, ?_, free,
      fun n name other found => free other (known genuine n name other found)⟩
    simp [after, perform, edit, set, Store.edit, Store.replace, Store.find?_insert]
  · intro genuine m key n name one other foundOne foundOther same
    have first := known genuine m key one foundOne
    exact first.eq_of_stamp (known genuine n name other foundOther) same

/-- A store is copied, and its copy then edited at the same key. The value that the copy has from
its origin is shared under another key of the copy, and the origin loses it. -/
def sharingPast : List (StoreStep Nat (AttrType Empty)) := [
  .remove 0 "n",
  .insertShared 1 "m" ⟨0, .word32, (42 : UInt32)⟩,
  .insert 1 "n" ⟨.string, "x"⟩,
  .clone 0 1,
  .insert 0 "n" ⟨.word32, (42 : UInt32)⟩]

theorem after_remembers_sharing :
    Genuine sharingPast ∧
      ((after sharingPast).store 0).get .word32 "n" = .error (.missing "n") ∧
      ((after sharingPast).store 1).get .string "n" = .ok "x" ∧
      ((after sharingPast).store 1).get .int64 "n" = .error (.typeMismatch "n" "i64") ∧
      ((after sharingPast).store 1).find? "m" = some ⟨0, .word32, (42 : UInt32)⟩ ∧
      ((after sharingPast).perform (.remove 1 "n")).1 = some ⟨1, .string, "x"⟩ := by
  have remembers := after_remembers sharingPast
  have text : Live (ownEdits sharingPast 1) "n" ⟨1, .string, "x"⟩ :=
    ⟨[.put "m" ⟨0, .word32, (42 : UInt32)⟩], _, rfl, by simp [Edit.key]⟩
  have number : Live (ownEdits sharingPast 1) "m" ⟨0, .word32, (42 : UInt32)⟩ :=
    ⟨[], _, rfl, by simp⟩
  have gone : ¬ ∃ shared, Live (ownEdits sharingPast 0) "n" shared := by
    have edits : ownEdits sharingPast 0 = [.drop "n", .put "n" ⟨0, .word32, (42 : UInt32)⟩] := rfl
    simp [edits, live_cons_iff, Edit.key]
  refine ⟨⟨rfl, trivial⟩, ?_, ?_, ?_, ?_, ?_⟩
  · exact (remembers.missing 0 "n" .word32).mpr gone
  · exact (remembers.read 1 "n" .string "x").mpr ⟨1, text⟩
  · exact (remembers.mismatch 1 "n" .int64).mpr ⟨_, text, by decide⟩
  · exact (remembers.shared 1 "m" _).mpr number
  · exact (remembers.returned (.remove 1 "n") 1 "n" rfl _).mpr text

end Stores
end Placement
