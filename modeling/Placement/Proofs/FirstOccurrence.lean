import Mathlib.Data.List.Induction
import Mathlib.Data.List.Nodup

namespace Placement

section

variable {α : Type} [DecidableEq α]

theorem eraseDups_append_singleton (l : List α) (a : α) :
    (l ++ [a]).eraseDups = if a ∈ l then l.eraseDups else l.eraseDups ++ [a] := by
  rw [List.eraseDups_append]
  by_cases member : a ∈ l
  · simp [List.removeAll, member]
  · simp [List.removeAll, member, List.eraseDups_cons]

theorem nodup_eraseDups (l : List α) : l.eraseDups.Nodup := by
  induction l using List.reverseRecOn with
  | nil => simp
  | append_singleton l a ih =>
    rw [eraseDups_append_singleton]
    split
    next => exact ih
    next new =>
      have apart : ∀ b ∈ l, b ≠ a := fun b member same => new (same ▸ member)
      exact List.nodup_append.mpr ⟨ih, by simp, by simpa using apart⟩

theorem eraseDups_of_nodup {l : List α} (nodup : l.Nodup) : l.eraseDups = l := by
  induction l using List.reverseRecOn with
  | nil => rfl
  | append_singleton l a ih =>
    have parts := List.nodup_append.mp nodup
    have new : a ∉ l := fun member => parts.2.2 a member a (by simp) rfl
    rw [eraseDups_append_singleton, if_neg new, ih parts.1]

theorem eraseDups_append_of_subset {l extra : List α} (known : extra ⊆ l) :
    (l ++ extra).eraseDups = l.eraseDups := by
  have none : extra.removeAll l = [] := by
    simp only [List.removeAll, List.filter_eq_nil_iff]
    intro a member
    simp [known member]
  simp [List.eraseDups_append, none]

theorem eraseDups_eraseDups_append (l r : List α) :
    (l.eraseDups ++ r).eraseDups = (l ++ r).eraseDups := by
  have same : r.removeAll l.eraseDups = r.removeAll l := by
    simp [List.removeAll]
  rw [List.eraseDups_append, List.eraseDups_append, eraseDups_of_nodup (nodup_eraseDups l), same]

theorem eraseDups_filter (keep : α → Bool) (l : List α) :
    (l.filter keep).eraseDups = l.eraseDups.filter keep := by
  induction l using List.reverseRecOn with
  | nil => rfl
  | append_singleton l a ih =>
    rw [List.filter_append, eraseDups_append_singleton]
    by_cases kept : keep a = true
    · rw [List.filter_cons_of_pos kept, List.filter_nil, eraseDups_append_singleton, ih]
      by_cases member : a ∈ l
      · simp [member, kept]
      · simp [member, kept]
    · rw [List.filter_cons_of_neg kept, List.filter_nil, List.append_nil, ih]
      split
      next => rfl
      next => simp [kept]

theorem eraseDups_map {β : Type} [DecidableEq β] {f : α → β} {l : List α}
    (injective : ∀ a ∈ l, ∀ b ∈ l, f a = f b → a = b) :
    (l.map f).eraseDups = l.eraseDups.map f := by
  induction l using List.reverseRecOn with
  | nil => rfl
  | append_singleton l a ih =>
    have here : f a ∈ l.map f ↔ a ∈ l := by
      refine ⟨fun member => ?_, List.mem_map_of_mem⟩
      obtain ⟨b, member, same⟩ := List.mem_map.mp member
      exact injective b (by simp [member]) a (by simp) same ▸ member
    have rest := ih (fun b hb c hc => injective b (by simp [hb]) c (by simp [hc]))
    simp only [List.map_append, List.map_singleton, eraseDups_append_singleton, here, rest,
      apply_ite (List.map f)]

/-- What stands before a first occurrence stood before it already. -/
theorem split_of_eraseDups {l front back : List α} {b : α}
    (cut : l.eraseDups = front ++ b :: back) :
    ∃ before after, l = before ++ b :: after ∧ front = before.eraseDups := by
  induction l using List.reverseRecOn generalizing back with
  | nil => simp at cut
  | append_singleton l a ih =>
    rw [eraseDups_append_singleton] at cut
    split at cut
    next =>
      obtain ⟨before, after, rfl, same⟩ := ih cut
      exact ⟨before, after ++ [a], by simp, same⟩
    next =>
      rcases List.eq_nil_or_concat back with rfl | ⟨inner, last, rfl⟩
      · obtain ⟨same, last⟩ := List.append_inj' cut rfl
        obtain rfl : a = b := by simpa using last
        exact ⟨l, [], rfl, same.symm⟩
      · have whole : l.eraseDups ++ [a] = (front ++ b :: inner) ++ [last] := by simpa using cut
        obtain ⟨before, after, rfl, same⟩ := ih (List.append_inj' whole rfl).1
        exact ⟨before, after ++ [a], by simp, same⟩

end

/-- Wherever `b` stands in the list, `a` stands before it. -/
def Precedes {α : Type} (a b : α) (l : List α) : Prop :=
  ∀ front back, l = front ++ b :: back → a ∈ front

namespace Precedes

variable {α : Type} {a b : α}

theorem nil : Precedes a b [] := by
  intro front back cut
  simp at cut

theorem of_not_mem {l : List α} (absent : b ∉ l) : Precedes a b l := by
  rintro front back rfl
  simp at absent

theorem of_getElem? {l : List α}
    (earlier : ∀ i : Nat, l[i]? = some b → ∃ j, j < i ∧ l[j]? = some a) : Precedes a b l := by
  rintro front back rfl
  obtain ⟨j, before, listed⟩ := earlier front.length (by simp)
  rw [List.getElem?_append_left before] at listed
  exact List.mem_of_getElem? listed

theorem exists_getElem? {l : List α} (precedes : Precedes a b l) {i : Nat}
    (here : l[i]? = some b) : ∃ j, j < i ∧ l[j]? = some a := by
  obtain ⟨inside, rfl⟩ := List.getElem?_eq_some_iff.mp here
  have cut : l = l.take i ++ l[i] :: l.drop (i + 1) := by
    rw [← List.drop_eq_getElem_cons inside, List.take_append_drop]
  obtain ⟨j, listed⟩ := List.getElem?_of_mem (precedes _ _ cut)
  rw [List.getElem?_take] at listed
  split at listed
  next before => exact ⟨j, before, listed⟩
  next => cases listed

theorem cons_iff (x : α) (l : List α) :
    Precedes a b (x :: l) ↔ x ≠ b ∧ (x = a ∨ Precedes a b l) := by
  constructor
  · intro precedes
    refine ⟨fun same => by simpa using precedes [] l (by simp [same]), ?_⟩
    by_cases first : x = a
    · exact .inl first
    · refine .inr (fun front back cut => ?_)
      have early := precedes (x :: front) back (by simp [cut])
      exact (List.mem_cons.mp early).resolve_left (fun same => first same.symm)
  · rintro ⟨other, early⟩ front back cut
    cases front with
    | nil => exact absurd (List.cons.inj cut).1 other
    | cons y front =>
      obtain ⟨rfl, rest⟩ := List.cons.inj cut
      rcases early with rfl | precedes
      · simp
      · simp [precedes front back rest]

theorem append_iff (l r : List α) :
    Precedes a b (l ++ r) ↔ Precedes a b l ∧ (a ∈ l ∨ Precedes a b r) := by
  induction l with
  | nil => simp [nil]
  | cons x l ih =>
    simp only [List.cons_append, cons_iff, ih, List.mem_cons]
    grind

theorem eraseDups [DecidableEq α] {l : List α}
    (precedes : Precedes a b l) : Precedes a b l.eraseDups := by
  intro front back cut
  obtain ⟨before, after, rfl, rfl⟩ := split_of_eraseDups cut
  simpa using precedes before after rfl

theorem idxOf_lt [DecidableEq α] {l : List α}
    (precedes : Precedes a b l) (member : b ∈ l) : l.idxOf a < l.idxOf b := by
  obtain ⟨front, back, rfl, new⟩ := List.eq_append_cons_of_mem member
  have early : a ∈ front := precedes front back rfl
  rw [List.idxOf_append_of_mem early, List.idxOf_append_of_notMem new]
  have inside : front.idxOf a < front.length := List.idxOf_lt_length_of_mem early
  omega

end Precedes
end Placement
