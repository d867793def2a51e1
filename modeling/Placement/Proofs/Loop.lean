/-! Loops that may stop early. Such a loop comes to the members of its list one after the other, to
each in the state that those before it have left. -/
namespace Placement

theorem except_bind_eq_ok_iff {ε α β : Type} {first : Except ε α} {next : α → Except ε β} {b : β} :
    first >>= next = .ok b ↔ ∃ a, first = .ok a ∧ next a = .ok b := by
  cases first with
  | error error => simp [bind, Except.bind]
  | ok a => simp [bind, Except.bind]

variable {ε α σ : Type} {step : σ → α → Except ε σ} {start s : σ} {l : List α} {a : α}

/-- The loop over the list comes to the member `a` in the state `s`. -/
def ComesTo (step : σ → α → Except ε σ) (start : σ) (l : List α) (a : α) (s : σ) : Prop :=
  ∃ front back, l = front ++ a :: back ∧ front.foldlM step start = .ok s

theorem ComesTo.mem (comes : ComesTo step start l a s) : a ∈ l := by
  obtain ⟨front, back, rfl, _⟩ := comes
  simp

theorem comesTo_cons_iff {b : α} :
    ComesTo step start (b :: l) a s ↔
      (a = b ∧ s = start) ∨ ∃ next, step start b = .ok next ∧ ComesTo step next l a s := by
  constructor
  · rintro ⟨front, back, split, passed⟩
    cases front with
    | nil =>
      obtain ⟨rfl, rfl⟩ := List.cons.inj split
      cases passed
      exact .inl ⟨rfl, rfl⟩
    | cons first front =>
      obtain ⟨rfl, rfl⟩ := List.cons.inj split
      rw [List.foldlM_cons, except_bind_eq_ok_iff] at passed
      obtain ⟨next, stepped, passed⟩ := passed
      exact .inr ⟨next, stepped, front, back, rfl, passed⟩
  · rintro (⟨rfl, rfl⟩ | ⟨next, stepped, front, back, rfl, passed⟩)
    · exact ⟨[], l, rfl, rfl⟩
    · exact ⟨b :: front, back, rfl, by rw [List.foldlM_cons, stepped]; exact passed⟩

/-- What holds at the start and is kept by every step holds at the end. -/
theorem foldlM_invariant {motive : σ → Prop} {final : σ} (initial : motive start)
    (kept : ∀ s, ∀ b ∈ l, ∀ next, motive s → step s b = .ok next → motive next)
    (finished : l.foldlM step start = .ok final) : motive final := by
  induction l generalizing start with
  | nil =>
    cases finished
    exact initial
  | cons b l ih =>
    rw [List.foldlM_cons, except_bind_eq_ok_iff] at finished
    obtain ⟨next, stepped, rest⟩ := finished
    exact ih (kept start b (by simp) next initial stepped)
      (fun s c member => kept s c (by simp [member])) rest

/-- A loop whose steps succeed where those of another do, and alike, succeeds where it does. -/
theorem foldlM_of_steps {step' : σ → α → Except ε σ} {final : σ}
    (follows : ∀ s a next, step s a = .ok next → step' s a = .ok next)
    (finished : l.foldlM step start = .ok final) : l.foldlM step' start = .ok final := by
  induction l generalizing start with
  | nil => exact finished
  | cons b l ih =>
    rw [List.foldlM_cons, except_bind_eq_ok_iff] at finished ⊢
    obtain ⟨next, stepped, rest⟩ := finished
    exact ⟨next, follows start b next stepped, ih rest⟩

theorem ComesTo.invariant {motive : σ → Prop} (comes : ComesTo step start l a s)
    (initial : motive start)
    (kept : ∀ s, ∀ b ∈ l, ∀ next, motive s → step s b = .ok next → motive next) : motive s := by
  obtain ⟨front, back, rfl, passed⟩ := comes
  exact foldlM_invariant initial (fun s b member => kept s b (by simp [member])) passed

/-- A loop that stops early has come to the member whose step fails. -/
theorem exists_comesTo_of_error {error : ε} (failed : l.foldlM step start = .error error) :
    ∃ a s, ComesTo step start l a s ∧ step s a = .error error := by
  induction l generalizing start with
  | nil => cases failed
  | cons b l ih =>
    rw [List.foldlM_cons] at failed
    cases stepped : step start b with
    | error cause =>
      rw [stepped] at failed
      cases failed
      exact ⟨b, start, ⟨[], l, rfl, rfl⟩, stepped⟩
    | ok next =>
      rw [stepped] at failed
      obtain ⟨a, s, ⟨front, back, rfl, passed⟩, stopped⟩ := ih failed
      refine ⟨a, s, ⟨b :: front, back, rfl, ?_⟩, stopped⟩
      rw [List.foldlM_cons, stepped]
      exact passed

end Placement
