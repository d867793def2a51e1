import Placement.Pass.Event

namespace Placement

variable {P : Client}

theorem Parsing.deviceCopy_cases (attrs : NodeAttrs P) :
    deviceCopy attrs = accept { attrs with payload := some (.copyTo attrs.device) } ∨
      ∃ error, deviceCopy attrs = reject attrs error := by
  unfold deviceCopy
  split
  next => exact .inl rfl
  next =>
    split
    next => exact .inr ⟨_, rfl⟩
    next =>
      split
      next => exact .inl rfl
      next => exact .inr ⟨_, rfl⟩

namespace Operator

variable [CustomParsers P]

/-- What comes of attributes in the hands of the operator's parser. Where there is none they are
accepted as they are. -/
def Parses (op : Operator P) (attrs : NodeAttrs P) (parsing : Parsing P) : Prop :=
  match op.parser with
  | none => parsing = ⟨attrs, .ok ()⟩
  | some .deviceCopy => parsing = Parsing.deviceCopy attrs
  | some (.custom parser) => parsing = CustomParsers.parse parser attrs

def Accepts (op : Operator P) (attrs : NodeAttrs P) : Prop :=
  ∃ made, op.Parses attrs ⟨made, .ok ()⟩

def Rejects (op : Operator P) (attrs : NodeAttrs P) (error : OpError) : Prop :=
  ∃ left, op.Parses attrs ⟨left, .error error⟩

variable {op : Operator P} {attrs : NodeAttrs P}

theorem parses_iff (parsing : Parsing P) :
    op.Parses attrs parsing ↔ op.parseAttrs attrs = parsing := by
  unfold Parses parseAttrs runParser
  cases op.parser with
  | none => exact eq_comm
  | some parser =>
    cases parser with
    | deviceCopy => exact eq_comm
    | custom parser => exact eq_comm

theorem parses_of_verdict {verdict : Except OpError Unit}
    (given : (op.parseAttrs attrs).verdict = verdict) :
    op.Parses attrs ⟨(op.parseAttrs attrs).attrs, verdict⟩ := by
  rw [parses_iff, ← given]

theorem accepts_iff : op.Accepts attrs ↔ (op.parseAttrs attrs).verdict = .ok () := by
  constructor
  · rintro ⟨made, parses⟩
    rw [(parses_iff _).mp parses]
  · exact fun accepted => ⟨_, parses_of_verdict accepted⟩

theorem rejects_iff {error : OpError} :
    op.Rejects attrs error ↔ (op.parseAttrs attrs).verdict = .error error := by
  constructor
  · rintro ⟨left, parses⟩
    rw [(parses_iff _).mp parses]
  · exact fun rejected => ⟨_, parses_of_verdict rejected⟩

theorem accepts_or_rejects (op : Operator P) (attrs : NodeAttrs P) :
    op.Accepts attrs ∨ ∃ error, op.Rejects attrs error := by
  cases verdict : (op.parseAttrs attrs).verdict with
  | ok accepted => exact .inl (accepts_iff.mpr verdict)
  | error error => exact .inr ⟨error, rejects_iff.mpr verdict⟩

theorem not_accepts_of_rejects {error : OpError} (rejects : op.Rejects attrs error) :
    ¬ op.Accepts attrs := by
  rw [accepts_iff, rejects_iff.mp rejects]
  nofun

/-- Without a parser, and with the built-in one, accepted attributes change in their payload at
most. -/
theorem attrs_of_accepted {made : NodeAttrs P}
    (known : op.parser = none ∨ op.parser = some .deviceCopy)
    (accepted : op.Parses attrs ⟨made, .ok ()⟩) :
    ∃ payload, made = { attrs with payload := payload } := by
  rcases known with absent | builtin
  · simp only [Parses, absent, Parsing.mk.injEq, and_true] at accepted
    exact ⟨attrs.payload, accepted⟩
  · simp only [Parses, builtin] at accepted
    rcases Parsing.deviceCopy_cases attrs with same | ⟨error, same⟩
    · cases accepted.trans same
      exact ⟨_, rfl⟩
    · cases accepted.trans same

end Operator
end Placement
