import Mathlib.Data.List.Induction
import Placement.Text.Decimal

namespace Placement.Text.Decimal

/-- One or more ASCII digits, with the number that they stand for. -/
inductive Digits : List Char → Nat → Prop where
  | one (d : Nat) (small : d < 10) : Digits [d.digitChar] d
  | more (chars : List Char) (n d : Nat) (front : Digits chars n) (small : d < 10) :
      Digits (chars ++ [d.digitChar]) (10 * n + d)

/-- Digits after at most one sign, with the integer that they stand for. -/
inductive Numeral : List Char → Int → Prop where
  | unsigned (chars : List Char) (n : Nat) (digits : Digits chars n) : Numeral chars n
  | positive (chars : List Char) (n : Nat) (digits : Digits chars n) : Numeral ('+' :: chars) n
  | negative (chars : List Char) (n : Nat) (digits : Digits chars n) : Numeral ('-' :: chars) (-n)

theorem exists_digitChar {c : Char} (digit : c.isDigit = true) : ∃ d, d < 10 ∧ c = d.digitChar := by
  simp only [Char.isDigit, Bool.and_eq_true, decide_eq_true_eq, UInt32.le_iff_toNat_le] at digit
  obtain ⟨low, high⟩ := digit
  change 48 ≤ c.toNat at low
  change c.toNat ≤ 57 at high
  refine ⟨c.toNat - 48, by omega, Char.toNat_inj.mp ?_⟩
  rw [Nat.toNat_digitChar_of_lt_ten (by omega)]
  omega

theorem Digits.digits?_eq {chars : List Char} {n : Nat} (digits : Digits chars n) :
    digits? chars = some n := by
  induction digits with
  | one d small =>
    simp [digits?, Nat.isDigit_digitChar, small, Nat.ofDigitChars_cons_digitChar_of_lt_ten small]
  | more chars n d _ small ih =>
    simp only [digits?, Option.ite_none_right_eq_some, Option.some.injEq] at ih ⊢
    obtain ⟨⟨_, all⟩, value⟩ := ih
    refine ⟨⟨by simp, by simp [all, Nat.isDigit_digitChar, small]⟩, ?_⟩
    rw [Nat.ofDigitChars_append, value, Nat.ofDigitChars_cons_digitChar_of_lt_ten small,
      Nat.ofDigitChars_nil]

theorem digits_ofDigitChars {chars : List Char} (nonempty : chars ≠ [])
    (all : chars.all Char.isDigit = true) : Digits chars (Nat.ofDigitChars 10 chars 0) := by
  induction chars using List.reverseRecOn with
  | nil => exact absurd rfl nonempty
  | append_singleton front c ih =>
    rw [List.all_append, Bool.and_eq_true] at all
    obtain ⟨d, small, rfl⟩ := exists_digitChar (by simpa using all.2)
    rw [Nat.ofDigitChars_append, Nat.ofDigitChars_cons_digitChar_of_lt_ten small,
      Nat.ofDigitChars_nil]
    by_cases first : front = []
    · subst first
      simpa using Digits.one d small
    · exact .more front _ d (ih first all.1) small

theorem digits?_eq_some_iff (chars : List Char) (n : Nat) :
    digits? chars = some n ↔ Digits chars n := by
  refine ⟨fun read => ?_, Digits.digits?_eq⟩
  simp only [digits?, Option.ite_none_right_eq_some, Option.some.injEq] at read
  obtain ⟨⟨nonempty, all⟩, rfl⟩ := read
  exact digits_ofDigitChars nonempty all

theorem Digits.isDigit {chars : List Char} {n : Nat} (digits : Digits chars n) :
    ∀ c ∈ chars, c.isDigit = true := by
  have read := digits.digits?_eq
  simp only [digits?, Option.ite_none_right_eq_some, List.all_eq_true] at read
  exact read.1.2

/-- A sign is not a digit, so each text is read by one clause of the grammar. -/
theorem signed?_eq_some_iff (chars : List Char) (i : Int) :
    signed? chars = some i ↔ Numeral chars i := by
  have signless : ∀ sign chars n, Digits (sign :: chars) n → sign ≠ '-' ∧ sign ≠ '+' := by
    intro sign chars n digits
    have digit := digits.isDigit sign (by simp)
    constructor
    · rintro rfl
      exact absurd digit (by decide)
    · rintro rfl
      exact absurd digit (by decide)
  constructor
  · intro read
    unfold signed? at read
    split at read
    next chars =>
      obtain ⟨n, digits, rfl⟩ := Option.map_eq_some_iff.mp read
      exact .negative chars n ((digits?_eq_some_iff chars n).mp digits)
    next chars =>
      obtain ⟨n, digits, rfl⟩ := Option.map_eq_some_iff.mp read
      exact .positive chars n ((digits?_eq_some_iff chars n).mp digits)
    next =>
      obtain ⟨n, digits, rfl⟩ := Option.map_eq_some_iff.mp read
      exact .unsigned _ n ((digits?_eq_some_iff _ n).mp digits)
  · intro numeral
    cases numeral with
    | unsigned chars n digits =>
      unfold signed?
      split
      next chars => exact absurd rfl (signless _ _ n digits).1
      next chars => exact absurd rfl (signless _ _ n digits).2
      next => simp [digits.digits?_eq]
    | positive chars n digits => simp [signed?, digits.digits?_eq]
    | negative chars n digits => simp [signed?, digits.digits?_eq]

/-- A text is read as a 32-bit integer exactly when it is a numeral for it. -/
theorem readInt32?_eq_some_iff (text : String) (i : Int32) :
    readInt32? text = some i ↔ Numeral text.toList i.toInt := by
  rw [← signed?_eq_some_iff]
  unfold readInt32?
  cases read : signed? text.toList with
  | none => simp
  | some value =>
    simp only [Option.ite_none_right_eq_some, Option.some.injEq]
    constructor
    · rintro ⟨⟨low, high⟩, rfl⟩
      exact (Int32.toInt_ofInt_of_le low (Int.lt_add_one_of_le high)).symm
    · rintro rfl
      exact ⟨⟨i.minValue_le_toInt, i.toInt_le⟩, Int32.ofInt_toInt i⟩

theorem digits_toDigits (n : Nat) : Digits (Nat.toDigits 10 n) n := by
  have all : (Nat.toDigits 10 n).all Char.isDigit = true :=
    List.all_eq_true.mpr (fun c member =>
      Nat.isDigit_of_mem_toDigits (by decide) (Nat.le_refl 10) member)
  simpa using digits_ofDigitChars Nat.toDigits_ne_nil all

theorem numeral_write (i : Int) : Numeral (write i).toList i := by
  cases i with
  | ofNat n =>
    rw [write, Nat.toList_repr]
    exact .unsigned _ n (digits_toDigits n)
  | negSucc n =>
    rw [write, String.toList_append, Nat.toList_repr]
    exact .negative _ (n + 1) (digits_toDigits (n + 1))

theorem readInt32?_write (i : Int32) : readInt32? (write i.toInt) = some i :=
  (readInt32?_eq_some_iff _ i).mpr (numeral_write i.toInt)

/-- The smallest integer is read, with zeros before it, and what is one beyond the largest is
not; nor is a sign alone, a second sign, a blank or a digit of another script. -/
example : readInt32? "-002147483648" = some Int32.minValue ∧ readInt32? "+7" = some 7 ∧
    readInt32? "-0" = some 0 ∧ readInt32? "2147483648" = none ∧ readInt32? "-" = none ∧
    readInt32? "+-7" = none ∧ readInt32? " 7" = none ∧ readInt32? "٧" = none := by
  decide +kernel

end Placement.Text.Decimal
