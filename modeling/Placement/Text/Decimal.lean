/-! Integers in decimal: how they are written, and which texts are read as one.
Reading is more generous than writing: it admits one plus sign, leading zeros and `-0`. -/
namespace Placement.Text.Decimal

def write : Int → String
  | .ofNat n => n.repr
  | .negSucc n => "-" ++ (n + 1).repr

def digits? (chars : List Char) : Option Nat :=
  if chars ≠ [] ∧ chars.all Char.isDigit then some (Nat.ofDigitChars 10 chars 0) else none

def signed? : List Char → Option Int
  | '-' :: chars => (digits? chars).map (fun (n : Nat) => -(n : Int))
  | '+' :: chars => (digits? chars).map (fun (n : Nat) => (n : Int))
  | chars => (digits? chars).map (fun (n : Nat) => (n : Int))

/-- Reads a text as a 32-bit signed integer. Values beyond the range are refused, not wrapped. -/
def readInt32? (text : String) : Option Int32 :=
  match signed? text.toList with
  | some i =>
    if Int32.minValue.toInt ≤ i ∧ i ≤ Int32.maxValue.toInt then some (Int32.ofInt i) else none
  | none => none

end Placement.Text.Decimal
