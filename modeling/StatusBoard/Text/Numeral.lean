/-!
# Numerals

Reading and writing natural numbers in positional notation, in bases up to sixteen.
-/

namespace StatusBoard.Text

/-- The value of a digit, in either case of the letters from `a` to `f`. -/
def digitValue? (c : Char) : Option Nat :=
  if '0' ≤ c ∧ c ≤ '9' then some (c.toNat - '0'.toNat)
  else if 'a' ≤ c ∧ c ≤ 'f' then some (c.toNat - 'a'.toNat + 10)
  else if 'A' ≤ c ∧ c ≤ 'F' then some (c.toNat - 'A'.toNat + 10)
  else none

/-- The value of a digit in a base. -/
def digit? (base : Nat) (c : Char) : Option Nat := (digitValue? c).filter (· < base)

/-- The value of a numeral; leading zeros are allowed, an empty text is no numeral. -/
def numeral? (base : Nat) (cs : List Char) : Option Nat :=
  if cs.isEmpty then none
  else cs.foldlM (fun n c => (digit? base c).map (n * base + ·)) 0

/-- The value of a numeral below a bound. -/
def numeralBelow? (bound base : Nat) (cs : List Char) : Option Nat :=
  (numeral? base cs).filter (· < bound)

/-- The shortest numeral of a number, with small letters. -/
def numeral (base n : Nat) : List Char := Nat.toDigits base n

end StatusBoard.Text
