import StatusBoard.Text.Numeral

/-!
# Numbers in TOML documents

Integers in four bases and decimal fractions, with underscores between their digits.  Fractions
stand for doubles: those that round to positive infinity are refused (`Decimal.overflows`).
-/

namespace StatusBoard.Toml

/-- Drop the underscores between the digits of a numeral; no other underscore is allowed. -/
def dropUnderscores? (isDigit : Char → Bool) : List Char → Option (List Char)
  | [] => none
  | [c] => if isDigit c then some [c] else none
  | c :: '_' :: rest =>
    if isDigit c then (dropUnderscores? isDigit rest).map (c :: ·) else none
  | c :: rest => if isDigit c then (dropUnderscores? isDigit rest).map (c :: ·) else none

/-- The digits of a numeral in a base. -/
def digits? (base : Nat) (cs : List Char) : Option (List Char) :=
  dropUnderscores? (fun c => (Text.digit? base c).isSome) cs

/-- The value of a numeral in a base. -/
def numeral? (base : Nat) (cs : List Char) : Option Nat :=
  (digits? base cs).bind (Text.numeral? base)

/-- Split a sign off a number. -/
def splitSign : List Char → Bool × List Char
  | '-' :: cs => (true, cs)
  | '+' :: cs => (false, cs)
  | cs => (false, cs)

/-- A number with a sign. -/
def withSign (negative : Bool) (n : Nat) : Int := if negative then -n else n

/-- Whether a numeral in base ten has no needless zero in front. -/
def isPlain (cs : List Char) : Bool := cs.head? ≠ some '0' || cs.length = 1

/-! ### Integers -/

/-- The value of an integer. -/
def integer? (cs : List Char) : Option Int :=
  match cs with
  | '0' :: 'x' :: ds => (numeral? 16 ds).map Int.ofNat
  | '0' :: 'o' :: ds => (numeral? 8 ds).map Int.ofNat
  | '0' :: 'b' :: ds => (numeral? 2 ds).map Int.ofNat
  | cs =>
    let (negative, ds) := splitSign cs
    if isPlain ds then (numeral? 10 ds).map (withSign negative) else none

/-! ### Fractions -/

/-- The number `± mantissa * 10 ^ exponent`. -/
structure Decimal where
  negative : Bool
  mantissa : Nat
  exponent : Int

namespace Decimal

/-- The least number that rounds to infinity: half a unit above the greatest double. -/
def overflowBound : Nat := Nat.pow 2 1024 - Nat.pow 2 970

/-- Whether a number rounds to positive infinity.  No power of ten is computed that is out of
proportion to the text: a natural number times more than `10 ^ 308` is zero or above the bound, and
one that has no more than `k` digits is below `10 ^ k`. -/
def overflows (d : Decimal) : Bool :=
  !d.negative &&
    match d.exponent with
    | .ofNat k => d.mantissa ≠ 0 && (308 < k || overflowBound ≤ d.mantissa * Nat.pow 10 k)
    | .negSucc k =>
      k + 1 < (Text.numeral 10 d.mantissa).length && overflowBound * Nat.pow 10 (k + 1) ≤ d.mantissa

/-- The digits after the decimal point; without a point there are none. -/
def fraction? : List Char → Option (List Char)
  | [] => some []
  | _ :: cs => digits? 10 cs

/-- The exponent after its letter, zero without a letter. -/
def exponent? : List Char → Option Int
  | [] => some 0
  | _ :: cs =>
    let (negative, ds) := splitSign cs
    (numeral? 10 ds).map (withSign negative)

/-- Read a fraction: digits, then a decimal point with digits, or an exponent, or both. -/
def ofText? (cs : List Char) : Option Decimal := do
  let (negative, cs) := splitSign cs
  let isE c := c = 'e' || c = 'E'
  let number := cs.takeWhile (!isE ·)
  let power := cs.dropWhile (!isE ·)
  let whole ← digits? 10 (number.takeWhile (· ≠ '.'))
  let fraction ← fraction? (number.dropWhile (· ≠ '.'))
  let exponent ← exponent? power
  if isPlain whole && (fraction ≠ [] || power ≠ []) then
    return {
      negative := negative
      mantissa := ← Text.numeral? 10 (whole ++ fraction)
      exponent := exponent - fraction.length }
  else none

end Decimal

/-- Whether a text is a floating-point number. -/
def isFloat (cs : List Char) : Bool :=
  (splitSign cs).2 ∈ [['i', 'n', 'f'], ['n', 'a', 'n']] ||
    (Decimal.ofText? cs).any (!·.overflows)

end StatusBoard.Toml
