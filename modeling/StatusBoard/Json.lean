/-!
# JSON documents

The values that a JSON text stands for.  Numbers keep their spelling, because readers ask how a
number was written, and strings may hold halves of surrogate pairs, which a text can spell although
they are no characters.
-/

namespace StatusBoard

namespace Json

/-- A unit of a JSON string: a character, or a surrogate that was written as an escape. -/
inductive Piece
  | char (c : Char)
  | surrogate (code : Nat)
deriving DecidableEq

/-- The contents of a JSON string. -/
abbrev Literal := List Piece

namespace Literal

/-- The string literal of a text. -/
def ofText (s : String) : Literal := s.toList.map .char

/-- The character of a pair of surrogates. -/
def pair? (high low : Nat) : Option Char :=
  if 0xD800 ≤ high ∧ high < 0xDC00 ∧ 0xDC00 ≤ low ∧ low < 0xE000 then
    some (Char.ofNat (0x10000 + (high - 0xD800) * 0x400 + (low - 0xDC00)))
  else none

/-- The characters of a literal whose surrogates come in pairs. -/
def chars? : Literal → Option (List Char)
  | [] => some []
  | .char c :: rest => (chars? rest).map (c :: ·)
  | .surrogate high :: .surrogate low :: rest => do return (← pair? high low) :: (← chars? rest)
  | .surrogate _ :: _ => none

/-- The text of a literal, if it is one: a surrogate without its other half spells no text. -/
def text? (l : Literal) : Option String := (chars? l).map String.ofList

end Literal

end Json

/-- A JSON value.  The members of an object stay in the order in which they were written, also
those of the same name. -/
inductive Json
  | null
  | bool (b : Bool)
  | number (spelling : String)
  | string (s : Json.Literal)
  | array (items : List Json)
  | object (members : List (Json.Literal × Json))
deriving Inhabited

namespace Json

/-- The string value of a text. -/
def ofString (s : String) : Json := .string (.ofText s)

/-- The number value of an integer. -/
def ofInt (i : Int) : Json := .number (toString i)

/-- The number value of a natural number. -/
def ofNat (n : Nat) : Json := .number (toString n)

/-- The object with these members. -/
def ofMembers (members : List (String × Json)) : Json :=
  .object (members.map fun m => (.ofText m.1, m.2))

end Json

end StatusBoard
