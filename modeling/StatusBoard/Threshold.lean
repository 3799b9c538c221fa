import StatusBoard.MessageRef

/-!
# Client-count thresholds

A user who reacts to a status message with one of ten number emoji asks to be mentioned when that
many clients are connected.
-/

namespace StatusBoard

/-- A number of clients from one to ten. -/
structure Threshold where
  clients : Nat
  one_le : 1 ≤ clients
  le_ten : clients ≤ 10
deriving DecidableEq

namespace Threshold

/-- The threshold of a number, if the number is in range. -/
def ofNat? (n : Nat) : Option Threshold :=
  if h : 1 ≤ n ∧ n ≤ 10 then some ⟨n, h.1, h.2⟩ else none

/-- The threshold of an integer, if the integer is in range. -/
def ofInt? (i : Int) : Option Threshold := if i < 0 then none else ofNat? i.toNat

/-- All thresholds, ascending. -/
def all : List Threshold := (List.range' 1 10).filterMap ofNat?

/-- Whether a server with this many clients reaches the threshold. -/
def fires (t : Threshold) (clients : Nat) : Bool := t.clients ≤ clients

/-- The variation selector that asks for an emoji's coloured form. -/
def emojiForm : Char := '\uFE0F'

/-- The emoji of a threshold: a keycap for one to nine, and the keycap of ten. -/
def emoji (t : Threshold) : String :=
  if t.clients = 10 then "🔟"
  else toString t.clients ++ String.ofList [emojiForm, '\u20E3']

/-- An emoji without its form selectors, which platforms add or leave out. -/
def bareEmoji (s : String) : List Char := s.toList.filter (· ≠ emojiForm)

/-- The threshold that an emoji stands for. -/
def ofEmoji? (s : String) : Option Threshold := all.find? fun t => bareEmoji t.emoji = bareEmoji s

end Threshold

/-- The wish of a user to be mentioned in a status message from a number of clients on. -/
structure Subscription where
  ref : MessageRef
  user : UInt64
  threshold : Threshold
deriving DecidableEq

end StatusBoard
