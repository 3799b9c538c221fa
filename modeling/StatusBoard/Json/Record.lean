import StatusBoard.Json
import StatusBoard.Text.Numeral

/-!
# Reading values out of JSON

A record may be written as an object or as an array of its fields in order.  In an object unknown
members are skipped and a known member may occur once; in an array trailing fields may be missing.
-/

namespace StatusBoard.Json

/-- A truth value. -/
def bool? : Json → Option Bool
  | bool b => some b
  | _ => none

/-- A text. -/
def text? : Json → Option String
  | string s => s.text?
  | _ => none

/-- The integer that a spelling without fraction and exponent stands for.  A zero has no sign. -/
def integer? (spelling : List Char) : Option Int :=
  match spelling with
  | '-' :: digits => (Text.numeral? 10 digits).bind fun n => if n = 0 then none else some (-n)
  | digits => (Text.numeral? 10 digits).map Int.ofNat

/-- An integer between two bounds, the upper one excluded. -/
def int? (low high : Int) : Json → Option Int
  | number spelling => (integer? spelling.toList).filter fun i => low ≤ i && i < high
  | _ => none

/-- A signed integer of 32 bits. -/
def int32? (j : Json) : Option Int32 :=
  (j.int? Int32.minValue.toInt (Int32.maxValue.toInt + 1)).map Int32.ofInt

/-- A natural number of 32 bits. -/
def uint32? (j : Json) : Option UInt32 :=
  (j.int? 0 (.ofNat UInt32.size)).map fun i => i.toNat.toUInt32

/-- A natural number of 64 bits. -/
def uint64? (j : Json) : Option UInt64 :=
  (j.int? 0 (.ofNat UInt64.size)).map fun i => i.toNat.toUInt64

/-- A list. -/
def list? {α : Type} (read : Json → Option α) : Json → Option (List α)
  | array items => items.mapM read
  | _ => none

/-- The values of a record's fields. -/
abbrev Fields := String → Option Json

/-- The members of an object by their names, which have to be texts. -/
def namedMembers? (members : List (Literal × Json)) : Option (List (String × Json)) :=
  members.mapM fun m => m.1.text?.map (·, m.2)

/-- The fields of a record.  Fields without a value are missing. -/
def fields? (names : List String) : Json → Option Fields
  | array items =>
    if names.length < items.length then none else some fun n => (names.zip items).lookup n
  | object members => do
    let named ← namedMembers? members
    let once n := (named.filter (·.1 = n)).length ≤ 1
    if names.all once then some fun n => named.lookup n else none
  | _ => none

/-- A field that has to be there. -/
def required {α : Type} (read : Json → Option α) (field : Option Json) : Option α :=
  field.bind read

/-- A field that has a default. -/
def withDefault {α : Type} (default : α) (read : Json → Option α) : Option Json → Option α
  | none => some default
  | some j => read j

/-- A field that may be missing or null. -/
def nullable {α : Type} (read : Json → Option α) : Option Json → Option (Option α)
  | none | some null => some none
  | some j => (read j).map some

end StatusBoard.Json
