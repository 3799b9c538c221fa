import StatusBoard.Toml
import StatusBoard.Toml.Number

/-!
# Reading TOML documents

Reads the parts of TOML 1.0 that configuration files are written in: comments, headers, dotted and
quoted keys, strings of one line, numbers, truth values, arrays and inline tables.  Documents with
strings of several lines or with dates and times are refused.  Values do not nest deeper than
`maxDepth`.
-/

namespace StatusBoard.Toml

/-- A reader of some part of a text.  It takes what it reads off the front, and fails if the text
does not start with such a part. -/
abbrev Scan := StateT (List Char) Option

namespace Scan

/-- The next character. -/
def peek : Scan (Option Char) := return (← get).head?

/-- Take the next character. -/
def next : Scan Char := do
  match ← get with
  | [] => failure
  | c :: rest => set rest; return c

/-- Take a given character. -/
def expect (c : Char) : Scan Unit := do
  if (← next) ≠ c then failure

/-- Take a given character if it is next, and say whether it was. -/
def accept (c : Char) : Scan Bool := do
  if (← peek) = some c then
    let _ ← next
    return true
  else return false

/-- Take the characters of a class. -/
def takeWhile (p : Char → Bool) : Scan (List Char) :=
  modifyGet fun cs => (cs.takeWhile p, cs.dropWhile p)

/-- Skip the blanks of a line. -/
def blanks : Scan Unit := do
  let _ ← takeWhile fun c => c = ' ' || c = '\t'

end Scan

open Scan

/-! ### Strings and keys -/

/-- Whether a character may not stand in a string or a comment. -/
def isControl (c : Char) : Bool := (c.toNat < 0x20 && c ≠ '\t') || c.toNat = 0x7F

/-- The character of a hexadecimal code. -/
def charOfCode? (digits : List Char) : Option Char := do
  let n ← Text.numeral? 16 digits
  if n < 0xD800 ∨ (0xE000 ≤ n ∧ n < 0x110000) then return Char.ofNat n else none

/-- The character of an escape of one letter. -/
def escaped? : Char → Option Char
  | 'b' => some '\x08'
  | 't' => some '\t'
  | 'n' => some '\n'
  | 'f' => some '\x0c'
  | 'r' => some '\r'
  | '"' => some '"'
  | '\\' => some '\\'
  | _ => none

/-- The characters of a basic string up to its closing quote, and the text after it. -/
def basicString? : List Char → Option (List Char × List Char)
  | [] => none
  | '"' :: rest => some ([], rest)
  | '\\' :: 'u' :: a :: b :: c :: d :: rest => do
    let x ← charOfCode? [a, b, c, d]
    let (cs, rest) ← basicString? rest
    return (x :: cs, rest)
  | '\\' :: 'U' :: a :: b :: c :: d :: e :: f :: g :: h :: rest => do
    let x ← charOfCode? [a, b, c, d, e, f, g, h]
    let (cs, rest) ← basicString? rest
    return (x :: cs, rest)
  | '\\' :: c :: rest => do
    let x ← escaped? c
    let (cs, rest) ← basicString? rest
    return (x :: cs, rest)
  | c :: rest =>
    if isControl c || c = '\\' then none
    else (basicString? rest).map fun (cs, rest) => (c :: cs, rest)

/-- The characters of a literal string up to its closing quote, and the text after it. -/
def literalString? : List Char → Option (List Char × List Char)
  | [] => none
  | '\'' :: rest => some ([], rest)
  | c :: rest =>
    if isControl c then none else (literalString? rest).map fun (cs, rest) => (c :: cs, rest)

/-- Read the rest of a string after its opening quote. -/
def quoted (string? : List Char → Option (List Char × List Char)) : Scan String := do
  let (cs, rest) ← string? (← get)
  set rest
  return String.ofList cs

/-- Whether a character may stand in a key without quotes. -/
def isBareKey (c : Char) : Bool := c.isAlphanum || c = '_' || c = '-'

/-- Read a key without dots. -/
def simpleKey : Scan String := do
  if ← accept '"' then quoted basicString?
  else if ← accept '\'' then quoted literalString?
  else
    match ← takeWhile isBareKey with
    | [] => failure
    | cs => return String.ofList cs

/-- How many arrays and inline tables may be open at a time, and how many parts a key may have. -/
def maxDepth : Nat := 79

/-- Read a key of at most so many parts: the path to a table, and a key of that table. -/
def keyParts : Nat → Scan (List String × String)
  | 0 => failure
  | parts + 1 => do
    let key ← simpleKey
    blanks
    if ← accept '.' then
      blanks
      let (path, last) ← keyParts parts
      return (key :: path, last)
    else return ([], key)

/-- Read a key. -/
def dottedKey : Scan (List String × String) := keyParts maxDepth

/-! ### Numbers and truth values -/

/-- The value of a text that is no string, array or table.  Integers have 64 bits. -/
def bare? (cs : List Char) : Option Toml :=
  if cs = ['t', 'r', 'u', 'e'] then some (.boolean true)
  else if cs = ['f', 'a', 'l', 's', 'e'] then some (.boolean false)
  else
    match integer? cs with
    | some i =>
      if Int64.minValue.toInt ≤ i ∧ i ≤ Int64.maxValue.toInt then some (.integer i) else none
    | none => if isFloat cs then some (.float (String.ofList cs)) else none

/-- Whether a character may stand in a number or a truth value. -/
def isBare (c : Char) : Bool := isBareKey c || c = '+' || c = '.'

/-! ### Values -/

/-- Take the end of a line. -/
def newline : Scan Unit := do
  let _ ← accept '\r'
  expect '\n'

/-- Take a comment, if one is next. -/
def comment : Scan Unit := do
  if ← accept '#' then
    let _ ← takeWhile fun c => !isControl c

/-- Skip blanks, comments and line ends. -/
def spaces : Nat → Scan Unit
  | 0 => failure
  | fuel + 1 => do
    blanks
    comment
    match ← peek with
    | some '\r' | some '\n' => newline; spaces fuel
    | _ => return

mutual

/-- Read a value in which `room` more arrays and inline tables may be open at a time. -/
def value (room : Nat) : Nat → Scan Toml
  | 0 => failure
  | fuel + 1 => do
    if ← accept '"' then return .string (← quoted basicString?)
    else if ← accept '\'' then return .string (← quoted literalString?)
    else if ← accept '[' then
      match room with
      | 0 => failure
      | room + 1 => return .array (← items room fuel)
    else if ← accept '\x7b' then
      match room with
      | 0 => failure
      | room + 1 =>
        blanks
        if ← accept '\x7d' then return .table []
        else return .table (ofMembers (← members room fuel []))
    else bare? (← takeWhile isBare)
termination_by structural fuel => fuel

/-- Read the items of an array and its end. -/
def items (room : Nat) : Nat → Scan (List Toml)
  | 0 => failure
  | fuel + 1 => do
    spaces fuel
    if ← accept ']' then return []
    let v ← value room fuel
    spaces fuel
    if ← accept ',' then return v :: (← items room fuel)
    expect ']'
    return [v]
termination_by structural fuel => fuel

/-- Read the members of an inline table and its end. -/
def members (room : Nat) : Nat → Members → Scan Members
  | 0, _ => failure
  | fuel + 1, m => do
    let (path, key, v) ← assignment room fuel
    let m ← m.assign path key v
    blanks
    if ← accept ',' then
      blanks
      members room fuel m
    else
      expect '\x7d'
      return m
termination_by structural fuel => fuel

/-- Read a key and its value. -/
def assignment (room : Nat) : Nat → Scan (List String × String × Toml)
  | 0 => failure
  | fuel + 1 => do
    let (path, key) ← dottedKey
    expect '='
    blanks
    return (path, key, ← value room fuel)
termination_by structural fuel => fuel

end

/-! ### Documents -/

/-- A document that has been read in part, and the path to the table that is open. -/
structure Draft where
  root : Members
  current : List String

/-- Read a header and open its table. -/
def header (d : Draft) : Scan Draft := do
  expect '['
  let isArray ← accept '['
  blanks
  let (path, key) ← dottedKey
  expect ']'
  if isArray then expect ']'
  let root ← if isArray then d.root.openNext path key else d.root.openTable path key
  return ⟨root, path ++ [key]⟩

/-- Read a key and its value into the open table. -/
def keyValue (fuel : Nat) (d : Draft) : Scan Draft := do
  let (path, key, v) ← assignment maxDepth fuel
  return { d with root := ← d.root.descend d.current fun m => m.assign path key v }

/-- Read the lines of a document. -/
def lines : Nat → Draft → Scan Draft
  | 0, _ => failure
  | fuel + 1, d => do
    blanks
    let d ← match ← peek with
      | none | some '#' | some '\r' | some '\n' => pure d
      | some '[' => header d
      | some _ => keyValue fuel d
    blanks
    comment
    if (← peek).isNone then return d
    newline
    lines fuel d

/-- The members of the table that a document stands for.  A byte-order mark may come first. -/
def parse? : Parser := fun s =>
  let cs := match s.toList with
    | '\uFEFF' :: cs => cs
    | cs => cs
  ((lines (cs.length + 2) ⟨[], []⟩).run' cs).map fun d => ofMembers d.root

end StatusBoard.Toml
