import StatusBoard.Text.Cut
import StatusBoard.Text.Numeral

/-!
# Socket addresses

An IPv4 or IPv6 address with a port, and its text.  `SocketAddress.ofText?` reads every usual
spelling: any capitalisation of hexadecimal digits, an elision of zero groups anywhere, an IPv4
address as the last two groups, and leading zeros in groups, scopes and ports.
`SocketAddress.text` writes the one canonical spelling: small letters, no leading zeros, and the
first of the longest runs of at least two zero groups elided.
-/

namespace StatusBoard

/-- The four octets of an IPv4 address. -/
structure Ipv4 where
  a : UInt8
  b : UInt8
  c : UInt8
  d : UInt8
deriving DecidableEq, Inhabited

/-- The eight groups of an IPv6 address. -/
abbrev Ipv6 := Vector UInt16 8

/-- An address that servers listen on.  The scope of an IPv6 address is zero if it has none. -/
inductive SocketAddress
  | v4 (ip : Ipv4) (port : UInt16)
  | v6 (ip : Ipv6) (scope : UInt32) (port : UInt16)
deriving DecidableEq, Inhabited

namespace Ipv4

/-- Read an octet: at most three decimal digits, without leading zeros. -/
def octet? (cs : List Char) : Option UInt8 :=
  if 3 < cs.length ∨ (1 < cs.length ∧ cs.head? = some '0') then none
  else (Text.numeralBelow? UInt8.size 10 cs).map Nat.toUInt8

/-- Read four octets that are separated by dots. -/
def ofText? (cs : List Char) : Option Ipv4 :=
  match cs.splitOn '.' with
  | [a, b, c, d] => do return ⟨← octet? a, ← octet? b, ← octet? c, ← octet? d⟩
  | _ => none

/-- Four octets that are separated by dots. -/
def text (ip : Ipv4) : List Char :=
  let octet (n : UInt8) := Text.numeral 10 n.toNat
  ['.'].intercalate [octet ip.a, octet ip.b, octet ip.c, octet ip.d]

/-- The address as two groups of an IPv6 address. -/
def groups (ip : Ipv4) : List UInt16 :=
  [ip.a.toUInt16 <<< 8 ||| ip.b.toUInt16, ip.c.toUInt16 <<< 8 ||| ip.d.toUInt16]

/-- The address whose octets are the bytes of two groups. -/
def ofGroups (g h : UInt16) : Ipv4 :=
  ⟨(g >>> 8).toUInt8, g.toUInt8, (h >>> 8).toUInt8, h.toUInt8⟩

end Ipv4

namespace Ipv6

/-- Read a group: at most four hexadecimal digits. -/
def group? (cs : List Char) : Option UInt16 :=
  if 4 < cs.length then none else (Text.numeralBelow? UInt16.size 16 cs).map Nat.toUInt16

/-- Read the groups before an elision. -/
def headGroups? (cs : List Char) : Option (List UInt16) :=
  if cs.isEmpty then some [] else (cs.splitOn ':').mapM group?

/-- Read groups at the end of an address; the last two may be written as an IPv4 address. -/
def lastGroups? : List (List Char) → Option (List UInt16)
  | [] => some []
  | [last] =>
    match Ipv4.ofText? last with
    | some ip => some ip.groups
    | none => (group? last).map ([·])
  | g :: rest => do return (← group? g) :: (← lastGroups? rest)

/-- Read the groups after an elision. -/
def tailGroups? (cs : List Char) : Option (List UInt16) :=
  if cs.isEmpty then some [] else lastGroups? (cs.splitOn ':')

/-- An address of these groups, if there are eight. -/
def ofGroups? (groups : List UInt16) : Option Ipv6 :=
  if h : groups.length = 8 then some ⟨groups.toArray, by simpa using h⟩ else none

/-- Read an address: eight groups, or fewer with an elision of at least one zero group. -/
def ofText? (cs : List Char) : Option Ipv6 :=
  match Text.cut? [':', ':'] cs with
  | none => (lastGroups? (cs.splitOn ':')).bind ofGroups?
  | some (before, after) => do
    let before ← headGroups? before
    let after ← tailGroups? after
    if 8 ≤ before.length + after.length then none
    else
      let zeros := List.replicate (8 - (before.length + after.length)) 0
      ofGroups? (before ++ zeros ++ after)

/-- The start and the length of the first of the longest runs of zero groups. -/
def longestZeroRun : List UInt16 → Nat × Nat
  | [] => (0, 0)
  | g :: rest =>
    let here := ((g :: rest).takeWhile (· = 0)).length
    let (start, length) := longestZeroRun rest
    if length ≤ here then (0, here) else (start + 1, length)

/-- Groups that are separated by colons. -/
def groupsText (groups : List UInt16) : List Char :=
  [':'].intercalate (groups.map fun g => Text.numeral 16 g.toNat)

/-- The canonical text of an address.  Addresses that stand for IPv4 addresses show their octets. -/
def text (ip : Ipv6) : List Char :=
  match ip.toList with
  | [0, 0, 0, 0, 0, 0xffff, g, h] => "::ffff:".toList ++ (Ipv4.ofGroups g h).text
  | groups =>
    let (start, length) := longestZeroRun groups
    if length ≤ 1 then groupsText groups
    else groupsText (groups.take start) ++ "::".toList ++ groupsText (groups.drop (start + length))

end Ipv6

namespace SocketAddress

/-- The port. -/
def port : SocketAddress → UInt16
  | v4 _ p => p
  | v6 _ _ p => p

/-- Read a port. -/
def port? (cs : List Char) : Option UInt16 :=
  (Text.numeralBelow? UInt16.size 10 cs).map Nat.toUInt16

/-- Read the scope of an IPv6 address: a percent sign and a number, or nothing for zero. -/
def scope? : List Char → Option UInt32
  | [] => some 0
  | '%' :: cs => (Text.numeralBelow? UInt32.size 10 cs).map Nat.toUInt32
  | _ => none

/-- Read an IPv4 address and a port. -/
def ofTextV4? (cs : List Char) : Option SocketAddress :=
  match cs.splitOn ':' with
  | [ip, port] => do return v4 (← Ipv4.ofText? ip) (← port? port)
  | _ => none

/-- Read an IPv6 address with its scope in brackets, and a port. -/
def ofTextV6? : List Char → Option SocketAddress
  | '[' :: cs =>
    let inside := cs.takeWhile (· ≠ ']')
    match cs.dropWhile (· ≠ ']') with
    | ']' :: ':' :: port => do
      let ip ← Ipv6.ofText? (inside.takeWhile (· ≠ '%'))
      let scope ← scope? (inside.dropWhile (· ≠ '%'))
      return v6 ip scope (← port? port)
    | _ => none
  | _ => none

/-- Read a socket address. -/
def ofText? (s : String) : Option SocketAddress :=
  ofTextV4? s.toList <|> ofTextV6? s.toList

/-- The text of a scope: nothing for zero. -/
def scopeText (scope : UInt32) : List Char :=
  if scope = 0 then [] else '%' :: Text.numeral 10 scope.toNat

/-- The canonical text. -/
def text : SocketAddress → String
  | v4 ip port => String.ofList (ip.text ++ ':' :: Text.numeral 10 port.toNat)
  | v6 ip scope port =>
    String.ofList <|
      '[' :: ip.text ++ scopeText scope ++ ']' :: ':' :: Text.numeral 10 port.toNat

end SocketAddress

end StatusBoard
