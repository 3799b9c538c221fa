import StatusBoard.Address.Socket
import StatusBoard.Text.Blank

/-!
# Server addresses

The master list names a server by `protocol://ip:port`, and users name it by any spelling of
`ip:port`.  Both meet in the canonical text of the socket address.
-/

namespace StatusBoard.Address

/-- The canonical text of a socket address; a text that is none is kept as it is. -/
def normalize (address : String) : String :=
  match SocketAddress.ofText? address with
  | some a => a.text
  | none => address

/-- The protocol in front of the first `://`, empty if there is none, and the text behind it. -/
def splitScheme (raw : String) : String × List Char :=
  match Text.cut? [':', '/', '/'] raw.toList with
  | some (scheme, rest) => (String.ofList scheme, rest)
  | none => ("", raw.toList)

/-- The part of an address that names the server: without blanks around it and without the slashes
at its end. -/
def core (cs : List Char) : List Char := Text.dropEndWhile (· = '/') (Text.trim cs)

/-- Split an address of the master list into its protocol and the normalized address of the server.
An address without a server has no parts. -/
def split? (raw : String) : Option (String × String) :=
  let (scheme, rest) := splitScheme raw
  match core rest with
  | [] => none
  | cs => some (scheme, normalize (String.ofList cs))

/-- Why an address that a user gives is refused. -/
inductive Fault
  | empty
  | unreadable (address : String)
  | zeroPort
deriving DecidableEq

/-- The text shown for a refused address. -/
def Fault.message : Fault → String
  | empty => "Address cannot be empty"
  | unreadable address => s!"'{address}' is not an ip:port address"
  | zeroPort => "Port cannot be 0"

/-- Check an address that a user gives, with or without a protocol, and normalize it. -/
def validate (raw : String) : Except Fault String :=
  match split? (String.ofList (Text.trim raw.toList)) with
  | none => .error .empty
  | some (_, address) =>
    match SocketAddress.ofText? address with
    | none => .error (.unreadable address)
    | some a => if a.port = 0 then .error .zeroPort else .ok a.text

end StatusBoard.Address
