import StatusBoard.Address
import StatusBoard.Server

/-!
# The master list

The master list is flat: an entry per registration, and a server that speaks several protocols
registers several times.  `sightings` lists every address with the entry that names it, and
`serverAt?` folds the sightings of an address into one server.
-/

namespace StatusBoard

/-- What an entry of the master list says about its server. -/
structure ServerInfo where
  maxClients : UInt32 := 0
  maxPlayers : UInt32 := 0
  passworded : Bool := false
  gameType : String := ""
  name : String := ""
  map : MapInfo := ⟨"", none, none⟩
  version : String := ""
  scoreKind : Option String := none
  clients : List Client := []
deriving DecidableEq, Inhabited

/-- An entry of the master list: addresses of the form `protocol://ip:port` and the server. -/
structure ListEntry where
  addresses : List String
  location : Option String
  info : ServerInfo
deriving DecidableEq, Inhabited

end StatusBoard
