import StatusBoard.MasterList
import StatusBoard.Snapshot
import StatusBoard.Tracking

/-!
# Servers in the master list

An entry names its server by several addresses, and a server has an entry per protocol.  A sighting
is one address of one entry.  The first sighting of an address says what its server is, and all of
them together say which protocols it speaks (`MasterList.serverAt?`).
-/

namespace StatusBoard

/-- The server that an entry describes, at one of its addresses. -/
def ServerInfo.server (i : ServerInfo) (address : String) (protocols : List String) : Server where
  address := address
  protocols := protocols
  name := i.name
  gameType := i.gameType
  passworded := i.passworded
  map := i.map
  version := i.version
  maxClients := i.maxClients
  maxPlayers := i.maxPlayers
  scoring := (i.scoreKind.map Scoring.ofText).getD .points
  clients := i.clients

namespace MasterList

/-- An address of an entry, normalized, with its protocol. -/
structure Sighting where
  address : String
  protocol : String
  info : ServerInfo

/-- The sightings of a list in order.  Addresses that name no server are skipped. -/
def sightings (l : List ListEntry) : List Sighting :=
  l.flatMap fun e =>
    e.addresses.filterMap fun raw =>
      (Address.split? raw).map fun (protocol, address) => ⟨address, protocol, e.info⟩

/-- The server at an address: described by the first sighting, with the protocols of all. -/
def serverAt? (l : List Sighting) (address : String) : Option Server :=
  match l.filter (·.address = address) with
  | [] => none
  | first :: rest =>
    let protocols := ((first :: rest).map Sighting.protocol).filter (· ≠ "")
    some (first.info.server address protocols).canonical

/-- The servers of a list by their addresses, ascending. -/
def servers (l : List ListEntry) : List (String × Server) :=
  let l := sightings l
  (ascending (l.map Sighting.address)).filterMap fun a => (serverAt? l a).map (a, ·)

/-- What the tracked messages show according to a list: the servers that are in the list. -/
def snapshot (l : List ListEntry) (trackings : List Tracking) : Snapshot :=
  let l := sightings l
  .ofList <| trackings.filterMap fun t =>
    (serverAt? l (Address.normalize t.address)).map (t.ref, ·)

end MasterList

end StatusBoard
