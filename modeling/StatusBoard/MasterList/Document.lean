import StatusBoard.Json.Document
import StatusBoard.Json.Record
import StatusBoard.MasterList

/-!
# The master list as a JSON document

`MasterList.parse?` reads a list and `MasterList.render` writes one.  A missing field reads as its
default, and an optional field without a value is not written.
-/

namespace StatusBoard

open Json (required withDefault nullable)

/-! ### Reading -/

/-- Read a client.  A client without a country code has code -1, and clients are players unless the
list says otherwise. -/
def Client.ofJson? (j : Json) : Option Client := do
  let field ← j.fields? ["name", "clan", "country", "score", "is_player", "team"]
  return {
    name := ← withDefault "" Json.text? (field "name")
    clan := ← withDefault "" Json.text? (field "clan")
    country := ← withDefault (-1) Json.int32? (field "country")
    score := ← withDefault 0 Json.int32? (field "score")
    isPlayer := ← withDefault true Json.bool? (field "is_player")
    team := ← withDefault 0 Json.int32? (field "team") }

/-- Read a map. -/
def MapInfo.ofJson? (j : Json) : Option MapInfo := do
  let field ← j.fields? ["name", "sha256", "size"]
  return {
    name := ← withDefault "" Json.text? (field "name")
    sha256 := ← nullable Json.text? (field "sha256")
    size := ← nullable Json.uint64? (field "size") }

/-- Read what the list says about a server. -/
def ServerInfo.ofJson? (j : Json) : Option ServerInfo := do
  let field ← j.fields? ["max_clients", "max_players", "passworded", "game_type", "name", "map",
    "version", "client_score_kind", "clients"]
  return {
    maxClients := ← withDefault 0 Json.uint32? (field "max_clients")
    maxPlayers := ← withDefault 0 Json.uint32? (field "max_players")
    passworded := ← withDefault false Json.bool? (field "passworded")
    gameType := ← withDefault "" Json.text? (field "game_type")
    name := ← withDefault "" Json.text? (field "name")
    map := ← withDefault ⟨"", none, none⟩ MapInfo.ofJson? (field "map")
    version := ← withDefault "" Json.text? (field "version")
    scoreKind := ← nullable Json.text? (field "client_score_kind")
    clients := ← withDefault [] (Json.list? Client.ofJson?) (field "clients") }

/-- Read an entry. -/
def ListEntry.ofJson? (j : Json) : Option ListEntry := do
  let field ← j.fields? ["addresses", "location", "info"]
  return {
    addresses := ← withDefault [] (Json.list? Json.text?) (field "addresses")
    location := ← nullable Json.text? (field "location")
    info := ← required ServerInfo.ofJson? (field "info") }

namespace MasterList

/-- Read the entries of a list. -/
def ofJson? (j : Json) : Option (List ListEntry) := do
  let field ← j.fields? ["servers"]
  withDefault [] (Json.list? ListEntry.ofJson?) (field "servers")

/-- Read the entries of a list from its text. -/
def parse? (s : String) : Option (List ListEntry) := (Json.parse? s).bind ofJson?

end MasterList

/-! ### Writing -/

/-- A member that is always written. -/
private def member (name : String) (j : Json) : List (String × Json) := [(name, j)]

/-- A member that is written if it has a value. -/
private def memberIfSome {α : Type} (name : String) (write : α → Json) (value : Option α) :
    List (String × Json) :=
  value.toList.map fun a => (name, write a)

/-- Write a client. -/
def Client.toJson (c : Client) : Json :=
  .ofMembers <|
    member "name" (.ofString c.name) ++ member "clan" (.ofString c.clan) ++
    member "country" (.ofInt c.country.toInt) ++ member "score" (.ofInt c.score.toInt) ++
    member "is_player" (.bool c.isPlayer) ++ member "team" (.ofInt c.team.toInt)

/-- Write a map. -/
def MapInfo.toJson (m : MapInfo) : Json :=
  .ofMembers <|
    member "name" (.ofString m.name) ++ memberIfSome "sha256" .ofString m.sha256 ++
    memberIfSome "size" (fun n => .ofNat n.toNat) m.size

/-- Write what the list says about a server. -/
def ServerInfo.toJson (i : ServerInfo) : Json :=
  .ofMembers <|
    member "max_clients" (.ofNat i.maxClients.toNat) ++
    member "max_players" (.ofNat i.maxPlayers.toNat) ++ member "passworded" (.bool i.passworded) ++
    member "game_type" (.ofString i.gameType) ++ member "name" (.ofString i.name) ++
    member "map" i.map.toJson ++ member "version" (.ofString i.version) ++
    memberIfSome "client_score_kind" .ofString i.scoreKind ++
    member "clients" (.array (i.clients.map Client.toJson))

/-- Write an entry. -/
def ListEntry.toJson (e : ListEntry) : Json :=
  .ofMembers <|
    member "addresses" (.array (e.addresses.map .ofString)) ++
    memberIfSome "location" .ofString e.location ++ member "info" e.info.toJson

namespace MasterList

/-- Write the entries of a list. -/
def toJson (l : List ListEntry) : Json :=
  .ofMembers (member "servers" (.array (l.map ListEntry.toJson)))

/-- The text of a list. -/
def render (l : List ListEntry) : String := (toJson l).render

end MasterList

end StatusBoard
