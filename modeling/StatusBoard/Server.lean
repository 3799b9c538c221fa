/-!
# Game servers

What a status message shows about a game server: the server's own data and its connected clients.
-/

namespace StatusBoard

/-- What the scores of a server's clients mean. -/
inductive Scoring
  /-- Points, the more the better. -/
  | points
  /-- Seconds to the finish, the fewer the better. -/
  | time
deriving DecidableEq, Inhabited

namespace Scoring

/-- The name of a kind of score in the master list. -/
def text : Scoring → String
  | points => "points"
  | time => "time"

/-- Read the kind of score: `time` in any capitalisation of its letters, and points otherwise. -/
def ofText (s : String) : Scoring :=
  if s.toList.map Char.toLower = ['t', 'i', 'm', 'e'] then time else points

/-- The name of a kind of score is read as that kind. -/
@[simp]
theorem ofText_text (k : Scoring) : ofText k.text = k := by cases k <;> decide

end Scoring

/-- The map that a server runs. -/
structure MapInfo where
  name : String
  sha256 : Option String
  size : Option UInt64
deriving DecidableEq, Inhabited

/-- A client that is connected to a server.  `country` is an ISO 3166-1 numeric code or negative. -/
structure Client where
  name : String
  clan : String
  country : Int32
  score : Int32
  isPlayer : Bool
  team : Int32
deriving DecidableEq, Inhabited

/-- Whether the score is a finish time.  The scores of clients that have not finished are
negative. -/
def Client.hasTime (c : Client) : Bool := 0 ≤ c.score

/-- A game server with its clients. -/
structure Server where
  address : String
  protocols : List String
  name : String
  gameType : String
  passworded : Bool
  map : MapInfo
  version : String
  maxClients : UInt32
  maxPlayers : UInt32
  scoring : Scoring
  clients : List Client
deriving DecidableEq, Inhabited

/-- How many clients are connected, players or not. -/
def Server.clientCount (s : Server) : Nat := s.clients.length

end StatusBoard
