import StatusBoard.Changes
import StatusBoard.Message
import StatusBoard.Message.ClientLine

/-!
# The content of status messages

An online server is shown by a header, the mentioned users and its clients.  Mentions and client
lines are placed whole or not at all, as long as the message stays within its limit; clients that
find no place are summed up in a marker at the end.  Placing keeps room for the marker: before any
mention for the marker of all clients, and before each line for the marker of the lines after it.
All lines are formatted before any is placed, so a table that cannot be formatted leaves no message.
-/

namespace StatusBoard

namespace Message

/-- Server names are shown up to this many characters. -/
def maxNameLength : Nat := 128

/-- The start of a server's name as literal text. -/
def displayName (name : String) : String :=
  Text.escape (String.ofList (name.toList.take maxNameLength))

/-- The server's name in bold. -/
def title (s : Server) : String := "**" ++ displayName s.name ++ "**"

/-- The first line: the name, how many clients are connected and how many may be. -/
def header (s : Server) : String := s!"{title s} ({s.clientCount}/{s.maxClients})"

/-- The mention of a user. -/
def mentionToken (user : UInt64) : String := s!"<@{user}>"

/-- The end of a message that leaves out some clients. -/
def marker (omitted : Nat) : String := s!"\n... and {omitted} more"

/-- The room to keep for the marker of this many clients: none if there is none to leave out. -/
def markerRoom (omitted : Nat) : Nat := if omitted = 0 then 0 else (marker omitted).length

/-- The first tokens that fit, each with one separator, into `room` characters. -/
def placeTokens (room : Nat) : List String → List String
  | [] => []
  | t :: rest =>
    if t.length + 1 ≤ room then t :: placeTokens (room - (t.length + 1)) rest else []

/-- The first lines that fit, each with its line break, into `room` characters when room is kept for
the marker of the lines after them. -/
def placeLines (room : Nat) : List String → List String
  | [] => []
  | l :: rest =>
    if l.length + 1 + markerRoom rest.length ≤ room then
      l :: placeLines (room - (l.length + 1)) rest
    else []

/-- The mentions on a line of their own, if there are any. -/
def mentionsText (tokens : List String) : String :=
  if tokens.isEmpty then "" else "\n" ++ " ".intercalate tokens

/-- Lines, each on a line of its own. -/
def linesText (lines : List String) : String := String.join (lines.map ("\n" ++ ·))

/-- The mentions that find a place in the message about a server. -/
def placedMentions (s : Server) (mentions : List UInt64) : List String :=
  placeTokens (maxLength - (header s).length - markerRoom s.clientCount) (mentions.map mentionToken)

/-- The message about an online server whose clients have these lines. -/
def compose (s : Server) (mentions : List UInt64) (lines : List String) : String :=
  let top := header s ++ mentionsText (placedMentions s mentions)
  let placed := placeLines (maxLength - top.length) lines
  let omitted := lines.length - placed.length
  top ++ linesText placed ++ (if omitted = 0 then "" else marker omitted)

/-- The message about an online server, if its clients can be formatted. -/
def online (s : Server) (mentions : List UInt64) : Option String :=
  (clientLines s).map (compose s mentions)

/-- The message about a server that dropped out of the master list. -/
def offline (s : Server) : String :=
  title s ++ " is offline\n" ++ Text.codeSpan (Text.codeSafe s.address)

/-- The message about a server that has not been seen yet. -/
def placeholder (address : String) : String :=
  "Waiting for " ++ Text.codeSpan (Text.codeSafe address) ++ " to show up in the server list..."

end Message

/-- The new content of the message behind a change, if it can be formatted. -/
def Change.content (c : Change) : Option String :=
  match c.after, c.before with
  | some server, _ => Message.online server c.mentions
  | none, some server => some (Message.offline server)
  | none, none => some (Message.placeholder "")

end StatusBoard
