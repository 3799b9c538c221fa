import StatusBoard.Flag
import StatusBoard.Server
import StatusBoard.Text.Markdown

/-!
# The table of clients

A status message shows one line per client: name and clan in code spans of equal width, the flag of
the client's country, and the score.  If the longest name or clan is wider than a column can be,
there is no table.
-/

namespace StatusBoard.Message

/-- Two digits, with a leading zero if need be. -/
def twoDigits (n : Nat) : String := if n < 10 then s!"0{n}" else toString n

/-- A finish time as minutes and seconds, with hours in front from one hour on. -/
def timeText (seconds : Int32) : String :=
  if seconds < 0 then "--:--"
  else
    let n := seconds.toInt.toNat
    let h := n / 3600
    let m := twoDigits (n / 60 % 60)
    let s := twoDigits (n % 60)
    if 0 < h then s!"{h}:{m}:{s}" else s!"{m}:{s}"

/-- The score of a client; clients that do not play are spectating. -/
def scoreText (k : Scoring) (c : Client) : String :=
  if !c.isPlayer then "spectating"
  else
    match k with
    | .points => toString c.score
    | .time => timeText c.score

/-- One client in columns of the given widths, if they can be formatted. -/
def clientLine (k : Scoring) (nameWidth clanWidth : Nat) (c : Client) : Option String := do
  let name ← Text.padEnd nameWidth (Text.codeSafe c.name)
  let clan ← Text.padEnd clanWidth (Text.codeSafe c.clan)
  return s!"{Text.codeSpan name} {Text.codeSpan clan} {Flag.ofCountry c.country} {scoreText k c}"

/-- The width of a column: that of its longest text, and at least one. -/
def columnWidth (column : List String) : Nat := max (Text.longest column) 1

/-- The clients of a server, one line each, in their order, if they can be formatted. -/
def clientLines (s : Server) : Option (List String) :=
  let nameWidth := columnWidth (s.clients.map fun c => Text.codeSafe c.name)
  let clanWidth := columnWidth (s.clients.map fun c => Text.codeSafe c.clan)
  s.clients.mapM (clientLine s.scoring nameWidth clanWidth)

end StatusBoard.Message
