import StatusBoard.Text.Numeral
import StatusBoard.Toml

/-!
# Configuration

The board is configured by a TOML file and by environment variables.  Both give some of the settings
(`Settings`); a variable wins over the file, and the file over the defaults.  A file that cannot be
read is an error, whatever the variables say; a variable that is no number where one is expected is
as good as absent.  Which texts are TOML documents, and what they stand for, is up to a
`Toml.Parser`.
-/

namespace StatusBoard

/-- A server that has to have a status message in a channel. -/
structure Watch where
  guild : UInt64
  channel : UInt64
  address : String
deriving DecidableEq

/-- Some of the settings. -/
structure Settings where
  token : Option String := none
  databaseUrl : Option String := none
  pollUrl : Option String := none
  pollInterval : Option UInt64 := none
  pollTimeout : Option UInt64 := none
  chatTimeout : Option UInt64 := none
deriving DecidableEq

/-- The configuration.  Times are in seconds. -/
structure Config where
  token : String := ""
  databaseUrl : String := "sqlite:serverwatch.db?mode=rwc"
  pollUrl : String := "https://master1.ddnet.org/ddnet/15/servers.json"
  pollInterval : UInt64 := 10
  pollTimeout : UInt64 := 10
  chatTimeout : UInt64 := 10
  watch : List Watch := []
deriving DecidableEq

/-- Why no configuration can be loaded. -/
inductive ConfigError
  /-- The file is not UTF-8. -/
  | unreadable (path : String)
  /-- The file is not TOML or has values of the wrong kind. -/
  | malformed (path : String)
deriving DecidableEq

/-- The text shown for an error. -/
def ConfigError.message : ConfigError → String
  | unreadable path => s!"failed to read config file '{path}'"
  | malformed path => s!"failed to parse config file '{path}'"

/-! ### The file -/

namespace Toml

/-- A text. -/
def text? : Toml → Option String
  | string s => some s
  | _ => none

/-- A natural number; those of TOML are below `2 ^ 63`. -/
def nat64? : Toml → Option UInt64
  | integer i => if 0 ≤ i then some i.toNat.toUInt64 else none
  | _ => none

/-- The values of a section's settings. -/
abbrev Section := String → Option Toml

/-- A section, which may be written as a table or as an array of its settings in order. -/
def section? (names : List String) : Toml → Option Section
  | table members => some fun n => members.lookup n
  | array items => some fun n => (names.zip items).lookup n
  | _ => none

/-- A section of a document.  A section that is missing has no settings. -/
def sectionOf? (document : List (String × Toml)) (name : String) (names : List String) :
    Option Section :=
  match document.lookup name with
  | none => some fun _ => none
  | some v => section? names v

/-- A setting that may be missing, but may not be of the wrong kind. -/
def setting? {α : Type} (read : Toml → Option α) (v : Option Toml) : Option (Option α) :=
  match v with
  | none => some none
  | some v => (read v).map some

end Toml

/-- Read a watched server. -/
def Watch.ofToml? (v : Toml) : Option Watch := do
  let field ← v.section? ["guild_id", "channel_id", "address"]
  return ⟨← (field "guild_id").bind Toml.nat64?, ← (field "channel_id").bind Toml.nat64?,
    ← (field "address").bind Toml.text?⟩

/-- Read the watched servers of a document. -/
def Watch.listOfToml? (document : List (String × Toml)) : Option (List Watch) :=
  match document.lookup "watch" with
  | none => some []
  | some (.array items) => items.mapM Watch.ofToml?
  | some _ => none

namespace Settings

open Toml (sectionOf? setting? text? nat64?)

/-- Read the settings of a document. -/
def ofToml? (document : List (String × Toml)) : Option Settings := do
  let account ← sectionOf? document "discord" ["token"]
  let database ← sectionOf? document "database" ["url"]
  let poll ← sectionOf? document "poll" ["url", "interval_secs", "timeout_secs"]
  let chat ← sectionOf? document "chat" ["timeout_secs"]
  return {
    token := ← setting? text? (account "token")
    databaseUrl := ← setting? text? (database "url")
    pollUrl := ← setting? text? (poll "url")
    pollInterval := ← setting? nat64? (poll "interval_secs")
    pollTimeout := ← setting? nat64? (poll "timeout_secs")
    chatTimeout := ← setting? nat64? (chat "timeout_secs") }

/-! ### The environment -/

/-- A number in the environment: decimal digits with an optional plus sign, below `2 ^ 64`. -/
def number? (s : String) : Option UInt64 :=
  let digits := match s.toList with
    | '+' :: cs => cs
    | cs => cs
  (Text.numeralBelow? UInt64.size 10 digits).map Nat.toUInt64

/-- The settings of an environment. -/
def ofEnvironment (environment : String → Option String) : Settings where
  token := environment "DISCORD_TOKEN"
  databaseUrl := environment "DATABASE_URL"
  pollUrl := environment "POLL_URL"
  pollInterval := (environment "POLL_INTERVAL_SECS").bind number?
  pollTimeout := (environment "POLL_TIMEOUT_SECS").bind number?
  chatTimeout := (environment "CHAT_TIMEOUT_SECS").bind number?

end Settings

/-! ### Both together -/

namespace Config

/-- Replace the settings that are given. -/
def override (c : Config) (s : Settings) : Config where
  token := s.token.getD c.token
  databaseUrl := s.databaseUrl.getD c.databaseUrl
  pollUrl := s.pollUrl.getD c.pollUrl
  pollInterval := s.pollInterval.getD c.pollInterval
  pollTimeout := s.pollTimeout.getD c.pollTimeout
  chatTimeout := s.chatTimeout.getD c.chatTimeout
  watch := c.watch

/-- The configuration of a document. -/
def ofToml? (document : List (String × Toml)) : Option Config := do
  let settings ← Settings.ofToml? document
  let watch ← Watch.listOfToml? document
  return { ({} : Config).override settings with watch := watch }

/-- The configuration of a file, if there is one. -/
def ofFile (parse : Toml.Parser) (path : String) (contents : Option ByteArray) :
    Except ConfigError Config :=
  match contents with
  | none => .ok {}
  | some bytes =>
    match String.fromUTF8? bytes with
    | none => .error (.unreadable path)
    | some text =>
      match (parse text).bind ofToml? with
      | none => .error (.malformed path)
      | some c => .ok c

/-- The configuration of a file in an environment. -/
def load (parse : Toml.Parser) (path : String) (contents : Option ByteArray)
    (environment : String → Option String) : Except ConfigError Config :=
  (ofFile parse path contents).map (·.override (Settings.ofEnvironment environment))

/-- The time between polls: at least a second. -/
def pollPeriod (c : Config) : UInt64 := max 1 c.pollInterval

/-- How long a poll may take: at least a second. -/
def pollLimit (c : Config) : UInt64 := max 1 c.pollTimeout

/-- How long a call to the chat platform may take: at least a second. -/
def chatLimit (c : Config) : UInt64 := max 1 c.chatTimeout

end Config

end StatusBoard
