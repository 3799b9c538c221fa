import StatusBoard.Ascending
import StatusBoard.Store

/-!
# Migrations

The tables of the store come into being by numbered migrations.  The database records the numbers of
those that were run, and a run applies the migrations above the greatest number recorded.
-/

namespace StatusBoard

/-- A numbered step that creates tables. -/
structure Migration where
  version : Int
  creates : List Store.TableName

/-- The tables of a database and the migrations that it records, ascending. -/
structure Schema where
  tables : List String
  versions : List Int
deriving DecidableEq

namespace Migration

/-- All migrations, in order. -/
def all : List Migration :=
  [⟨1, [.channels, .trackings]⟩, ⟨2, [.announced, .clients]⟩, ⟨3, [.subscriptions]⟩]

end Migration

namespace Schema

/-- The table that records the migrations. -/
def versionTable : String := "schema_version"

/-- A database without tables. -/
def empty : Schema := ⟨[], []⟩

/-- A database that records migrations and has no other tables. -/
def ofVersions (versions : List Int) : Schema := ⟨[versionTable], ascending versions⟩

/-- The greatest number recorded, zero if there is none. -/
def current (s : Schema) : Int := s.versions.max?.getD 0

/-- Create the tables of a migration and record it. -/
def apply (s : Schema) (m : Migration) : Schema where
  tables := ascending (m.creates.map Store.TableName.text ++ s.tables)
  versions := ascending (m.version :: s.versions)

/-- Run the migrations above the greatest number recorded. -/
def migrate (s : Schema) : Schema :=
  let start := { s with tables := ascending (versionTable :: s.tables) }
  (Migration.all.filter fun m => s.current < m.version).foldl apply start

end Schema

end StatusBoard
