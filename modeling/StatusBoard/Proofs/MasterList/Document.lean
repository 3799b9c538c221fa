import StatusBoard.MasterList.Document
import StatusBoard.Proofs.Json.Record

/-!
# The master list read back

A master list is read back from the text it is written as.  Every record of the format is restored:
its members have different names, each one restores its field, and a field that is not written is
one that reads as missing.
-/

namespace StatusBoard

open Json (lookup_optional restores_text restores_bool restores_int32 restores_uint32
  restores_uint64)

/-! ### Clients and maps -/

/-- The members that a client is written as. -/
def Client.members (c : Client) : List (String × Json) :=
  [("name", .ofString c.name), ("clan", .ofString c.clan), ("country", .ofInt c.country.toInt),
    ("score", .ofInt c.score.toInt), ("is_player", .bool c.isPlayer),
    ("team", .ofInt c.team.toInt)]

theorem Client.restores : Json.Restores Client.toJson Client.ofJson? := by
  refine Json.restores_ofMembers Client.members (fun c => ?plain) (fun c => ?names) fun c => ?fields
  case plain =>
    simp [Client.members, restores_text.plain, restores_bool.plain, restores_int32.plain]
  case names => simp [Client.members]
  case fields =>
    simp [Client.members, List.lookup_cons, restores_text.withDefault, restores_bool.withDefault,
      restores_int32.withDefault]

/-- The members that a map is written as. -/
def MapInfo.members (m : MapInfo) : List (String × Json) :=
  [("name", .ofString m.name)] ++ (m.sha256.toList.map fun s => ("sha256", .ofString s)) ++
    m.size.toList.map fun n => ("size", .ofNat n.toNat)

theorem MapInfo.restores : Json.Restores MapInfo.toJson MapInfo.ofJson? := by
  refine Json.restores_ofMembers MapInfo.members (fun m => ?plain) (fun m => ?names)
    fun m => ?fields
  case plain =>
    simp [MapInfo.members, or_imp, forall_and, restores_text.plain, restores_uint64.plain]
  case names =>
    cases hsha256 : m.sha256 <;> cases hsize : m.size <;> simp [MapInfo.members, hsha256, hsize]
  case fields =>
    have hsha256 := restores_text.nullable (fun _ => Json.noConfusion) m.sha256
    have hsize := restores_uint64.nullable (fun _ => Json.noConfusion) m.size
    simp [MapInfo.members, List.lookup_append, List.lookup_cons, lookup_optional,
      restores_text.withDefault, hsha256, hsize]

/-! ### Servers and entries -/

/-- The members that a server is written as. -/
def ServerInfo.members (i : ServerInfo) : List (String × Json) :=
  [("max_clients", .ofNat i.maxClients.toNat), ("max_players", .ofNat i.maxPlayers.toNat),
    ("passworded", .bool i.passworded), ("game_type", .ofString i.gameType),
    ("name", .ofString i.name), ("map", i.map.toJson), ("version", .ofString i.version)] ++
    (i.scoreKind.toList.map fun s => ("client_score_kind", .ofString s)) ++
    [("clients", .array (i.clients.map Client.toJson))]

theorem ServerInfo.restores : Json.Restores ServerInfo.toJson ServerInfo.ofJson? := by
  refine Json.restores_ofMembers ServerInfo.members (fun i => ?plain)
    (fun i => ?names) fun i => ?fields
  case plain =>
    simp [ServerInfo.members, or_imp, forall_and, restores_text.plain, restores_bool.plain,
      restores_uint32.plain, MapInfo.restores.plain, Client.restores.list.plain]
  case names => cases hkind : i.scoreKind <;> simp [ServerInfo.members, hkind]
  case fields =>
    have hkind := restores_text.nullable (fun _ => Json.noConfusion) i.scoreKind
    simp [ServerInfo.members, List.lookup_append, List.lookup_cons, lookup_optional,
      restores_text.withDefault, restores_bool.withDefault, restores_uint32.withDefault,
      MapInfo.restores.withDefault, Client.restores.list.withDefault, hkind]

/-- The members that an entry is written as. -/
def ListEntry.members (e : ListEntry) : List (String × Json) :=
  [("addresses", .array (e.addresses.map .ofString))] ++
    (e.location.toList.map fun s => ("location", .ofString s)) ++ [("info", e.info.toJson)]

theorem ListEntry.restores : Json.Restores ListEntry.toJson ListEntry.ofJson? := by
  refine Json.restores_ofMembers ListEntry.members (fun e => ?plain)
    (fun e => ?names) fun e => ?fields
  case plain =>
    simp [ListEntry.members, or_imp, forall_and, restores_text.plain, restores_text.list.plain,
      ServerInfo.restores.plain]
  case names => cases hlocation : e.location <;> simp [ListEntry.members, hlocation]
  case fields =>
    have hlocation := restores_text.nullable (fun _ => Json.noConfusion) e.location
    simp [ListEntry.members, List.lookup_append, List.lookup_cons, lookup_optional,
      restores_text.list.withDefault, ServerInfo.restores.required, hlocation]

namespace MasterList

/-! ### Lists -/

/-- The members that a list is written as. -/
def members (l : List ListEntry) : List (String × Json) :=
  [("servers", .array (l.map ListEntry.toJson))]

theorem restores : Json.Restores toJson ofJson? := by
  refine Json.restores_ofMembers members (fun l => ?plain) (fun l => ?names) fun l => ?fields
  case plain => simp [members, ListEntry.restores.list.plain]
  case names => simp [members]
  case fields => exact ListEntry.restores.list.withDefault [] l

/-- A master list is read back from the text it is written as.  So if a text is read as a list, the
text which that list is written as is read as the same one. -/
theorem round_trip :
    (∀ l, parse? (render l) = some l) ∧ ∀ s, ((parse? s).map render).bind parse? = parse? s := by
  have hread (l : List ListEntry) : parse? (render l) = some l := restores.parse?_render l
  refine ⟨hread, fun s => ?_⟩
  cases parse? s with
  | none => rfl
  | some l => rw [Option.map_some, Option.bind_some, hread]

end MasterList

end StatusBoard
