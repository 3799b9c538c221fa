import StatusBoard.Json.Document
import StatusBoard.Json.Record
import StatusBoard.Snapshot
import StatusBoard.Store

/-!
# The announced snapshot in the store

A server is stored as one row about the server and one row per client, numbered in display order.
`load` puts them together again, and `replace` exchanges the servers of some messages in one
transaction.
-/

namespace StatusBoard.Store

/-! ### Rows of a server -/

/-- The JSON document of a list of protocols. -/
def protocolsText (protocols : List String) : String :=
  (Json.array (protocols.map .ofString)).render

/-- The protocols in a JSON document. -/
def protocols? (text : String) : Option (List String) :=
  (Json.parse? text).bind (Json.list? Json.text?)

/-- The row about a server. -/
def Announced.ofServer (s : Server) (arrival : Nat) : Announced where
  address := s.address
  protocols := protocolsText s.protocols
  name := s.name
  gameType := s.gameType
  passworded := s.passworded
  mapName := s.map.name
  mapSha256 := s.map.sha256
  mapSize := s.map.size.map UInt64.toInt64
  version := s.version
  maxClients := s.maxClients
  maxPlayers := s.maxPlayers
  scoring := s.scoring.text
  arrival := arrival

/-- The server of a row, with the clients of other rows. -/
def Announced.server? (a : Announced) (clients : List Client) : Option Server :=
  (protocols? a.protocols).map fun protocols =>
    { address := a.address
      protocols := protocols
      name := a.name
      gameType := a.gameType
      passworded := a.passworded
      map := ⟨a.mapName, a.mapSha256, a.mapSize.map Int64.toUInt64⟩
      version := a.version
      maxClients := a.maxClients
      maxPlayers := a.maxPlayers
      scoring := .ofText a.scoring
      clients := clients }

/-- The clients of a list with their positions. -/
def numbered (clients : List Client) : List (Int64 × Client) :=
  clients.zipIdx.map fun (c, i) => (Int64.ofNat i, c)

/-! ### Reading -/

/-- The clients that are stored for a message, in their positions. -/
def clientsOf (s : Store) (k : MessageKey) : List Client :=
  (s.clients.filter fun part _ => part.owner = k).values

/-- The messages whose protocols cannot be read, in the order in which they were announced. -/
def unreadable (s : Store) : List MessageKey :=
  let rows := s.announced.rows.filter fun row => (protocols? row.2.protocols).isNone
  (rows.mergeSort fun a b => a.2.arrival ≤ b.2.arrival).map Prod.fst

/-- The messages for which a client is stored but no server. -/
def stray (s : Store) : List MessageKey :=
  (s.clients.keys.map PartKey.owner).filter fun k => !s.announced.contains k

/-- The announced servers by their messages. -/
def announcedServers (s : Store) : List (MessageRef × Server) :=
  s.announced.rows.filterMap fun (k, a) => (a.server? (s.clientsOf k)).map (k.toRef, ·)

/-- The announced snapshot. -/
def load : Transaction Snapshot := do
  let s ← get
  match s.unreadable, s.stray with
  | k :: _, _ => throw (.unreadableProtocols k.toRef)
  | [], k :: _ => throw (.strayClient k.toRef)
  | [], [] => return .ofList s.announcedServers

theorem load_run {s : Store} (hread : s.unreadable = []) (hstray : s.stray = []) :
    load.run s = .ok (.ofList s.announcedServers, s) := by
  simp [load, hread, hstray]
  rfl

/-- Loading changes nothing. -/
theorem load_reads {s' : Store} {snapshot : Snapshot} (h : load.run s = .ok (snapshot, s')) :
    s' = s := by
  change (match s.unreadable, s.stray with
    | k :: _, _ => throw (.unreadableProtocols k.toRef)
    | [], k :: _ => throw (.strayClient k.toRef)
    | [], [] => return .ofList s.announcedServers : Transaction Snapshot).run s = _ at h
  split at h
  · cases h
  · cases h
  · cases h
    rfl

/-! ### Writing -/

/-- Forget the announced server of a message and its clients. -/
def forget (r : MessageRef) (s : Store) : Store :=
  { s with
    announced := s.announced.erase r.key
    clients := s.clients.filter fun k _ => k.owner ≠ r.key }

/-- Store a client of a message at a position. -/
def storeClient (r : MessageRef) (position : Int64) (c : Client) : Transaction Unit := do
  let s ← get
  let k := r.partKey position
  if s.clients.contains k then throw (.duplicateKey .clients)
  else set { s with clients := s.clients.insert k c }

theorem storeClient_run (s : Store) (r : MessageRef) (position : Int64) (c : Client) :
    (storeClient r position c).run s =
      if s.clients.contains (r.partKey position) then .error (.duplicateKey .clients)
      else .ok ((), { s with clients := s.clients.insert (r.partKey position) c }) := by
  change (ite _ _ _ : Transaction Unit).run s = _
  split <;> rfl

/-- Store the announced server of a message, unless the message is not tracked any more. -/
def storeServer (r : MessageRef) (server : Server) : Transaction Unit := do
  let s ← get
  if s.trackings.contains r.key then
    if s.announced.contains r.key then throw (.duplicateKey .announced)
    set { s with
      announced := s.announced.insert r.key (.ofServer server s.arrivals)
      arrivals := s.arrivals + 1 }
    (numbered server.clients).forM fun (position, c) => storeClient r position c

theorem storeServer_run (s : Store) (r : MessageRef) (server : Server) :
    (storeServer r server).run s =
      if s.trackings.contains r.key then
        if s.announced.contains r.key then .error (.duplicateKey .announced)
        else ((numbered server.clients).forM fun (position, c) => storeClient r position c).run
          { s with
            announced := s.announced.insert r.key (.ofServer server s.arrivals)
            arrivals := s.arrivals + 1 }
      else .ok ((), s) := by
  change (ite _ _ _ : Transaction Unit).run s = _
  split
  · split <;> rfl
  · rfl

/-- Forget the servers of some messages, then store the servers of a snapshot. -/
def replace (refs : List MessageRef) (entries : Snapshot) : Transaction Unit := do
  modify fun s => refs.foldl (fun s r => s.forget r) s
  entries.entries.forM fun (r, server) => storeServer r server

theorem replace_run (s : Store) (refs : List MessageRef) (entries : Snapshot) :
    (replace refs entries).run s =
      (entries.entries.forM fun (r, server) => storeServer r server).run
        (refs.foldl (fun s r => s.forget r) s) := rfl

end StatusBoard.Store
