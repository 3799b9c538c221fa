import StatusBoard.Server
import StatusBoard.Store.Key
import StatusBoard.Table
import StatusBoard.Threshold
import StatusBoard.Tracking

/-!
# The store

Five tables: the known channels, the tracked messages in them, the server that was last announced in
each tracked message, the clients of that server, and the users' subscriptions to tracked messages.
A row about a message belongs to the row above it and goes when that one goes
(`Store.dropTrackings`).

Every access is a transaction: it gives a result and a new store, or an error and no new store.
-/

namespace StatusBoard

namespace Store

/-- What was last announced about the server of a message, without its clients.  The protocols are
kept as a JSON document and the kind of score by its name.  `arrival` numbers the rows in the order
in which they were written. -/
structure Announced where
  address : String
  protocols : String
  name : String
  gameType : String
  passworded : Bool
  mapName : String
  mapSha256 : Option String
  mapSize : Option Int64
  version : String
  maxClients : UInt32
  maxPlayers : UInt32
  scoring : String
  arrival : Nat
deriving DecidableEq, Inhabited

/-- The tables of the store. -/
inductive TableName
  | channels
  | trackings
  | announced
  | clients
  | subscriptions
deriving DecidableEq

namespace TableName

/-- The name of a table in the database. -/
def text : TableName → String
  | channels => "channels"
  | trackings => "trackings"
  | announced => "prev_messages"
  | clients => "prev_clients"
  | subscriptions => "player_count_notifications"

/-- The columns of a table's primary key. -/
def keyColumns : TableName → List String
  | channels => ["guild_id", "channel_id"]
  | trackings | announced => ["guild_id", "channel_id", "message_id"]
  | clients => ["guild_id", "channel_id", "message_id", "position"]
  | subscriptions => ["guild_id", "channel_id", "message_id", "user_id"]

end TableName

end Store

open Store

/-- The contents of the store.  Subscriptions are stored with any threshold; readers check it.
`arrivals` counts the announced servers that were ever written. -/
structure Store where
  channels : Table ChannelKey Unit := .empty
  trackings : Table MessageKey String := .empty
  announced : Table MessageKey Announced := .empty
  clients : Table PartKey Client := .empty
  subscriptions : Table PartKey Int64 := .empty
  arrivals : Nat := 0
deriving DecidableEq, Inhabited

/-- Why an access to the store fails. -/
inductive StoreError
  | channelNotFound (channel : ChannelRef)
  | trackingNotFound (ref : MessageRef)
  | subscriptionNotFound (ref : MessageRef) (user : UInt64) (threshold : Threshold)
  /-- A row was to be written whose key is taken. -/
  | duplicateKey (table : TableName)
  | closed
  /-- The protocols of an announced server are no JSON array of strings. -/
  | unreadableProtocols (ref : MessageRef)
  /-- A client is stored for a message of which no server is. -/
  | strayClient (ref : MessageRef)
  /-- The threshold of a subscription is out of range. -/
  | badThreshold (ref : MessageRef) (user threshold : Int64)
deriving DecidableEq

namespace StoreError

/-- How callers tell errors apart. -/
inductive Kind
  /-- The row does not exist. -/
  | notFound
  /-- The database refused the access. -/
  | database
  /-- A stored value cannot be read. -/
  | corrupt
deriving DecidableEq

/-- The kind of an error. -/
def kind : StoreError → Kind
  | channelNotFound _ | trackingNotFound _ | subscriptionNotFound .. => .notFound
  | duplicateKey _ | closed => .database
  | unreadableProtocols _ | strayClient _ | badThreshold .. => .corrupt

/-- Whether a row was not there. -/
def isNotFound (e : StoreError) : Bool := e.kind = .notFound

/-- The text shown for an error. -/
def message : StoreError → String
  | channelNotFound c => s!"channel {c.text} not found"
  | trackingNotFound r => s!"tracking {r.text} not found"
  | subscriptionNotFound r user threshold =>
    s!"subscription of user {user} at {threshold.clients} on {r.text} not found"
  | duplicateKey table =>
    let columns := ", ".intercalate (table.keyColumns.map fun c => s!"{table.text}.{c}")
    "database error: error returned from database: " ++
      s!"(code: 1555) UNIQUE constraint failed: {columns}"
  | closed => "database error: attempted to acquire a connection on a closed pool"
  | unreadableProtocols r => s!"corrupt row: protocols of {r.text}"
  | strayClient r => s!"corrupt row: client without server at {r.text}"
  | badThreshold r user threshold =>
    s!"corrupt row: threshold {threshold} on {r.text} for user {user}"

end StoreError

/-- An atomic access to the store.  If it fails, the store stays as it was. -/
abbrev Transaction := StateT Store (Except StoreError)

/-- What an access to a store gives, and the store after it. -/
def Transaction.attempt {α : Type} (t : Transaction α) (s : Store) : Except StoreError α × Store :=
  match t.run s with
  | .ok (a, s') => (.ok a, s')
  | .error e => (.error e, s)

theorem Transaction.attempt_of_ok {α : Type} {t : Transaction α} {s s' : Store} {a : α}
    (h : t.run s = .ok (a, s')) : t.attempt s = (.ok a, s') := by
  rw [attempt, h]

theorem Transaction.attempt_of_error {α : Type} {t : Transaction α} {s : Store} {e : StoreError}
    (h : t.run s = .error e) : t.attempt s = (.error e, s) := by
  rw [attempt, h]

namespace Store

/-- How many rows each table has. -/
def rowCounts (s : Store) : List Nat :=
  [s.channels.size, s.trackings.size, s.announced.size, s.clients.size, s.subscriptions.size]

/-- Drop the trackings whose keys satisfy a condition, and with each of them its subscriptions and
its announced server, and with each announced server its clients. -/
def dropTrackings (p : MessageKey → Bool) (s : Store) : Store :=
  let untracked k := p k && s.trackings.contains k
  let silenced k := untracked k && s.announced.contains k
  { s with
    trackings := s.trackings.filter fun k _ => !untracked k
    announced := s.announced.filter fun k _ => !silenced k
    clients := s.clients.filter fun k _ => !silenced k.owner
    subscriptions := s.subscriptions.filter fun k _ => !untracked k.owner }

variable (s : Store)

/-! ### Channels -/

/-- Make sure that a channel is known. -/
def ensureChannel (c : ChannelRef) : Transaction Unit :=
  modify fun s => { s with channels := s.channels.insert c.key () }

theorem ensureChannel_run (c : ChannelRef) :
    (ensureChannel c).run s = .ok ((), { s with channels := s.channels.insert c.key () }) := rfl

/-- The known channels, in the order of their keys. -/
def listChannels : Transaction (List ChannelKey) := return (← get).channels.keys

/-- Forget a channel and all its trackings. -/
def removeChannel (c : ChannelRef) : Transaction Unit := do
  let s ← get
  if s.channels.contains c.key then
    set ({ s with channels := s.channels.erase c.key }.dropTrackings fun k => k.inChannel = c.key)
  else throw (.channelNotFound c)

theorem removeChannel_run (c : ChannelRef) :
    (removeChannel c).run s =
      if s.channels.contains c.key then
        .ok ((), { s.dropTrackings (fun k => k.inChannel = c.key) with
          channels := s.channels.erase c.key })
      else .error (.channelNotFound c) := by
  change (ite _ _ _ : Transaction Unit).run s = _
  split <;> rfl

/-! ### Trackings -/

/-- Track a message, which must not be tracked yet. -/
def track (t : Tracking) : Transaction Unit := do
  ensureChannel t.ref.inChannel
  let s ← get
  if s.trackings.contains t.ref.key then throw (.duplicateKey .trackings)
  else set { s with trackings := s.trackings.insert t.ref.key t.address }

theorem track_run (t : Tracking) :
    (track t).run s =
      if s.trackings.contains t.ref.key then .error (.duplicateKey .trackings)
      else .ok ((), { s with
        channels := s.channels.insert t.ref.inChannel.key ()
        trackings := s.trackings.insert t.ref.key t.address }) := by
  change (ite (s.trackings.contains t.ref.key) _ _ : Transaction Unit).run _ = _
  split <;> rfl

/-- Stop tracking a message. -/
def untrack (r : MessageRef) : Transaction Unit := do
  let s ← get
  if s.trackings.contains r.key then set (s.dropTrackings (· = r.key))
  else throw (.trackingNotFound r)

theorem untrack_run (r : MessageRef) :
    (untrack r).run s =
      if s.trackings.contains r.key then .ok ((), s.dropTrackings (· = r.key))
      else .error (.trackingNotFound r) := by
  change (ite _ _ _ : Transaction Unit).run s = _
  split <;> rfl

/-- The tracking that a row holds. -/
def trackingOfRow (row : MessageKey × String) : Tracking := ⟨row.1.toRef, row.2⟩

/-- All trackings, in the order of their keys. -/
def listTrackings : Transaction (List Tracking) := return (← get).trackings.rows.map trackingOfRow

theorem listTrackings_run :
    listTrackings.run s = .ok (s.trackings.rows.map trackingOfRow, s) := rfl

/-- The trackings of a channel, in the order of their keys. -/
def listChannelTrackings (c : ChannelRef) : Transaction (List Tracking) := do
  let rows := (← get).trackings.rows
  return (rows.filter fun row => row.1.inChannel = c.key).map trackingOfRow

/-! ### Subscriptions -/

/-- The threshold that a stored number stands for. -/
def thresholdOfRow? (n : Int64) : Option Threshold := Threshold.ofInt? n.toInt

/-- Set the threshold of a user on a tracked message, and give the one that it replaces. -/
def setThreshold (r : MessageRef) (user : UInt64) (t : Threshold) :
    Transaction (Option Threshold) := do
  let s ← get
  if s.trackings.contains r.key then
    let k := r.partKey user.toInt64
    set { s with subscriptions := s.subscriptions.insert k (Int64.ofNat t.clients) }
    return (s.subscriptions.find? k).bind thresholdOfRow?
  else throw (.trackingNotFound r)

theorem setThreshold_run (r : MessageRef) (user : UInt64) (t : Threshold) :
    (setThreshold r user t).run s =
      if s.trackings.contains r.key then
        .ok ((s.subscriptions.find? (r.partKey user.toInt64)).bind thresholdOfRow?, { s with
          subscriptions :=
            s.subscriptions.insert (r.partKey user.toInt64) (Int64.ofNat t.clients) })
      else .error (.trackingNotFound r) := by
  change (ite _ _ _ : Transaction _).run s = _
  split <;> rfl

/-- Remove the subscription of a user to a message, if it has the given threshold. -/
def removeSubscription (r : MessageRef) (user : UInt64) (t : Threshold) : Transaction Unit := do
  let s ← get
  let k := r.partKey user.toInt64
  if s.subscriptions.find? k = some (Int64.ofNat t.clients) then
    set { s with subscriptions := s.subscriptions.erase k }
  else throw (.subscriptionNotFound r user t)

theorem removeSubscription_run (r : MessageRef) (user : UInt64) (t : Threshold) :
    (removeSubscription r user t).run s =
      if s.subscriptions.find? (r.partKey user.toInt64) = some (Int64.ofNat t.clients) then
        .ok ((), { s with subscriptions := s.subscriptions.erase (r.partKey user.toInt64) })
      else .error (.subscriptionNotFound r user t) := by
  change (ite _ _ _ : Transaction Unit).run s = _
  split <;> rfl

/-- The subscription that a row holds. -/
def subscriptionOfRow (row : PartKey × Int64) : Except StoreError Subscription :=
  match thresholdOfRow? row.2 with
  | some t => .ok ⟨row.1.owner.toRef, row.1.part.toUInt64, t⟩
  | none => .error (.badThreshold row.1.owner.toRef row.1.part row.2)

/-- The subscriptions to these messages, in the order of their keys. -/
def listSubscriptions (refs : List MessageRef) : Transaction (List Subscription) := do
  let rows := (← get).subscriptions.rows.filter fun row => row.1.owner ∈ refs.map MessageRef.key
  rows.mapM fun row => (subscriptionOfRow row : Except StoreError Subscription)

/-- Reading the rows of a table changes nothing and fails with the first row that cannot be read. -/
theorem mapM_lift_run {α β : Type} (read : α → Except StoreError β) (rows : List α) :
    (rows.mapM fun row => (read row : Transaction β)).run s = (rows.mapM read).map (·, s) := by
  induction rows with
  | nil => rfl
  | cons row rows ih =>
    rw [List.mapM_cons, List.mapM_cons, StateT.run_bind]
    cases read row with
    | error e => rfl
    | ok b =>
      change ((rows.mapM fun row => (read row : Transaction β)).run s).bind
        (fun found => .ok (b :: found.1, found.2)) = _
      rw [ih]
      cases rows.mapM read <;> rfl

theorem listSubscriptions_run (refs : List MessageRef) :
    (listSubscriptions refs).run s =
      ((s.subscriptions.rows.filter fun row => row.1.owner ∈ refs.map MessageRef.key).mapM
        subscriptionOfRow).map (·, s) :=
  mapM_lift_run s subscriptionOfRow _

end Store

end StatusBoard
