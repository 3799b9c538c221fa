import StatusBoard.Store

/-!
# A database for rehearsals

The store behind a connection that can be closed, and writes that break the rules of the store.
Procedures never write such rows; rehearsals use them to see how damaged rows are read.
-/

namespace StatusBoard

/-- The store behind a connection. -/
inductive Database
  | opened (store : Store)
  | closed

namespace Database

/-- Access the store.  A failed access leaves it as it was; a closed connection refuses all. -/
def access {α : Type} (t : Transaction α) : Database → Except StoreError α × Database
  | closed => (.error .closed, closed)
  | opened s =>
    let (result, s) := t.attempt s
    (result, opened s)

/-- How many rows each table has, while the connection is open. -/
def rowCounts? : Database → Option (List Nat)
  | opened s => some s.rowCounts
  | closed => none

end Database

namespace Store

/-- Overwrite the protocols of an announced server with any text.  Says how many rows changed. -/
def overwriteProtocols (r : MessageRef) (text : String) : Transaction Nat := do
  let s ← get
  match s.announced.find? r.key with
  | none => return 0
  | some a =>
    set { s with announced := s.announced.insert r.key { a with protocols := text } }
    return 1

/-- Store a client at the first position of a message, whether or not a server is stored for it. -/
def addStrayClient (r : MessageRef) : Transaction Unit := do
  let s ← get
  let k := r.partKey 0
  if s.clients.contains k then throw (.duplicateKey .clients)
  else set { s with clients := s.clients.insert k ⟨"orphan", "", -1, 0, true, 0⟩ }

/-- Store a subscription with any threshold to any message. -/
def forceThreshold (r : MessageRef) (user : UInt64) (threshold : Int64) : Transaction Unit :=
  modify fun s =>
    { s with subscriptions := s.subscriptions.insert (r.partKey user.toInt64) threshold }

end Store

end StatusBoard
