import StatusBoard.Snapshot

/-!
# Changes between two snapshots

`Snapshot.changes` compares the announced snapshot with the polled one and lists the messages that
have to be updated, in ascending order.  `Changes.replacement` is the write that brings storage up
to date: which messages lose their stored server, and which servers are stored instead.
-/

namespace StatusBoard

/-- What happened to the server behind a status message. -/
inductive ChangeKind
  /-- It shows up for the first time. -/
  | new
  /-- It differs from what was announced. -/
  | changed
  /-- It dropped out of the master list. -/
  | offline
deriving DecidableEq

/-- One message that has to be updated, and the users to mention in it, ascending. -/
structure Change where
  ref : MessageRef
  before : Option Server
  after : Option Server
  mentions : List UInt64 := []
deriving DecidableEq

namespace Change

/-- A message without a current server is offline, and one without an announced server new. -/
def kind (c : Change) : ChangeKind :=
  match c.before, c.after with
  | _, none => .offline
  | none, some _ => .new
  | some _, some _ => .changed

/-- Whether the server dropped out of the master list. -/
def isOffline (c : Change) : Bool := c.after.isNone

end Change

/-- The change of one message from one snapshot to another, if it shows something else there. -/
def Snapshot.changeAt? (before after : Snapshot) (r : MessageRef) : Option Change :=
  if before.get? r = after.get? r then none
  else some { ref := r, before := before.get? r, after := after.get? r }

/-- The messages that show something else in the second snapshot, ascending. -/
def Snapshot.changes (before after : Snapshot) : List Change :=
  (ascending (before.refs ++ after.refs)).filterMap (before.changeAt? after)

namespace Changes

/-- The messages that have to be updated. -/
def refs (l : List Change) : List MessageRef := l.map Change.ref

/-- How many changes are of a kind. -/
def count (l : List Change) (k : ChangeKind) : Nat := (l.filter fun c => c.kind = k).length

/-- The distinct addresses of the new and changed servers, ascending. -/
def addresses (l : List Change) : List String :=
  ascending (l.filterMap fun c => c.after.map Server.address)

/-- The servers that the changed messages show now. -/
def current (l : List Change) : Snapshot :=
  Snapshot.ofList (l.filterMap fun c => c.after.map (c.ref, ·))

/-- The messages to forget and the servers to store in order to bring storage up to date. -/
def replacement (l : List Change) : List MessageRef × Snapshot := (refs l, current l)

end Changes

end StatusBoard
