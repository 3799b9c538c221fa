import StatusBoard.Address
import StatusBoard.Message.Content
import StatusBoard.Procedure

/-!
# The life of a tracking

A tracking starts with a placeholder message, which the polls fill later, and ends with the message
or on demand.
-/

namespace StatusBoard

/-- Why a tracking cannot be created or removed. -/
inductive TrackingError
  | invalidAddress (raw : String)
  | chat (e : ChatError)
  | store (e : StoreError)
deriving DecidableEq

/-- The text shown for an error. -/
def TrackingError.message : TrackingError → String
  | invalidAddress raw => s!"invalid server address '{raw}'"
  | chat e => e.message
  | store e => e.message

namespace Tracking

open Procedure

/-- Whether a step failed because its row was not there. -/
def ignoreMissing : Except StoreError Unit → Except StoreError Unit
  | .error e => if e.isNotFound then .ok () else .error e
  | .ok () => .ok ()

/-- React to a message with these thresholds' emoji, up to the first call that fails. -/
def offerThresholds (r : MessageRef) : List Threshold → Procedure Unit
  | [] => return
  | t :: rest => do
    match ← (ask (.addReaction r t.emoji)).run with
    | .ok _ => offerThresholds r rest
    | .error _ => return

/-- The canonical form of a user's address. -/
def checkedAddress (raw : String) : Except TrackingError String :=
  (Address.validate raw).mapError fun _ => .invalidAddress raw

/-- Post a placeholder into a channel and track the server there.  If the tracking cannot be stored,
the placeholder is taken back. -/
def create (channel : ChannelRef) (raw : String) : ExceptT TrackingError Procedure MessageRef := do
  let address ← checkedAddress raw
  let id ← (ask (.post channel (Message.placeholder address))).adapt .chat
  let r := channel.toMessage id
  match ← (access (Store.track ⟨r, address⟩)).run with
  | .ok () =>
    offerThresholds r Threshold.all
    return r
  | .error e =>
    let _ ← (ask (.delete r)).run
    throw (.store e)

/-- The message that tracks a server in a channel, which is created if there is none. -/
def ensure (channel : ChannelRef) (raw : String) : ExceptT TrackingError Procedure MessageRef := do
  let address ← checkedAddress raw
  let existing ← (access (Store.listChannelTrackings channel)).adapt .store
  match existing.find? (·.address = address) with
  | some t => return t.ref
  | none => create channel address

/-- Stop tracking a message and delete it, whatever the platform says to that. -/
def discard (r : MessageRef) : ExceptT TrackingError Procedure Unit := do
  (access (Store.untrack r)).adapt .store
  let _ ← (ask (.delete r)).run
  return

/-- The message was deleted on the platform. -/
def messageDeleted (r : MessageRef) : Procedure (Except StoreError Unit) :=
  return ignoreMissing (← (access (Store.untrack r)).run)

/-- The channel was deleted on the platform. -/
def channelDeleted (c : ChannelRef) : Procedure (Except StoreError Unit) :=
  return ignoreMissing (← (access (Store.removeChannel c)).run)

end Tracking

end StatusBoard
