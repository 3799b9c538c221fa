import StatusBoard.Procedure

/-!
# Reactions

Users subscribe by reacting to a status message with a threshold's emoji and unsubscribe by taking
the reaction back.  A user has one threshold per message.  When a user switches to another one, the
board takes the older reaction off the message; the removal that the platform then reports leaves
the subscription alone, because it does not name the user's current threshold.
-/

namespace StatusBoard

/-- A reaction that was added to or removed from a message. -/
structure Reaction where
  ref : MessageRef
  user : UInt64
  emoji : String
deriving DecidableEq

/-- What a reaction did to the user's subscription. -/
inductive ReactionOutcome
  /-- Nothing: no threshold's emoji, no tracked message, or the board's own reaction. -/
  | ignored
  | subscribed (t : Threshold)
  /-- The user switched thresholds. -/
  | updated (previous current : Threshold)
  /-- The user had this threshold already. -/
  | unchanged (t : Threshold)
  | unsubscribed (t : Threshold)
deriving DecidableEq

namespace ReactionOutcome

/-- The outcome of setting a threshold that replaced another one. -/
def ofReplaced (replaced : Option Threshold) (t : Threshold) : ReactionOutcome :=
  match replaced with
  | none => subscribed t
  | some previous => if previous = t then unchanged t else updated previous t

end ReactionOutcome

namespace Reaction

open Procedure

/-- The threshold that a reaction of anyone but the board names. -/
def threshold? (board : UInt64) (e : Reaction) : Option Threshold :=
  if e.user = board then none else Threshold.ofEmoji? e.emoji

/-- A step whose missing row means that the reaction is ignored. -/
def orIgnored (result : Except StoreError ReactionOutcome) : Except StoreError ReactionOutcome :=
  match result with
  | .error e => if e.isNotFound then .ok .ignored else .error e
  | .ok o => .ok o

/-- Subscribe the user of a reaction at its threshold. -/
def subscribe (board : UInt64) (e : Reaction) : Procedure (Except StoreError ReactionOutcome) := do
  match e.threshold? board with
  | none => return .ok .ignored
  | some t =>
    let result ← (access (Store.setThreshold e.ref e.user t)).run
    return orIgnored (result.map (ReactionOutcome.ofReplaced · t))

/-- Unsubscribe the user of a reaction if the reaction names the user's current threshold. -/
def unsubscribe (board : UInt64) (e : Reaction) :
    Procedure (Except StoreError ReactionOutcome) := do
  match e.threshold? board with
  | none => return .ok .ignored
  | some t =>
    let result ← (access (Store.removeSubscription e.ref e.user t)).run
    return orIgnored (result.map fun _ => .unsubscribed t)

/-- A reaction was added.  If the user switched thresholds, the older reaction is taken off. -/
def added (board : UInt64) (e : Reaction) : Procedure (Except StoreError ReactionOutcome) := do
  let outcome ← subscribe board e
  match outcome with
  | .ok (.updated previous _) =>
    let _ ← (ask (.removeReaction e.ref e.user previous.emoji)).run
    return outcome
  | _ => return outcome

/-- A reaction was removed. -/
def removed (board : UInt64) (e : Reaction) : Procedure (Except StoreError ReactionOutcome) :=
  unsubscribe board e

end Reaction

end StatusBoard
