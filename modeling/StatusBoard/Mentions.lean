import StatusBoard.Changes
import StatusBoard.Threshold

/-!
# Who is mentioned

A message about an online server mentions the users whose threshold on that message is reached.
A message about an offline server mentions nobody.
-/

namespace StatusBoard

/-- The users who are mentioned when a message shows this many clients, ascending. -/
def mentionedUsers (subscriptions : List Subscription) (r : MessageRef) (clients : Nat) :
    List UInt64 :=
  ascending <|
    (subscriptions.filter fun s => s.ref = r && s.threshold.fires clients).map Subscription.user

/-- Replace the mentions of a change by those that the subscriptions ask for. -/
def Change.withMentions (subscriptions : List Subscription) (c : Change) : Change :=
  { c with
    mentions := match c.after with
      | none => []
      | some server => mentionedUsers subscriptions c.ref server.clientCount }

end StatusBoard
