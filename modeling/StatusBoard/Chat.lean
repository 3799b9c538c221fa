import StatusBoard.MessageRef

/-!
# Calls to the chat platform
-/

namespace StatusBoard

/-- A call to the chat platform. -/
inductive ChatCall
  | post (channel : ChannelRef) (content : String)
  | edit (ref : MessageRef) (content : String)
  | delete (ref : MessageRef)
  | addReaction (ref : MessageRef) (emoji : String)
  | removeReaction (ref : MessageRef) (user : UInt64) (emoji : String)
deriving DecidableEq

/-- What a call gives when it succeeds: a post the id of the new message, other calls nothing. -/
abbrev ChatCall.Reply : ChatCall → Type
  | .post _ _ => UInt64
  | _ => Unit

/-- Why a call fails. -/
inductive ChatError
  /-- The message or the channel does not exist on the platform. -/
  | notFound
  /-- The platform did not answer in time. -/
  | timeout
  | platform (reason : String)
deriving DecidableEq

/-- The text shown for an error. -/
def ChatError.message : ChatError → String
  | notFound => "chat resource not found"
  | timeout => "chat call timed out"
  | platform reason => s!"chat platform error: {reason}"

/-- What becomes of a call: the platform answers it or stays silent. -/
inductive Response (α : Type)
  | answer (result : Except ChatError α)
  | silence

/-- The result of a call within the time limit: after it, silence is an error. -/
def Response.inTime {α : Type} : Response α → Except ChatError α
  | answer result => result
  | silence => .error .timeout

end StatusBoard
