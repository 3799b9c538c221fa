import StatusBoard.MessageRef

/-!
# Trackings

A tracking ties a status message to the address of the server that it shows.
-/

namespace StatusBoard

/-- A status message and the address of the server that it shows. -/
structure Tracking where
  ref : MessageRef
  address : String
deriving DecidableEq, Inhabited

end StatusBoard
