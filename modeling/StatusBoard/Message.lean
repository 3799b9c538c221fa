import StatusBoard.Text.Blank

/-!
# Message contents

The chat platform takes messages that are not blank and have at most 2000 characters.
-/

namespace StatusBoard.Message

/-- The most characters that a message may have. -/
def maxLength : Nat := 2000

/-- Why the platform would refuse a content. -/
inductive ContentError
  | blank
  | tooLong
deriving DecidableEq

/-- The text shown for a refused content. -/
def ContentError.message : ContentError → String
  | blank => "Message cannot be empty"
  | tooLong => s!"Message too long (max {maxLength} characters)"

/-- Check a content against the platform's limits. -/
def check (content : String) : Except ContentError Unit :=
  if Text.trim content.toList = [] then .error .blank
  else if maxLength < content.length then .error .tooLong
  else .ok ()

end StatusBoard.Message
