/-!
# Literal text in chat messages

Chat messages are Markdown.  Names that users choose are escaped, so that they show as they are,
and text inside a code span loses its backticks, so that it cannot close the span.
-/

namespace StatusBoard.Text

/-- The characters that Markdown gives a meaning. -/
def isMarkup (c : Char) : Bool :=
  c ∈ ['\\', '*', '_', '~', '\x60', '|', '<', '>', '#']

/-- Put a backslash in front of every character that Markdown gives a meaning. -/
def escape (s : String) : String :=
  String.ofList (s.toList.flatMap fun c => if isMarkup c then ['\\', c] else [c])

/-- The modifier letter that stands in for a backtick. -/
def backtickStandIn : Char := '\u02CB'

/-- Text that is safe inside a code span. -/
def codeSafe (s : String) : String :=
  String.ofList (s.toList.map fun c => if c = '\x60' then backtickStandIn else c)

/-- A code span that shows a text. -/
def codeSpan (s : String) : String := "`" ++ s ++ "`"

/-- Fill a text with spaces up to a number of characters. -/
def fill (width : Nat) (s : String) : String :=
  s ++ String.ofList (List.replicate (width - s.length) ' ')

/-- The widest column that can be formatted: widths have 16 bits. -/
def maxWidth : Nat := 65535

/-- A text in a column.  Whatever the text, a column that is too wide cannot be formatted. -/
def padEnd (width : Nat) (s : String) : Option String :=
  if width ≤ maxWidth then some (fill width s) else none

/-- The length of the longest text. -/
def longest (l : List String) : Nat := (l.map String.length).foldr max 0

end StatusBoard.Text
