/-!
# Cutting a text in two

A text is cut at the first occurrence of a separator, which belongs to neither part.
-/

namespace StatusBoard.Text

/-- What follows the first text at the start of the second one, if the second starts with it. -/
def rest? : List Char → List Char → Option (List Char)
  | [], cs => some cs
  | _ :: _, [] => none
  | s :: ss, c :: cs => if s = c then rest? ss cs else none

/-- The parts of a text before and after the first occurrence of a separator. -/
def cut? (separator : List Char) : List Char → Option (List Char × List Char)
  | [] => none
  | c :: cs =>
    match rest? separator (c :: cs) with
    | some rest => some ([], rest)
    | none => (cut? separator cs).map fun (before, after) => (c :: before, after)

end StatusBoard.Text
