import StatusBoard.Json
import StatusBoard.Text.Numeral

/-!
# JSON tokens

A JSON text is a sequence of tokens with blanks between them.  `Token.text` writes a token and
`tokens?` reads the tokens of a text, one character at a time.
-/

namespace StatusBoard.Json

/-- A token of a JSON text. -/
inductive Token
  | openArray
  | closeArray
  | openObject
  | closeObject
  | comma
  | colon
  | null
  | bool (b : Bool)
  | number (spelling : String)
  | string (s : Literal)
deriving DecidableEq

/-! ### Writing -/

/-- A code unit in four hexadecimal digits. -/
def codeText (code : Nat) : List Char :=
  let digits := Text.numeral 16 code
  List.replicate (4 - digits.length) '0' ++ digits

/-- A unit of a string: quotes, backslashes and control characters are escaped. -/
def Piece.text : Piece → List Char
  | .char '"' => ['\\', '"']
  | .char '\\' => ['\\', '\\']
  | .char '\x08' => ['\\', 'b']
  | .char '\x0c' => ['\\', 'f']
  | .char '\n' => ['\\', 'n']
  | .char '\r' => ['\\', 'r']
  | .char '\t' => ['\\', 't']
  | .char c => if c.toNat < 0x20 then '\\' :: 'u' :: codeText c.toNat else [c]
  | .surrogate code => '\\' :: 'u' :: codeText code

/-- The shortest text of a token. -/
def Token.text : Token → List Char
  | openArray => ['[']
  | closeArray => [']']
  | openObject => ['\x7b']
  | closeObject => ['\x7d']
  | comma => [',']
  | colon => [':']
  | null => ['n', 'u', 'l', 'l']
  | bool true => ['t', 'r', 'u', 'e']
  | bool false => ['f', 'a', 'l', 's', 'e']
  | number spelling => spelling.toList
  | string s => '"' :: s.flatMap Piece.text ++ ['"']

/-! ### Reading -/

/-- The part of a number that was read last. -/
inductive NumberPart
  | minus
  | zero
  | integer
  | point
  | fraction
  | exponent
  | exponentSign
  | exponentDigits
deriving DecidableEq

namespace NumberPart

/-- The part that a character extends a number to, if it belongs to the number. -/
def next? (part : NumberPart) (c : Char) : Option NumberPart :=
  match part with
  | minus => if c = '0' then some zero else if c.isDigit then some integer else none
  | zero => if c = '.' then some point else if c = 'e' ∨ c = 'E' then some exponent else none
  | integer =>
    if c.isDigit then some integer
    else if c = '.' then some point
    else if c = 'e' ∨ c = 'E' then some exponent
    else none
  | point => if c.isDigit then some fraction else none
  | fraction =>
    if c.isDigit then some fraction else if c = 'e' ∨ c = 'E' then some exponent else none
  | exponent =>
    if c.isDigit then some exponentDigits
    else if c = '+' ∨ c = '-' then some exponentSign
    else none
  | exponentSign => if c.isDigit then some exponentDigits else none
  | exponentDigits => if c.isDigit then some exponentDigits else none

/-- Whether a number may end here. -/
def isComplete : NumberPart → Bool
  | zero | integer | fraction | exponentDigits => true
  | minus | point | exponent | exponentSign => false

end NumberPart

/-- What the next character of a text belongs to.  Characters and units that have been read are
held last first. -/
inductive Mode
  /-- The next token. -/
  | between
  /-- A word of which this character and these ones are still to come. -/
  | word (next : Char) (rest : List Char) (token : Token)
  | number (part : NumberPart) (read : List Char)
  | string (read : Literal)
  /-- A string, after a backslash. -/
  | escape (read : Literal)
  /-- A string, inside a code escape of which so many digits are still to come. -/
  | code (read : Literal) (value missing : Nat)

/-- The tokens that have been read, last first, and what the next character belongs to. -/
structure Lexer where
  mode : Mode
  tokens : List Token

namespace Lexer

/-- Before the first character. -/
def start : Lexer := ⟨.between, []⟩

/-- Note a token that is complete. -/
def push (tokens : List Token) (t : Token) : Lexer := ⟨.between, t :: tokens⟩

/-- Whether a character may stand between tokens. -/
def isSpace (c : Char) : Bool := c = ' ' || c = '\t' || c = '\n' || c = '\r'

/-- Read a character that does not belong to an earlier token. -/
def begin? (tokens : List Token) (c : Char) : Option Lexer :=
  match c with
  | '[' => some (push tokens .openArray)
  | ']' => some (push tokens .closeArray)
  | '\x7b' => some (push tokens .openObject)
  | '\x7d' => some (push tokens .closeObject)
  | ',' => some (push tokens .comma)
  | ':' => some (push tokens .colon)
  | 'n' => some ⟨.word 'u' ['l', 'l'] .null, tokens⟩
  | 't' => some ⟨.word 'r' ['u', 'e'] (.bool true), tokens⟩
  | 'f' => some ⟨.word 'a' ['l', 's', 'e'] (.bool false), tokens⟩
  | '"' => some ⟨.string [], tokens⟩
  | '-' => some ⟨.number .minus ['-'], tokens⟩
  | '0' => some ⟨.number .zero ['0'], tokens⟩
  | _ =>
    if c.isDigit then some ⟨.number .integer [c], tokens⟩
    else if isSpace c then some ⟨.between, tokens⟩
    else none

/-- The character of an escape of one letter. -/
def escaped? : Char → Option Char
  | '"' => some '"'
  | '\\' => some '\\'
  | '/' => some '/'
  | 'b' => some '\x08'
  | 'f' => some '\x0c'
  | 'n' => some '\n'
  | 'r' => some '\r'
  | 't' => some '\t'
  | _ => none

/-- The unit of a code: a surrogate or a character. -/
def pieceOfCode (code : Nat) : Piece :=
  if 0xD800 ≤ code ∧ code < 0xE000 then .surrogate code else .char (Char.ofNat code)

/-- Read one character. -/
def step (l : Lexer) (c : Char) : Option Lexer :=
  match l.mode with
  | .between => begin? l.tokens c
  | .word next rest t =>
    if c = next then
      match rest with
      | [] => some (push l.tokens t)
      | next :: rest => some ⟨.word next rest t, l.tokens⟩
    else none
  | .number part read =>
    match part.next? c with
    | some next => some ⟨.number next (c :: read), l.tokens⟩
    | none =>
      if part.isComplete then begin? (.number (String.ofList read.reverse) :: l.tokens) c else none
  | .string read =>
    if c = '"' then some (push l.tokens (.string read.reverse))
    else if c = '\\' then some ⟨.escape read, l.tokens⟩
    else if c.toNat < 0x20 then none
    else some ⟨.string (.char c :: read), l.tokens⟩
  | .escape read =>
    if c = 'u' then some ⟨.code read 0 4, l.tokens⟩
    else (escaped? c).map fun x => ⟨.string (.char x :: read), l.tokens⟩
  | .code read value missing =>
    (Text.digit? 16 c).map fun d =>
      let value := value * 16 + d
      if missing ≤ 1 then ⟨.string (pieceOfCode value :: read), l.tokens⟩
      else ⟨.code read value (missing - 1), l.tokens⟩

/-- The tokens of a text that ends here, if it may end here. -/
def finish? (l : Lexer) : Option (List Token) :=
  match l.mode with
  | .between => some l.tokens.reverse
  | .number part read =>
    if part.isComplete then some (l.tokens.reverse ++ [.number (String.ofList read.reverse)])
    else none
  | _ => none

end Lexer

/-- The tokens of a text. -/
def tokens? (cs : List Char) : Option (List Token) :=
  (cs.foldlM Lexer.step Lexer.start).bind Lexer.finish?

end StatusBoard.Json
