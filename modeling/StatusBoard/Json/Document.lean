import StatusBoard.Json.Token

/-!
# Reading and writing JSON documents

`Json.tokens` and `Json.render` write a value, `Json.ofTokens?` and `Json.parse?` read one.  The
reader keeps the arrays and objects that are still open on a stack of its own, so that documents may
nest to any depth.
-/

namespace StatusBoard.Json

/-! ### Writing -/

mutual

/-- The tokens of a value. -/
def tokens : Json → List Token
  | null => [.null]
  | bool b => [.bool b]
  | number spelling => [.number spelling]
  | string s => [.string s]
  | array [] => [.openArray, .closeArray]
  | array (v :: rest) => .openArray :: v.tokens ++ itemTokens rest
  | object [] => [.openObject, .closeObject]
  | object ((name, v) :: rest) =>
    .openObject :: .string name :: .colon :: v.tokens ++ memberTokens rest

/-- The tokens of the items that follow the first one, and of the end of their array. -/
def itemTokens : List Json → List Token
  | [] => [.closeArray]
  | v :: rest => .comma :: v.tokens ++ itemTokens rest

/-- The tokens of the members that follow the first one, and of the end of their object. -/
def memberTokens : List (Literal × Json) → List Token
  | [] => [.closeObject]
  | (name, v) :: rest => .comma :: .string name :: .colon :: v.tokens ++ memberTokens rest

end

/-- The text of a value, without blanks between its tokens. -/
def render (v : Json) : String := String.ofList (v.tokens.flatMap Token.text)

/-! ### Reading -/

/-- An array or an object that is still open.  Its values so far are held last first. -/
inductive Frame
  | array (before : List Json)
  /-- An object of which the value of the member `name` is being read. -/
  | object (before : List (Literal × Json)) (name : Literal)

/-- What the next token has to be. -/
inductive Expected
  | value
  /-- The first item of an array, or its end. -/
  | firstItem
  /-- The name of the first member of an object, or the object's end. -/
  | firstName
  | name (before : List (Literal × Json))
  | colon (before : List (Literal × Json)) (name : Literal)
  /-- What may follow a complete value. -/
  | after (v : Json)

/-- A document that has been read in part. -/
structure Reader where
  expected : Expected
  frames : List Frame

namespace Reader

/-- Before the first token. -/
def start : Reader := ⟨.value, []⟩

/-- Read the first token of a value. -/
def value? (frames : List Frame) : Token → Option Reader
  | .openArray => some ⟨.firstItem, frames⟩
  | .openObject => some ⟨.firstName, frames⟩
  | .null => some ⟨.after .null, frames⟩
  | .bool b => some ⟨.after (.bool b), frames⟩
  | .number spelling => some ⟨.after (.number spelling), frames⟩
  | .string s => some ⟨.after (.string s), frames⟩
  | _ => none

/-- Read the token after a value. -/
def after? (v : Json) : List Frame → Token → Option Reader
  | .array before :: frames, .comma => some ⟨.value, .array (v :: before) :: frames⟩
  | .array before :: frames, .closeArray => some ⟨.after (.array (v :: before).reverse), frames⟩
  | .object before name :: frames, .comma => some ⟨.name ((name, v) :: before), frames⟩
  | .object before name :: frames, .closeObject =>
    some ⟨.after (.object ((name, v) :: before).reverse), frames⟩
  | _, _ => none

/-- Read one token. -/
def step (r : Reader) (t : Token) : Option Reader :=
  match r.expected, t with
  | .value, t => value? r.frames t
  | .firstItem, .closeArray => some ⟨.after (.array []), r.frames⟩
  | .firstItem, t => value? (.array [] :: r.frames) t
  | .firstName, .closeObject => some ⟨.after (.object []), r.frames⟩
  | .firstName, .string name => some ⟨.colon [] name, r.frames⟩
  | .name before, .string name => some ⟨.colon before name, r.frames⟩
  | .colon before name, .colon => some ⟨.value, .object before name :: r.frames⟩
  | .after v, t => after? v r.frames t
  | _, _ => none

/-- The value of a document that ends here, if it may end here. -/
def finish? : Reader → Option Json
  | ⟨.after v, []⟩ => some v
  | _ => none

end Reader

/-- The value that these tokens write. -/
def ofTokens? (tokens : List Token) : Option Json :=
  (tokens.foldlM Reader.step Reader.start).bind Reader.finish?

/-- The value of a text: one value, with nothing but blanks around its tokens. -/
def parse? (s : String) : Option Json := (tokens? s.toList).bind ofTokens?

end StatusBoard.Json
