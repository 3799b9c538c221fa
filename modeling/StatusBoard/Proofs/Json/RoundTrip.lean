import Mathlib.Tactic.IntervalCases
import StatusBoard.Json.Document
import StatusBoard.Json.Record
import StatusBoard.Proofs.Text.Numeral

/-!
# Written documents read back

A value is written as tokens and the tokens as text.  Reading takes both steps back: the tokens of a
value are read as that value (`Json.ofTokens?_tokens`), and their text as these tokens
(`Json.tokens?_tokens`), if its strings are texts and its numbers are integers.  A number ends only
where the next token begins, so texts are read together with what comes after them.
-/

namespace StatusBoard.Json

/-! ### Tokens in a text -/

/-- A token that is no number, and whose text, if it is a string, is a text. -/
def Token.isSelfDelimiting : Token → Prop
  | number _ => False
  | string s => ∃ text : String, s = .ofText text
  | _ => True

namespace Lexer

/-- The code of a control character is read as that character. -/
theorem foldlM_codeText {n : Nat} (hn : n < 0x20) (read : Literal) (ts : List Token) :
    (codeText n).foldlM step ⟨.code read 0 4, ts⟩ =
      some ⟨.string (.char (Char.ofNat n) :: read), ts⟩ := by
  interval_cases n <;> rfl

/-- Inside a string the text of a character is read as that character. -/
theorem foldlM_charText (c : Char) (read : Literal) (ts : List Token) :
    (Piece.text (.char c)).foldlM step ⟨.string read, ts⟩ =
      some ⟨.string (.char c :: read), ts⟩ := by
  unfold Piece.text
  split
  case h_8 d hquote hslash _ _ _ _ _ heq =>
    cases heq
    have hquote : c ≠ '"' := hquote
    have hslash : c ≠ '\\' := hslash
    split
    · next hlow =>
      have hcode := foldlM_codeText hlow read ts
      rw [Char.ofNat_toNat] at hcode
      exact hcode
    · next hhigh => simp [step, hquote, hslash, hhigh]
  case h_9 heq => cases heq
  all_goals
    next heq => cases heq; rfl

/-- Inside a string the text of some characters is read as these characters. -/
theorem foldlM_charsText (cs : List Char) (read : Literal) (ts : List Token) :
    ((cs.map Piece.char).flatMap Piece.text).foldlM step ⟨.string read, ts⟩ =
      some ⟨.string ((cs.map Piece.char).reverse ++ read), ts⟩ := by
  induction cs generalizing read with
  | nil => rfl
  | cons c cs ih =>
    rw [List.map_cons, List.flatMap_cons, List.foldlM_append, foldlM_charText]
    simpa using ih (.char c :: read)

/-- Between tokens the text of a token is read as that token, unless it is a number: a number ends
only where the next token begins. -/
theorem foldlM_text {t : Token} (ht : t.isSelfDelimiting) (ts : List Token) :
    t.text.foldlM step ⟨.between, ts⟩ = some (push ts t) := by
  cases t with
  | number spelling => simp [Token.isSelfDelimiting] at ht
  | bool b => cases b <;> rfl
  | string s =>
    obtain ⟨text, rfl⟩ := ht
    have hchars := foldlM_charsText text.toList [] ts
    rw [List.append_nil] at hchars
    change ((Literal.ofText text).flatMap Piece.text ++ ['"']).foldlM step ⟨.string [], ts⟩ = _
    rw [List.foldlM_append, Literal.ofText, hchars]
    simp [step, push]
  | _ => rfl

/-! ### Numbers in a text -/

theorem begin?_digit {c : Char} (hc : c.isDigit) (hzero : c ≠ '0') (ts : List Token) :
    begin? ts c = some ⟨.number .integer [c], ts⟩ := by
  unfold begin?
  split
  -- Only the branch of the zero and the last one are about digits.
  case h_12 => exact absurd rfl hzero
  case h_13 => exact if_pos hc
  all_goals exact absurd hc (by decide)

theorem foldlM_digits {cs : List Char} (h : ∀ c ∈ cs, c.isDigit) (read : List Char)
    (ts : List Token) : cs.foldlM step ⟨.number .integer read, ts⟩ =
      some ⟨.number .integer (cs.reverse ++ read), ts⟩ := by
  induction cs generalizing read with
  | nil => rfl
  | cons c cs ih =>
    rw [List.forall_mem_cons] at h
    have hstep : step ⟨.number .integer read, ts⟩ c = some ⟨.number .integer (c :: read), ts⟩ := by
      simp [step, NumberPart.next?, h.1]
    rw [List.foldlM_cons, hstep]
    simpa using ih h.2 (c :: read)

/-- The text of an integer is read as a number that may end there. -/
theorem foldlM_intText (i : Int) (ts : List Token) : ∃ part : NumberPart, part.isComplete ∧
    (toString i).toList.foldlM step ⟨.between, ts⟩ =
      some ⟨.number part (toString i).toList.reverse, ts⟩ := by
  cases i with
  | ofNat n =>
    rw [Text.toList_toString_ofNat]
    rcases Nat.eq_zero_or_pos n with rfl | hn
    · exact ⟨.zero, rfl, rfl⟩
    · obtain ⟨c, cs, hnumeral, hzero, hc, hcs⟩ := Text.exists_numeral_eq_cons hn
      have hbegin : step ⟨.between, ts⟩ c = _ := begin?_digit hc hzero ts
      refine ⟨.integer, rfl, ?_⟩
      rw [hnumeral, List.foldlM_cons, hbegin, List.reverse_cons]
      exact foldlM_digits hcs [c] ts
  | negSucc n =>
    rw [Text.toList_toString_negSucc]
    obtain ⟨c, cs, hnumeral, hzero, hc, hcs⟩ := Text.exists_numeral_eq_cons (Nat.succ_pos n)
    have hbegin : step ⟨.number .minus ['-'], ts⟩ c = some ⟨.number .integer [c, '-'], ts⟩ := by
      simp [step, NumberPart.next?, hzero, hc]
    refine ⟨.integer, rfl, ?_⟩
    change (Text.numeral 10 (n + 1)).foldlM step ⟨.number .minus ['-'], ts⟩ = _
    rw [hnumeral, List.foldlM_cons, hbegin, List.reverse_cons, List.reverse_cons, List.append_assoc]
    exact foldlM_digits hcs [c, '-'] ts

/-! ### Tokens after each other -/

/-- The tokens of a text that goes on with these ones. -/
def finishAfter? (l : Lexer) (ts : List Token) : Option (List Token) :=
  ((ts.flatMap Token.text).foldlM step l).bind finish?

/-- A number may end before these tokens. -/
def Delimited (ts : List Token) : Prop :=
  ∀ t ∈ ts.head?, t = .comma ∨ t = .closeArray ∨ t = .closeObject

/-- A number is complete at the end of the text and where an item or a member ends. -/
theorem finishAfter?_number {part : NumberPart} (hpart : part.isComplete) {rest : List Token}
    (hrest : Delimited rest) (read : List Char) (before : List Token) :
    finishAfter? ⟨.number part read, before⟩ rest =
      finishAfter? ⟨.between, .number (String.ofList read.reverse) :: before⟩ rest := by
  cases rest with
  | nil => simp [finishAfter?, finish?, hpart]
  | cons t rest =>
    have hends (c : Char) (hnext : part.next? c = none) :
        step ⟨.number part read, before⟩ c =
          step ⟨.between, .number (String.ofList read.reverse) :: before⟩ c := by
      simp [step, hnext, hpart]
    have hfirst : t.text.foldlM step ⟨.number part read, before⟩ =
        t.text.foldlM step ⟨.between, .number (String.ofList read.reverse) :: before⟩ := by
      rcases hrest t rfl with rfl | rfl | rfl
      · exact congrArg (· >>= pure) (hends ',' (by cases part <;> rfl))
      · exact congrArg (· >>= pure) (hends ']' (by cases part <;> rfl))
      · exact congrArg (· >>= pure) (hends '\x7d' (by cases part <;> rfl))
    rw [finishAfter?, finishAfter?, List.flatMap_cons, List.foldlM_append, List.foldlM_append,
      hfirst]

/-- These tokens are read from their text, after any tokens and in front of any text before which a
number may end. -/
def Lexed (ts : List Token) : Prop :=
  ∀ before rest, Delimited rest →
    finishAfter? ⟨.between, before⟩ (ts ++ rest) =
      finishAfter? ⟨.between, ts.reverse ++ before⟩ rest

section Lexed

variable {t : Token} {ts ts' : List Token}

theorem lexed_nil : Lexed [] := fun _ _ _ => rfl

theorem lexed_int (i : Int) : Lexed [.number (toString i)] := by
  intro before rest hrest
  obtain ⟨part, hpart, hread⟩ := foldlM_intText i before
  have hnumber : finishAfter? ⟨.between, before⟩ ([.number (toString i)] ++ rest) =
      finishAfter? ⟨.number part (toString i).toList.reverse, before⟩ rest := by
    rw [finishAfter?, List.singleton_append, List.flatMap_cons, Token.text, List.foldlM_append,
      hread]
    rfl
  rw [hnumber, finishAfter?_number hpart hrest, List.reverse_reverse, String.ofList_toList]
  rfl

theorem Lexed.cons (ht : t.isSelfDelimiting) (h : Lexed ts) : Lexed (t :: ts) := by
  intro before rest hrest
  have hfirst : finishAfter? ⟨.between, before⟩ (t :: ts ++ rest) =
      finishAfter? ⟨.between, t :: before⟩ (ts ++ rest) := by
    rw [finishAfter?, List.cons_append, List.flatMap_cons, List.foldlM_append, foldlM_text ht]
    rfl
  rw [hfirst, h _ rest hrest, List.reverse_cons, List.append_assoc, List.singleton_append]

theorem Lexed.append (h : Lexed ts) (h' : Lexed ts') (hends : ∀ rest, Delimited (ts' ++ rest)) :
    Lexed (ts ++ ts') := by
  intro before rest hrest
  rw [List.append_assoc, h _ _ (hends rest), h' _ rest hrest, List.reverse_append,
    List.append_assoc]

theorem delimited_itemTokens (items : List Json) (rest : List Token) :
    Delimited (itemTokens items ++ rest) := by
  cases items <;> simp [itemTokens, Delimited]

theorem delimited_memberTokens (members : List (Literal × Json)) (rest : List Token) :
    Delimited (memberTokens members ++ rest) := by
  cases members <;> simp [memberTokens, Delimited]

theorem lexed_itemTokens {items : List Json} (h : ∀ v ∈ items, Lexed v.tokens) :
    Lexed (itemTokens items) := by
  induction items with
  | nil => exact lexed_nil.cons trivial
  | cons v rest ih =>
    rw [List.forall_mem_cons] at h
    have hitem := h.1.cons (t := .comma) trivial
    exact hitem.append (ih h.2) (delimited_itemTokens rest)

theorem lexed_memberTokens {members : List (String × Json)}
    (h : ∀ m ∈ members, Lexed m.2.tokens) :
    Lexed (memberTokens (members.map fun m => (.ofText m.1, m.2))) := by
  induction members with
  | nil => exact lexed_nil.cons trivial
  | cons m rest ih =>
    rw [List.forall_mem_cons] at h
    have hname : (Token.string (.ofText m.1)).isSelfDelimiting := ⟨m.1, rfl⟩
    have hmember := ((h.1.cons (t := .colon) trivial).cons hname).cons (t := .comma) trivial
    exact hmember.append (ih h.2) (delimited_memberTokens _)

end Lexed

end Lexer

/-! ### Values in tokens -/

namespace Reader

/-- Go on reading tokens. -/
def read (r : Reader) (ts : List Token) : Option Reader := ts.foldlM step r

theorem read_append (r : Reader) (ts ts' : List Token) :
    r.read (ts ++ ts') = (r.read ts).bind (·.read ts') := List.foldlM_append

/-- The first item of an array begins with no closing bracket. -/
theorem read_firstItem (v : Json) (frames : List Frame) :
    read ⟨.firstItem, frames⟩ v.tokens = read ⟨.value, .array [] :: frames⟩ v.tokens := by
  match v with
  | .null | .bool _ | .number _ | .string _ => rfl
  | .array [] | .array (_ :: _) => rfl
  | .object [] | .object (_ :: _) => rfl

mutual

/-- Where a value may stand its tokens are read as that value. -/
theorem read_tokens (v : Json) (frames : List Frame) :
    read ⟨.value, frames⟩ v.tokens = some ⟨.after v, frames⟩ := by
  match v with
  | .null | .bool _ | .number _ | .string _ => rfl
  | .array [] => rfl
  | .array (v :: rest) =>
    have hv := read_tokens v (.array [] :: frames)
    have hrest := read_itemTokens v [] rest frames
    change read ⟨.firstItem, frames⟩ (v.tokens ++ itemTokens rest) = _
    rw [read_append, read_firstItem, hv]
    exact hrest
  | .object [] => rfl
  | .object ((name, v) :: rest) =>
    have hv := read_tokens v (.object [] name :: frames)
    have hrest := read_memberTokens name v [] rest frames
    change read ⟨.value, .object [] name :: frames⟩ (v.tokens ++ memberTokens rest) = _
    rw [read_append, hv]
    exact hrest

/-- After an item the tokens of the items that follow it are read as these items. -/
theorem read_itemTokens (v : Json) (before rest : List Json) (frames : List Frame) :
    read ⟨.after v, .array before :: frames⟩ (itemTokens rest) =
      some ⟨.after (.array (before.reverse ++ v :: rest)), frames⟩ := by
  match rest with
  | [] => simp [itemTokens, read, step, after?]
  | w :: rest =>
    have hw := read_tokens w (.array (v :: before) :: frames)
    have hrest := read_itemTokens w (v :: before) rest frames
    change read ⟨.value, .array (v :: before) :: frames⟩ (w.tokens ++ itemTokens rest) = _
    rw [read_append, hw]
    simpa using hrest

/-- After a member the tokens of the members that follow it are read as these members. -/
theorem read_memberTokens (name : Literal) (v : Json) (before rest : List (Literal × Json))
    (frames : List Frame) :
    read ⟨.after v, .object before name :: frames⟩ (memberTokens rest) =
      some ⟨.after (.object (before.reverse ++ (name, v) :: rest)), frames⟩ := by
  match rest with
  | [] => simp [memberTokens, read, step, after?]
  | (other, w) :: rest =>
    have hw := read_tokens w (.object ((name, v) :: before) other :: frames)
    have hrest := read_memberTokens other w ((name, v) :: before) rest frames
    change read ⟨.value, .object ((name, v) :: before) other :: frames⟩
      (w.tokens ++ memberTokens rest) = _
    rw [read_append, hw]
    simpa using hrest

end

end Reader

/-- The tokens of a value are read as that value. -/
theorem ofTokens?_tokens (v : Json) : ofTokens? v.tokens = some v := by
  have hread := Reader.read_tokens v []
  rw [Reader.read] at hread
  rw [ofTokens?, Reader.start, hread]
  rfl

/-! ### Values in a text -/

/-- A value whose strings are texts and whose numbers are integers in their usual spelling. -/
inductive Plain : Json → Prop
  | null : Plain null
  | bool (b : Bool) : Plain (bool b)
  | int (i : Int) : Plain (ofInt i)
  | string (s : String) : Plain (ofString s)
  | array {items : List Json} (h : ∀ v ∈ items, Plain v) : Plain (array items)
  | object {members : List (String × Json)} (h : ∀ m ∈ members, Plain m.2) :
    Plain (ofMembers members)

theorem Plain.lexed_tokens {v : Json} (h : v.Plain) : Lexer.Lexed v.tokens := by
  induction h with
  | null | bool => exact Lexer.lexed_nil.cons trivial
  | int i => exact Lexer.lexed_int i
  | string s => exact Lexer.lexed_nil.cons ⟨s, rfl⟩
  | @array items _ ih =>
    cases items with
    | nil => exact (Lexer.lexed_nil.cons (t := .closeArray) trivial).cons trivial
    | cons v rest =>
      rw [List.forall_mem_cons] at ih
      have hitem := ih.1.cons (t := .openArray) trivial
      exact hitem.append (Lexer.lexed_itemTokens ih.2) (Lexer.delimited_itemTokens rest)
  | @object members _ ih =>
    cases members with
    | nil => exact (Lexer.lexed_nil.cons (t := .closeObject) trivial).cons trivial
    | cons m rest =>
      rw [List.forall_mem_cons] at ih
      have hname : (Token.string (.ofText m.1)).isSelfDelimiting := ⟨m.1, rfl⟩
      have hmember := ((ih.1.cons (t := .colon) trivial).cons hname).cons (t := .openObject) trivial
      exact hmember.append (Lexer.lexed_memberTokens ih.2) (Lexer.delimited_memberTokens _)

/-- The text of a value is read as its tokens. -/
theorem tokens?_tokens {v : Json} (h : v.Plain) :
    tokens? (v.tokens.flatMap Token.text) = some v.tokens := by
  have hend : Lexer.Delimited [] := by simp [Lexer.Delimited]
  have htokens := h.lexed_tokens [] [] hend
  rw [List.append_nil, List.append_nil] at htokens
  change Lexer.finishAfter? ⟨.between, []⟩ v.tokens = _
  rw [htokens]
  simp [Lexer.finishAfter?, Lexer.finish?]

/-- The text of a value is read as that value. -/
theorem parse?_render {v : Json} (h : v.Plain) : parse? v.render = some v := by
  rw [parse?, render, String.toList_ofList, tokens?_tokens h]
  exact ofTokens?_tokens v

/-! ### Lists of texts -/

/-- The pieces of a text are that text. -/
theorem Literal.text?_ofText (s : String) : (Literal.ofText s).text? = some s := by
  have hchars (cs : List Char) : Literal.chars? (cs.map .char) = some cs := by
    induction cs with
    | nil => rfl
    | cons c cs ih => simp [Literal.chars?, ih]
  simp [Literal.text?, Literal.ofText, hchars]

theorem text?_ofString (s : String) : (ofString s).text? = some s := Literal.text?_ofText s

/-- What is written item by item is read item by item. -/
theorem list?_array {α : Type} {read : Json → Option α} {write : α → Json}
    (h : ∀ a, read (write a) = some a) (l : List α) :
    (array (l.map write)).list? read = some l := by
  rw [list?]
  induction l with
  | nil => rfl
  | cons a l ih => simp [h, ih]

/-- A list of texts is written so that it is read back. -/
theorem list?_render (texts : List String) :
    (parse? (Json.array (texts.map .ofString)).render).bind (list? text?) = some texts := by
  have hplain : (Json.array (texts.map .ofString)).Plain :=
    .array (List.forall_mem_map.2 fun s _ => .string s)
  rw [parse?_render hplain]
  exact list?_array text?_ofString texts

end StatusBoard.Json
