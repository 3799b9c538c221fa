import Mathlib.Data.List.Chain
import StatusBoard.Proofs.Json.RoundTrip

/-!
# The grammar of JSON texts

A text spells a value if it is made of the spellings of the value's tokens, with any blanks between
them (`Json.Spells`).  Such a text is read as the value (`Json.parse?_of_spells`): a number goes on
as long as it can, but a number of a value ends where its item or member ends, and there the reader
ends it too.
-/

namespace StatusBoard.Json

/-! ### Numbers -/

/-- Some digits. -/
def IsDigits (cs : List Char) : Prop := cs ≠ [] ∧ ∀ c ∈ cs, c.isDigit

/-- An integer: no needless zeros, and perhaps a minus in front. -/
inductive IsInteger : List Char → Prop
  | zero : IsInteger ['0']
  | digits {c : Char} {cs : List Char} (hc : c.isDigit) (hzero : c ≠ '0')
    (hcs : ∀ d ∈ cs, d.isDigit) : IsInteger (c :: cs)

/-- A number before its exponent. -/
inductive IsDecimal : List Char → Prop
  | integer {cs : List Char} (h : IsInteger cs) : IsDecimal cs
  | fraction {cs ds : List Char} (h : IsInteger cs) (hds : IsDigits ds) :
    IsDecimal (cs ++ '.' :: ds)

/-- A number without a sign in front. -/
inductive IsUnsigned : List Char → Prop
  | decimal {cs : List Char} (h : IsDecimal cs) : IsUnsigned cs
  | exponent {cs sign ds : List Char} {e : Char} (h : IsDecimal cs) (he : e = 'e' ∨ e = 'E')
    (hsign : sign = [] ∨ sign = ['+'] ∨ sign = ['-']) (hds : IsDigits ds) :
    IsUnsigned (cs ++ e :: (sign ++ ds))

/-- The spelling of a number. -/
inductive IsNumber : List Char → Prop
  | positive {cs : List Char} (h : IsUnsigned cs) : IsNumber cs
  | negative {cs : List Char} (h : IsUnsigned cs) : IsNumber ('-' :: cs)

/-! ### Tokens -/

/-- A unit of a string: a character that is no quote, backslash or control character, an escape of
one letter, or the code of a unit in four digits. -/
inductive Piece.Spelled : Piece → List Char → Prop
  | plain {c : Char} (hquote : c ≠ '"') (hslash : c ≠ '\\') (hcontrol : ¬ c.toNat < 0x20) :
    Spelled (.char c) [c]
  | letter {c x : Char} (h : Lexer.escaped? c = some x) : Spelled (.char x) ['\\', c]
  | code {code : Nat} {digits : List Char} (hlength : digits.length = 4)
    (hdigits : Text.numeral? 16 digits = some code) :
    Spelled (Lexer.pieceOfCode code) ('\\' :: 'u' :: digits)

/-- The contents of a string. -/
inductive Literal.Spelled : Literal → List Char → Prop
  | nil : Spelled [] []
  | append {l : Literal} {p : Piece} {cs text : List Char} (h : Spelled l cs)
    (hp : p.Spelled text) : Spelled (l ++ [p]) (cs ++ text)

/-- A token that is spelled in one way only. -/
def Token.isFixed : Token → Prop
  | number _ | string _ => False
  | _ => True

/-- The spelling of a token. -/
inductive Token.Spelled : Token → List Char → Prop
  | fixed {t : Token} (h : t.isFixed) : Spelled t t.text
  | number {cs : List Char} (h : IsNumber cs) : Spelled (.number (String.ofList cs)) cs
  | string {l : Literal} {cs : List Char} (h : l.Spelled cs) :
    Spelled (.string l) ('"' :: (cs ++ ['"']))

/-! ### Texts -/

/-- Tokens after each other, with any blanks around them. -/
inductive Spaced : List Token → List Char → Prop
  | nil : Spaced [] []
  | blank {ts : List Token} {cs : List Char} {c : Char} (h : Spaced ts cs)
    (hc : Lexer.isSpace c) : Spaced ts (cs ++ [c])
  | token {ts : List Token} {t : Token} {cs text : List Char} (h : Spaced ts cs)
    (ht : t.Spelled text) : Spaced (ts ++ [t]) (cs ++ text)

/-- The text spells the value. -/
def Spells (v : Json) (s : String) : Prop := Spaced v.tokens s.toList

/-! ### What is spelled is read -/

namespace NumberPart

/-- Go on with a number. -/
def run? (part : NumberPart) (cs : List Char) : Option NumberPart := cs.foldlM next? part

theorem run?_append (part : NumberPart) (cs cs' : List Char) :
    part.run? (cs ++ cs') = (part.run? cs).bind (·.run? cs') := List.foldlM_append

theorem run?_digits (part : NumberPart) (hpart : ∀ c : Char, c.isDigit → part.next? c = some part)
    {cs : List Char} (h : ∀ c ∈ cs, c.isDigit) : part.run? cs = some part := by
  induction cs with
  | nil => rfl
  | cons c cs ih =>
    rw [List.forall_mem_cons] at h
    rw [run?, List.foldlM_cons, hpart c h.1]
    exact ih h.2

/-- After its first digit a part takes more of them. -/
theorem run?_isDigits (part part' : NumberPart)
    (hfirst : ∀ c : Char, c.isDigit → part.next? c = some part')
    (hnext : ∀ c : Char, c.isDigit → part'.next? c = some part') {cs : List Char}
    (h : IsDigits cs) : part.run? cs = some part' := by
  obtain ⟨hne, hdigits⟩ := h
  cases cs with
  | nil => exact absurd rfl hne
  | cons c cs =>
    rw [List.forall_mem_cons] at hdigits
    rw [run?, List.foldlM_cons, hfirst c hdigits.1]
    exact run?_digits part' hnext hdigits.2

theorem run?_integer {cs : List Char} (h : IsInteger cs) :
    minus.run? cs = some zero ∨ minus.run? cs = some integer := by
  cases h with
  | zero => exact .inl rfl
  | @digits c cs hc hzero hcs =>
    have hfirst : minus.next? c = some integer := by simp [next?, hzero, hc]
    refine .inr ?_
    rw [run?, List.foldlM_cons, hfirst]
    exact run?_digits integer (fun _ hc => if_pos hc) hcs

theorem run?_decimal {cs : List Char} (h : IsDecimal cs) :
    ∃ part, minus.run? cs = some part ∧ (part = zero ∨ part = integer ∨ part = fraction) := by
  cases h with
  | integer h =>
    rcases run?_integer h with hrun | hrun
    · exact ⟨zero, hrun, .inl rfl⟩
    · exact ⟨integer, hrun, .inr (.inl rfl)⟩
  | @fraction cs ds h hds =>
    have hdigits : point.run? ds = some fraction :=
      run?_isDigits point fraction (fun _ hc => if_pos hc) (fun _ hc => if_pos hc) hds
    refine ⟨fraction, ?_, .inr (.inr rfl)⟩
    rw [run?_append]
    rcases run?_integer h with hrun | hrun <;> rw [hrun] <;> exact hdigits

theorem run?_unsigned {cs : List Char} (h : IsUnsigned cs) :
    ∃ part, minus.run? cs = some part ∧ part.isComplete := by
  cases h with
  | decimal h =>
    obtain ⟨part, hrun, rfl | rfl | rfl⟩ := run?_decimal h <;> exact ⟨_, hrun, rfl⟩
  | @exponent cs sign ds e h he hsign hds =>
    obtain ⟨part, hrun, hpart⟩ := run?_decimal h
    have he : part.next? e = some exponent := by
      rcases hpart with rfl | rfl | rfl <;> rcases he with rfl | rfl <;> rfl
    have hdigits : exponent.run? (sign ++ ds) = some exponentDigits := by
      have hnext (c : Char) (hc : c.isDigit) : exponentDigits.next? c = some exponentDigits :=
        if_pos hc
      have hsigned : exponentSign.run? ds = some exponentDigits :=
        run?_isDigits exponentSign exponentDigits (fun _ hc => if_pos hc) hnext hds
      rcases hsign with rfl | rfl | rfl
      · exact run?_isDigits exponent exponentDigits (fun _ hc => if_pos hc) hnext hds
      · exact hsigned
      · exact hsigned
    refine ⟨exponentDigits, ?_, rfl⟩
    rw [run?_append, hrun]
    change (part.next? e).bind (·.run? (sign ++ ds)) = _
    rw [he]
    exact hdigits

end NumberPart

namespace Lexer

variable {ts : List Token} {cs rest : List Char}

/-- The tokens of a text that goes on with these characters. -/
def run? (l : Lexer) (cs : List Char) : Option (List Token) := (cs.foldlM step l).bind finish?

theorem run?_append {l l' : Lexer} (h : cs.foldlM step l = some l') (rest : List Char) :
    run? l (cs ++ rest) = run? l' rest := by
  rw [run?, List.foldlM_append, h]
  rfl

/-! #### Numbers -/

theorem foldlM_part {part part' : NumberPart} (h : part.run? cs = some part') (read : List Char)
    (ts : List Token) : cs.foldlM step ⟨.number part read, ts⟩ =
      some ⟨.number part' (cs.reverse ++ read), ts⟩ := by
  induction cs generalizing part read with
  | nil =>
    cases h
    rfl
  | cons c cs ih =>
    rw [NumberPart.run?, List.foldlM_cons] at h
    obtain ⟨next, hnext, hrun⟩ := Option.bind_eq_some_iff.1 h
    have hstep : step ⟨.number part read, ts⟩ c = some ⟨.number next (c :: read), ts⟩ := by
      simp [step, hnext]
    rw [List.foldlM_cons, hstep, List.reverse_cons, List.append_assoc]
    exact ih hrun (c :: read)

/-- A number begins with the digit that may follow a minus. -/
theorem begin?_of_next? {c : Char} {part : NumberPart} (h : NumberPart.minus.next? c = some part)
    (ts : List Token) : begin? ts c = some ⟨.number part [c], ts⟩ := by
  unfold NumberPart.next? at h
  dsimp only at h
  split at h
  · next hzero =>
    cases h
    rw [hzero]
    rfl
  · next hzero =>
    split at h
    · next hc =>
      cases h
      exact begin?_digit hc hzero ts
    · cases h

theorem foldlM_number (h : IsNumber cs) (ts : List Token) : ∃ part : NumberPart, part.isComplete ∧
    cs.foldlM step ⟨.between, ts⟩ = some ⟨.number part cs.reverse, ts⟩ := by
  cases h with
  | positive h =>
    obtain ⟨part, hrun, hpart⟩ := NumberPart.run?_unsigned h
    refine ⟨part, hpart, ?_⟩
    cases cs with
    | nil =>
      cases hrun
      cases hpart
    | cons c cs =>
      rw [NumberPart.run?, List.foldlM_cons] at hrun
      obtain ⟨first, hfirst, hrun⟩ := Option.bind_eq_some_iff.1 hrun
      have hbegin : step ⟨.between, ts⟩ c = _ := begin?_of_next? hfirst ts
      rw [List.foldlM_cons, hbegin, List.reverse_cons]
      exact foldlM_part hrun [c] ts
  | @negative cs h =>
    obtain ⟨part, hrun, hpart⟩ := NumberPart.run?_unsigned h
    refine ⟨part, hpart, ?_⟩
    rw [List.reverse_cons]
    exact foldlM_part hrun ['-'] ts

/-- A number may end before these characters. -/
def EndsNumber (rest : List Char) : Prop :=
  ∀ c ∈ rest.head?, isSpace c ∨ c = ',' ∨ c = ']' ∨ c = '\x7d'

theorem next?_eq_none {c : Char} (hc : isSpace c ∨ c = ',' ∨ c = ']' ∨ c = '\x7d')
    (part : NumberPart) : part.next? c = none := by
  simp only [isSpace, Bool.or_eq_true, decide_eq_true_eq] at hc
  rcases hc with ((((rfl | rfl) | rfl) | rfl) | rfl | rfl | rfl) <;> cases part <;> rfl

/-- A number that is complete is ended by what may follow it. -/
theorem run?_number {part : NumberPart} (hpart : part.isComplete) (hrest : EndsNumber rest)
    (read : List Char) (ts : List Token) : run? ⟨.number part read, ts⟩ rest =
      run? ⟨.between, .number (String.ofList read.reverse) :: ts⟩ rest := by
  cases rest with
  | nil => simp [run?, finish?, hpart]
  | cons c rest =>
    have hnext := next?_eq_none (hrest c rfl) part
    have hstep : step ⟨.number part read, ts⟩ c =
        step ⟨.between, .number (String.ofList read.reverse) :: ts⟩ c := by
      simp [step, hnext, hpart]
    rw [run?, run?, List.foldlM_cons, List.foldlM_cons, hstep]

/-! #### Strings -/

theorem foldlM_code {digits : List Char} {value code missing : Nat} (hne : digits ≠ [])
    (hlength : digits.length = missing)
    (h : digits.foldlM (fun n c => (Text.digit? 16 c).map (n * 16 + ·)) value = some code)
    (read : Literal) (ts : List Token) : digits.foldlM step ⟨.code read value missing, ts⟩ =
      some ⟨.string (pieceOfCode code :: read), ts⟩ := by
  induction digits generalizing value missing with
  | nil => exact absurd rfl hne
  | cons c digits ih =>
    rw [List.foldlM_cons] at h
    obtain ⟨next, hnext, h⟩ := Option.bind_eq_some_iff.1 h
    obtain ⟨d, hd, rfl⟩ := Option.map_eq_some_iff.1 hnext
    rw [List.length_cons] at hlength
    cases digits with
    | nil =>
      cases h
      have hmissing : missing ≤ 1 := Nat.le_of_eq hlength.symm
      simp [step, hd, hmissing]
    | cons c' digits =>
      have hmissing : ¬ missing ≤ 1 := by
        rw [List.length_cons] at hlength
        omega
      have hstep : step ⟨.code read value missing, ts⟩ c =
          some ⟨.code read (value * 16 + d) (missing - 1), ts⟩ := by
        simp [step, hd, hmissing]
      rw [List.foldlM_cons, hstep]
      exact ih (List.cons_ne_nil _ _) (Nat.eq_sub_of_add_eq hlength) h

theorem foldlM_piece {p : Piece} (h : p.Spelled cs) (read : Literal) (ts : List Token) :
    cs.foldlM step ⟨.string read, ts⟩ = some ⟨.string (p :: read), ts⟩ := by
  cases h with
  | plain hquote hslash hcontrol => simp [step, hquote, hslash, hcontrol]
  | @letter c x h =>
    have hu : c ≠ 'u' := by
      rintro rfl
      cases h
    simp [step, hu, h]
  | @code code digits hlength hdigits =>
    have hne : digits ≠ [] := List.ne_nil_of_length_eq_add_one hlength
    rw [Text.numeral?, if_neg (by simpa using hne)] at hdigits
    exact foldlM_code hne hlength hdigits read ts

theorem foldlM_literal {l : Literal} (h : l.Spelled cs) (ts : List Token) :
    cs.foldlM step ⟨.string [], ts⟩ = some ⟨.string l.reverse, ts⟩ := by
  induction h with
  | nil => rfl
  | append _ hp ih =>
    rw [List.foldlM_append, ih, List.reverse_append]
    exact foldlM_piece hp _ ts

/-! #### Texts -/

/-- What follows a number among these tokens is a comma or the end of an array or an object. -/
def Separated (ts : List Token) : Prop :=
  ts.IsChain fun t t' => (∃ spelling, t = .number spelling) → Delimited [t']

/-- The tokens end with a number only if it may end there. -/
def Precedes (ts : List Token) (rest : List Char) : Prop :=
  ∀ spelling, ts.getLast? = some (.number spelling) → EndsNumber rest

theorem endsNumber_of_delimited {t : Token} (h : Delimited [t]) {text : List Char}
    (ht : t.Spelled text) (rest : List Char) : EndsNumber (text ++ rest) := by
  rcases h t rfl with rfl | rfl | rfl <;> cases ht <;>
    simp [EndsNumber, Token.text]

/-- Tokens are read from their text, in front of any text before which their last one may end. -/
theorem run?_spaced (h : Spaced ts cs) (hts : Separated ts) (hrest : Precedes ts rest) :
    run? start (cs ++ rest) = run? ⟨.between, ts.reverse⟩ rest := by
  -- The text grows at its end, so that what is read here is the rest for the tokens before.
  induction h generalizing rest with
  | nil => rfl
  | @blank ts cs c _ hc ih =>
    have hblank : EndsNumber ([c] ++ rest) := by
      intro c' hc'
      cases hc'
      exact .inl hc
    have hstep : [c].foldlM step ⟨.between, ts.reverse⟩ = some ⟨.between, ts.reverse⟩ := by
      simp only [isSpace, Bool.or_eq_true, decide_eq_true_eq] at hc
      rcases hc with ((rfl | rfl) | rfl) | rfl <;> rfl
    rw [List.append_assoc, ih hts fun _ _ => hblank, run?_append hstep]
  | @token ts t cs text _ ht ih =>
    obtain ⟨hts, -, hlast⟩ := List.isChain_append.1 hts
    have hbefore : Precedes ts (text ++ rest) := by
      intro spelling hnumber
      exact endsNumber_of_delimited (hlast _ hnumber t rfl ⟨spelling, rfl⟩) ht rest
    rw [List.append_assoc, ih hts hbefore, List.reverse_append]
    cases ht with
    | fixed hfixed =>
      have hdelimiting : t.isSelfDelimiting := by cases t <;> trivial
      exact run?_append (foldlM_text hdelimiting ts.reverse) rest
    | number hnumber =>
      obtain ⟨part, hpart, hread⟩ := foldlM_number hnumber ts.reverse
      rw [run?_append hread, run?_number hpart (hrest _ List.getLast?_concat),
        List.reverse_reverse]
      rfl
    | @string l cs hl =>
      have hread : ('"' :: (cs ++ ['"'])).foldlM step ⟨.between, ts.reverse⟩ =
          some (push ts.reverse (.string l)) := by
        change (cs ++ ['"']).foldlM step ⟨.string [], ts.reverse⟩ = _
        rw [List.foldlM_append, foldlM_literal hl]
        simp [step, push]
      exact run?_append hread rest

theorem Separated.cons {t : Token} (h : Separated ts) (ht : ∀ spelling, t ≠ .number spelling) :
    Separated (t :: ts) := by
  refine List.isChain_cons.2 ⟨?_, h⟩
  rintro t' - ⟨spelling, rfl⟩
  exact absurd rfl (ht spelling)

theorem Separated.append {ts' : List Token} (h : Separated ts) (h' : Separated ts')
    (hdelimited : Delimited ts') : Separated (ts ++ ts') := by
  refine List.isChain_append.2 ⟨h, h', ?_⟩
  rintro t - t' ht' - _ ⟨⟩
  exact hdelimited t' ht'

mutual

/-- Where a number ends in a value, an item or a member ends. -/
theorem separated_tokens (v : Json) : Separated v.tokens := by
  match v with
  | .null | .bool _ | .number _ | .string _ => exact List.isChain_singleton _
  | .array [] | .object [] => exact (List.isChain_singleton _).cons nofun
  | .array (v :: rest) =>
    have hitem := (separated_tokens v).cons (t := .openArray) nofun
    exact separated_items hitem rest
  | .object ((name, v) :: rest) =>
    have hvalue := ((separated_tokens v).cons (t := .colon) nofun).cons (t := .string name) nofun
    exact separated_members (hvalue.cons (t := .openObject) nofun) rest

theorem separated_items {before : List Token} (h : Separated before) (items : List Json) :
    Separated (before ++ itemTokens items) := by
  have hends := delimited_itemTokens items []
  rw [List.append_nil] at hends
  refine h.append ?_ hends
  match items with
  | [] => exact List.isChain_singleton _
  | v :: rest =>
    have hitem := (separated_tokens v).cons (t := .comma) nofun
    exact separated_items hitem rest

theorem separated_members {before : List Token} (h : Separated before)
    (members : List (Literal × Json)) : Separated (before ++ memberTokens members) := by
  have hends := delimited_memberTokens members []
  rw [List.append_nil] at hends
  refine h.append ?_ hends
  match members with
  | [] => exact List.isChain_singleton _
  | (name, v) :: rest =>
    have hvalue := ((separated_tokens v).cons (t := .colon) nofun).cons (t := .string name) nofun
    exact separated_members (hvalue.cons (t := .comma) nofun) rest

end

end Lexer

theorem tokens?_of_spaced {v : Json} {cs : List Char} (h : Spaced v.tokens cs) :
    tokens? cs = some v.tokens := by
  have hend : Lexer.Precedes v.tokens [] := by
    intro spelling _ c hc
    cases hc
  have hrun := Lexer.run?_spaced h (Lexer.separated_tokens v) hend
  rw [List.append_nil] at hrun
  change Lexer.run? Lexer.start cs = _
  rw [hrun]
  simp [Lexer.run?, Lexer.finish?]

/-- A text that spells a value is read as that value. -/
theorem parse?_of_spells {v : Json} {s : String} (h : v.Spells s) : parse? s = some v := by
  rw [parse?, tokens?_of_spaced h]
  exact ofTokens?_tokens v

end StatusBoard.Json
