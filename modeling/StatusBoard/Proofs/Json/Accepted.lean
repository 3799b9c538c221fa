import StatusBoard.Proofs.Json.Grammar

/-!
# Texts that are read

Only texts that spell a value are read (`Json.parse?_eq_some_iff`).  What has been read of a text at
any time is made of tokens and the beginning of the next one (`Json.Lexer.Reads`), and the tokens
that have been read of a document are those of its open arrays and objects
(`Json.Reader.readTokens`).
-/

namespace StatusBoard.Json

/-! ### Numbers -/

namespace NumberPart

/-- What was read of a number without its sign when a part of it was read last. -/
def Begun : NumberPart → List Char → Prop
  | minus, cs => cs = []
  | zero, cs => IsInteger cs
  | integer, cs =>
    ∃ c ds, c.isDigit ∧ c ≠ '0' ∧ (∀ d ∈ ds, d.isDigit) ∧ cs = c :: ds
  | point, cs => ∃ whole, IsInteger whole ∧ cs = whole ++ ['.']
  | fraction, cs => ∃ whole ds, IsInteger whole ∧ IsDigits ds ∧ cs = whole ++ '.' :: ds
  | exponent, cs => ∃ decimal e, IsDecimal decimal ∧ (e = 'e' ∨ e = 'E') ∧ cs = decimal ++ [e]
  | exponentSign, cs => ∃ decimal e sign, IsDecimal decimal ∧ (e = 'e' ∨ e = 'E') ∧
    (sign = '+' ∨ sign = '-') ∧ cs = decimal ++ [e, sign]
  | exponentDigits, cs => ∃ decimal e sign ds, IsDecimal decimal ∧ (e = 'e' ∨ e = 'E') ∧
    (sign = [] ∨ sign = ['+'] ∨ sign = ['-']) ∧ IsDigits ds ∧ cs = decimal ++ e :: (sign ++ ds)

theorem isDigits_singleton {c : Char} (hc : c.isDigit) : IsDigits [c] :=
  ⟨List.cons_ne_nil _ _, List.forall_mem_singleton.2 hc⟩

theorem isDigits_snoc {ds : List Char} {c : Char} (h : IsDigits ds) (hc : c.isDigit) :
    IsDigits (ds ++ [c]) :=
  ⟨List.append_ne_nil_of_left_ne_nil h.1 _,
    List.forall_mem_append.2 ⟨h.2, List.forall_mem_singleton.2 hc⟩⟩

/-- An integer goes on with a fraction or an exponent. -/
theorem begun_of_isInteger {part : NumberPart} {cs : List Char} {c : Char} (h : IsInteger cs)
    (hnext : zero.next? c = some part) : part.Begun (cs ++ [c]) := by
  unfold next? at hnext
  dsimp only at hnext
  split at hnext
  · next hpoint =>
    cases hnext
    exact ⟨cs, h, by rw [hpoint]⟩
  · obtain ⟨he, ⟨⟩⟩ := Option.ite_none_right_eq_some.1 hnext
    exact ⟨cs, c, .integer h, he, rfl⟩

theorem Begun.next {part part' : NumberPart} {cs : List Char} {c : Char} (h : part.Begun cs)
    (hnext : part.next? c = some part') : part'.Begun (cs ++ [c]) := by
  unfold next? at hnext
  cases part with
  | minus =>
    cases h
    dsimp only at hnext
    split at hnext
    · next hzero =>
      cases hnext
      rw [hzero]
      exact .zero
    · next hzero =>
      obtain ⟨hc, ⟨⟩⟩ := Option.ite_none_right_eq_some.1 hnext
      exact ⟨c, [], hc, hzero, List.forall_mem_nil _, rfl⟩
  | zero => exact begun_of_isInteger h hnext
  | integer =>
    obtain ⟨d, ds, hd, hzero, hds, rfl⟩ := h
    dsimp only at hnext
    split at hnext
    · next hc =>
      cases hnext
      have hdigits := List.forall_mem_append.2 ⟨hds, List.forall_mem_singleton.2 hc⟩
      exact ⟨d, ds ++ [c], hd, hzero, hdigits, rfl⟩
    · exact begun_of_isInteger (.digits hd hzero hds) hnext
  | point =>
    obtain ⟨whole, hwhole, rfl⟩ := h
    obtain ⟨hc, ⟨⟩⟩ := Option.ite_none_right_eq_some.1 hnext
    exact ⟨whole, [c], hwhole, isDigits_singleton hc, by simp⟩
  | fraction =>
    obtain ⟨whole, ds, hwhole, hds, rfl⟩ := h
    dsimp only at hnext
    split at hnext
    · next hc =>
      cases hnext
      exact ⟨whole, ds ++ [c], hwhole, isDigits_snoc hds hc, by simp⟩
    · obtain ⟨he, ⟨⟩⟩ := Option.ite_none_right_eq_some.1 hnext
      exact ⟨_, c, .fraction hwhole hds, he, rfl⟩
  | exponent =>
    obtain ⟨decimal, e, hdecimal, he, rfl⟩ := h
    dsimp only at hnext
    split at hnext
    · next hc =>
      cases hnext
      exact ⟨decimal, e, [], [c], hdecimal, he, .inl rfl, isDigits_singleton hc, by simp⟩
    · obtain ⟨hsign, ⟨⟩⟩ := Option.ite_none_right_eq_some.1 hnext
      exact ⟨decimal, e, c, hdecimal, he, hsign, by simp⟩
  | exponentSign =>
    obtain ⟨decimal, e, sign, hdecimal, he, hsign, rfl⟩ := h
    obtain ⟨hc, ⟨⟩⟩ := Option.ite_none_right_eq_some.1 hnext
    refine ⟨decimal, e, [sign], [c], hdecimal, he, ?_, isDigits_singleton hc, by simp⟩
    rcases hsign with rfl | rfl
    · exact .inr (.inl rfl)
    · exact .inr (.inr rfl)
  | exponentDigits =>
    obtain ⟨decimal, e, sign, ds, hdecimal, he, hsign, hds, rfl⟩ := h
    obtain ⟨hc, ⟨⟩⟩ := Option.ite_none_right_eq_some.1 hnext
    exact ⟨decimal, e, sign, ds ++ [c], hdecimal, he, hsign, isDigits_snoc hds hc, by simp⟩

theorem begun_of_run? {part : NumberPart} {cs : List Char} (h : minus.run? cs = some part) :
    part.Begun cs := by
  induction cs using List.reverseRecOn generalizing part with
  | nil =>
    cases h
    rfl
  | append_singleton cs c ih =>
    rw [run?_append] at h
    obtain ⟨before, hbefore, hnext⟩ := Option.bind_eq_some_iff.1 h
    refine (ih hbefore).next ?_
    rw [run?, List.foldlM_cons] at hnext
    obtain ⟨next, hnext, hlast⟩ := Option.bind_eq_some_iff.1 hnext
    cases hlast
    exact hnext

theorem isUnsigned_of_run? {part : NumberPart} {cs : List Char} (h : minus.run? cs = some part)
    (hpart : part.isComplete) : IsUnsigned cs := by
  have hbegun := begun_of_run? h
  cases part with
  | zero => exact .decimal (.integer hbegun)
  | integer =>
    obtain ⟨c, ds, hc, hzero, hds, rfl⟩ := hbegun
    exact .decimal (.integer (.digits hc hzero hds))
  | fraction =>
    obtain ⟨whole, ds, hwhole, hds, rfl⟩ := hbegun
    exact .decimal (.fraction hwhole hds)
  | exponentDigits =>
    obtain ⟨decimal, e, sign, ds, hdecimal, he, hsign, hds, rfl⟩ := hbegun
    exact .exponent hdecimal he hsign hds
  | minus | point | exponent | exponentSign => cases hpart

end NumberPart

/-! ### Tokens -/

namespace Lexer

/-- What was read of a number. -/
def BeginsNumber (part : NumberPart) (cs : List Char) : Prop :=
  NumberPart.minus.run? cs = some part ∨
    ∃ rest, cs = '-' :: rest ∧ NumberPart.minus.run? rest = some part

theorem BeginsNumber.next {part part' : NumberPart} {cs : List Char} {c : Char}
    (h : BeginsNumber part cs) (hnext : part.next? c = some part') :
    BeginsNumber part' (cs ++ [c]) := by
  have hlast {cs : List Char} (h : NumberPart.minus.run? cs = some part) :
      NumberPart.minus.run? (cs ++ [c]) = some part' := by
    rw [NumberPart.run?_append, h]
    change (part.next? c).bind pure = _
    rw [hnext]
    rfl
  rcases h with h | ⟨rest, rfl, h⟩
  · exact .inl (hlast h)
  · exact .inr ⟨rest ++ [c], rfl, hlast h⟩

theorem BeginsNumber.isNumber {part : NumberPart} {cs : List Char} (h : BeginsNumber part cs)
    (hpart : part.isComplete) : IsNumber cs := by
  rcases h with h | ⟨rest, rfl, h⟩
  · exact .positive (NumberPart.isUnsigned_of_run? h hpart)
  · exact .negative (NumberPart.isUnsigned_of_run? h hpart)

/-- What was read of the next token. -/
def Begins : Mode → List Char → Prop
  | .between, cs => cs = []
  | .word next rest t, cs => t.isFixed ∧ t.text = cs ++ next :: rest
  | .number part read, cs => cs = read.reverse ∧ BeginsNumber part cs
  | .string read, cs => ∃ body, Literal.Spelled read.reverse body ∧ cs = '"' :: body
  | .escape read, cs => ∃ body, Literal.Spelled read.reverse body ∧ cs = '"' :: (body ++ ['\\'])
  | .code read value missing, cs => ∃ body digits, Literal.Spelled read.reverse body ∧
    cs = '"' :: (body ++ '\\' :: 'u' :: digits) ∧ digits.length + missing = 4 ∧ 1 ≤ missing ∧
    digits.foldlM (fun n c => (Text.digit? 16 c).map (n * 16 + ·)) 0 = some value

/-- The characters that were read are the tokens that were read and what belongs to the next one. -/
def Reads (l : Lexer) (cs : List Char) : Prop :=
  ∃ before begun, Spaced l.tokens.reverse before ∧ Begins l.mode begun ∧ cs = before ++ begun

variable {ts : List Token} {cs before begun : List Char} {c : Char} {l : Lexer}

theorem reads_between (h : Spaced ts.reverse cs) : Reads ⟨.between, ts⟩ cs :=
  ⟨cs, [], h, rfl, (List.append_nil cs).symm⟩

/-- A token that is complete. -/
theorem reads_push {t : Token} (h : Spaced ts.reverse before) (ht : t.Spelled (begun ++ [c])) :
    Reads (push ts t) (before ++ begun ++ [c]) := by
  rw [List.append_assoc]
  refine reads_between ?_
  rw [List.reverse_cons]
  exact h.token ht

/-- A token that goes on. -/
theorem reads_more {mode : Mode} (h : Spaced ts.reverse before)
    (hmode : Begins mode (begun ++ [c])) : Reads ⟨mode, ts⟩ (before ++ begun ++ [c]) :=
  ⟨before, begun ++ [c], h, hmode, List.append_assoc _ _ _⟩

/-! #### One more character -/

/-- The first character of a token, or a blank. -/
theorem reads_begin? (h : Spaced ts.reverse cs) (hbegin : begin? ts c = some l) :
    l.Reads (cs ++ [c]) := by
  have hfixed {t : Token} (ht : t.isFixed) (htext : t.text = [c]) :
      Reads (push ts t) (cs ++ [c]) := by
    have hspelled : t.Spelled ([] ++ [c]) := by
      rw [List.nil_append, ← htext]
      exact .fixed ht
    have hpush := reads_push h hspelled
    rwa [List.append_nil] at hpush
  have hbegun {mode : Mode} (hmode : Begins mode [c]) : Reads ⟨mode, ts⟩ (cs ++ [c]) :=
    ⟨cs, [c], h, hmode, rfl⟩
  unfold begin? at hbegin
  split at hbegin
  case h_13 hzero =>
    split at hbegin
    · next hc =>
      cases hbegin
      have hzero : c ≠ '0' := hzero
      have hfirst : NumberPart.minus.next? c = some .integer := by
        simp [NumberPart.next?, hzero, hc]
      refine hbegun ⟨rfl, .inl ?_⟩
      change (NumberPart.minus.next? c).bind pure = _
      rw [hfirst]
      rfl
    · obtain ⟨hspace, ⟨⟩⟩ := Option.ite_none_right_eq_some.1 hbegin
      exact reads_between (h.blank hspace)
  case h_10 =>
    cases hbegin
    exact hbegun ⟨[], .nil, rfl⟩
  case h_11 =>
    cases hbegin
    exact hbegun ⟨rfl, .inr ⟨[], rfl, rfl⟩⟩
  case h_12 =>
    cases hbegin
    exact hbegun ⟨rfl, .inl rfl⟩
  all_goals
    cases hbegin
    first
    | exact hfixed trivial rfl
    | exact hbegun ⟨trivial, rfl⟩

theorem reads_word {next : Char} {rest : List Char} {t : Token} (h : Spaced ts.reverse before)
    (hbegun : Begins (.word next rest t) begun) (hstep : step ⟨.word next rest t, ts⟩ c = some l) :
    l.Reads (before ++ begun ++ [c]) := by
  obtain ⟨hfixed, htext⟩ := hbegun
  simp only [Lexer.step] at hstep
  split at hstep
  · next hc =>
    subst hc
    cases rest with
    | nil =>
      cases hstep
      exact reads_push h (htext ▸ .fixed hfixed)
    | cons next rest =>
      cases hstep
      exact reads_more h ⟨hfixed, by rw [htext, List.append_assoc]; rfl⟩
  · cases hstep

theorem reads_number {part : NumberPart} {read : List Char} (h : Spaced ts.reverse before)
    (hbegun : Begins (.number part read) begun) (hstep : step ⟨.number part read, ts⟩ c = some l) :
    l.Reads (before ++ begun ++ [c]) := by
  obtain ⟨rfl, hnumber⟩ := hbegun
  simp only [Lexer.step] at hstep
  split at hstep
  · next part' hnext =>
    cases hstep
    exact reads_more h ⟨List.reverse_cons.symm, hnumber.next hnext⟩
  · obtain ⟨hcomplete, hbegin⟩ := Option.ite_none_right_eq_some.1 hstep
    have htoken := h.token (.number (hnumber.isNumber hcomplete))
    rw [← List.reverse_cons] at htoken
    exact reads_begin? htoken hbegin

theorem reads_string {read : Literal} (h : Spaced ts.reverse before)
    (hbegun : Begins (.string read) begun) (hstep : step ⟨.string read, ts⟩ c = some l) :
    l.Reads (before ++ begun ++ [c]) := by
  obtain ⟨body, hbody, rfl⟩ := hbegun
  simp only [Lexer.step] at hstep
  split at hstep
  · next hquote =>
    cases hstep
    subst hquote
    exact reads_push h (.string hbody)
  · next hquote =>
    split at hstep
    · next hslash =>
      cases hstep
      subst hslash
      exact reads_more h ⟨body, hbody, rfl⟩
    · next hslash =>
      obtain ⟨hcontrol, ⟨⟩⟩ := Option.ite_none_left_eq_some.1 hstep
      refine reads_more h ⟨body ++ [c], ?_, rfl⟩
      rw [List.reverse_cons]
      exact hbody.append (.plain hquote hslash hcontrol)

theorem reads_escape {read : Literal} (h : Spaced ts.reverse before)
    (hbegun : Begins (.escape read) begun) (hstep : step ⟨.escape read, ts⟩ c = some l) :
    l.Reads (before ++ begun ++ [c]) := by
  obtain ⟨body, hbody, rfl⟩ := hbegun
  simp only [Lexer.step] at hstep
  split at hstep
  · next hu =>
    cases hstep
    subst hu
    exact reads_more h ⟨body, [], hbody, by simp, rfl, by omega, rfl⟩
  · obtain ⟨x, hx, rfl⟩ := Option.map_eq_some_iff.1 hstep
    refine reads_more h ⟨body ++ ['\\', c], ?_, by simp⟩
    rw [List.reverse_cons]
    exact hbody.append (.letter hx)

theorem reads_code {read : Literal} {value missing : Nat} (h : Spaced ts.reverse before)
    (hbegun : Begins (.code read value missing) begun)
    (hstep : step ⟨.code read value missing, ts⟩ c = some l) :
    l.Reads (before ++ begun ++ [c]) := by
  obtain ⟨body, digits, hbody, rfl, hlength, hmissing, hvalue⟩ := hbegun
  simp only [Lexer.step] at hstep
  obtain ⟨d, hd, hstep⟩ := Option.map_eq_some_iff.1 hstep
  have hvalue' : (digits ++ [c]).foldlM (fun n c => (Text.digit? 16 c).map (n * 16 + ·)) 0 =
      some (value * 16 + d) := by
    rw [List.foldlM_append, hvalue]
    simp [hd]
  have hlength' : (digits ++ [c]).length = digits.length + 1 := by simp
  split at hstep
  · next hlast =>
    cases hstep
    have hcode : Text.numeral? 16 (digits ++ [c]) = some (value * 16 + d) := by
      rw [Text.numeral?, if_neg (by simp)]
      exact hvalue'
    refine reads_more h ⟨body ++ '\\' :: 'u' :: (digits ++ [c]), ?_, by simp⟩
    rw [List.reverse_cons]
    exact hbody.append (.code (by omega) hcode)
  · next hmore =>
    cases hstep
    exact reads_more h ⟨body, digits ++ [c], hbody, by simp, by omega, by omega, hvalue'⟩

/-- What has been read goes on with any character that can be read. -/
theorem Reads.step {l' : Lexer} (h : l.Reads cs) (hstep : l.step c = some l') :
    l'.Reads (cs ++ [c]) := by
  obtain ⟨mode, ts⟩ := l
  obtain ⟨before, begun, hbefore, hbegun, rfl⟩ := h
  have hbefore : Spaced ts.reverse before := hbefore
  cases mode with
  | between =>
    cases hbegun
    rw [List.append_nil]
    exact reads_begin? hbefore hstep
  | word => exact reads_word hbefore hbegun hstep
  | number => exact reads_number hbefore hbegun hstep
  | string => exact reads_string hbefore hbegun hstep
  | escape => exact reads_escape hbefore hbegun hstep
  | code => exact reads_code hbefore hbegun hstep

theorem reads_of_foldlM (h : cs.foldlM step start = some l) : l.Reads cs := by
  induction cs using List.reverseRecOn generalizing l with
  | nil =>
    cases h
    exact reads_between .nil
  | append_singleton cs c ih =>
    rw [List.foldlM_append] at h
    obtain ⟨before, hbefore, hlast⟩ := Option.bind_eq_some_iff.1 h
    refine (ih hbefore).step ?_
    rw [List.foldlM_cons] at hlast
    obtain ⟨next, hnext, hend⟩ := Option.bind_eq_some_iff.1 hlast
    cases hend
    exact hnext

end Lexer

theorem spaced_of_tokens? {ts : List Token} {cs : List Char} (h : tokens? cs = some ts) :
    Spaced ts cs := by
  obtain ⟨⟨mode, read⟩, hread, hfinish⟩ := Option.bind_eq_some_iff.1 h
  obtain ⟨before, begun, hbefore, hbegun, rfl⟩ := Lexer.reads_of_foldlM hread
  have hbefore : Spaced read.reverse before := hbefore
  unfold Lexer.finish? at hfinish
  split at hfinish
  · next heq =>
    cases heq
    cases hfinish
    cases hbegun
    rwa [List.append_nil]
  · next heq =>
    cases heq
    split at hfinish
    · next hcomplete =>
      cases hfinish
      obtain ⟨rfl, hnumber⟩ := hbegun
      exact hbefore.token (.number (hnumber.isNumber hcomplete))
    · cases hfinish
  · cases hfinish

/-! ### Documents -/

/-- The tokens of items that are followed by others. -/
def itemsBefore (items : List Json) : List Token := items.flatMap fun v => v.tokens ++ [.comma]

/-- The tokens of members that are followed by others. -/
def membersBefore (members : List (Literal × Json)) : List Token :=
  members.flatMap fun m => .string m.1 :: .colon :: m.2.tokens ++ [.comma]

theorem tokens_array_snoc (items : List Json) (v : Json) : (array (items ++ [v])).tokens =
    .openArray :: (itemsBefore items ++ v.tokens ++ [.closeArray]) := by
  have hrest (items : List Json) : itemTokens (items ++ [v]) =
      .comma :: (itemsBefore items ++ v.tokens ++ [.closeArray]) := by
    induction items with
    | nil => simp [itemTokens, itemsBefore]
    | cons w items ih =>
      rw [List.cons_append, itemTokens, ih]
      simp [itemsBefore]
  cases items with
  | nil => simp [tokens, itemTokens, itemsBefore]
  | cons w items =>
    rw [List.cons_append, tokens, hrest]
    simp [itemsBefore]

theorem tokens_object_snoc (members : List (Literal × Json)) (name : Literal) (v : Json) :
    (object (members ++ [(name, v)])).tokens = .openObject ::
      (membersBefore members ++ .string name :: .colon :: v.tokens ++ [.closeObject]) := by
  have hrest (members : List (Literal × Json)) : memberTokens (members ++ [(name, v)]) =
      .comma ::
        (membersBefore members ++ .string name :: .colon :: v.tokens ++ [.closeObject]) := by
    induction members with
    | nil => simp [memberTokens, membersBefore]
    | cons m members ih =>
      rw [List.cons_append, memberTokens, ih]
      simp [membersBefore]
  cases members with
  | nil => simp [tokens, memberTokens, membersBefore]
  | cons m members =>
    rw [List.cons_append, tokens, hrest]
    simp [membersBefore]

namespace Reader

/-- The tokens of the arrays and objects that are still open, up to the value that is read. -/
def openTokens : List Frame → List Token
  | [] => []
  | .array before :: frames => openTokens frames ++ .openArray :: itemsBefore before.reverse
  | .object before name :: frames =>
    openTokens frames ++ .openObject :: (membersBefore before.reverse ++ [.string name, .colon])

/-- The tokens of the innermost value so far. -/
def lastTokens : Expected → List Token
  | .value => []
  | .firstItem => [.openArray]
  | .firstName => [.openObject]
  | .name before => .openObject :: membersBefore before.reverse
  | .colon before name => .openObject :: (membersBefore before.reverse ++ [.string name])
  | .after v => v.tokens

/-- The tokens that have been read. -/
def readTokens (r : Reader) : List Token := openTokens r.frames ++ lastTokens r.expected

theorem readTokens_value? {frames : List Frame} {t : Token} {r : Reader}
    (h : value? frames t = some r) : r.readTokens = openTokens frames ++ [t] := by
  unfold value? at h
  split at h
  case h_7 => cases h
  all_goals
    cases h
    rfl

theorem readTokens_after? {v : Json} {frames : List Frame} {t : Token} {r : Reader}
    (h : after? v frames t = some r) :
    r.readTokens = openTokens frames ++ v.tokens ++ [t] := by
  unfold after? at h
  split at h
  case h_5 => cases h
  case h_1 =>
    cases h
    simp [readTokens, openTokens, lastTokens, itemsBefore]
  case h_2 =>
    cases h
    rw [readTokens, lastTokens, List.reverse_cons, tokens_array_snoc]
    simp [openTokens]
  case h_3 =>
    cases h
    simp [readTokens, openTokens, lastTokens, membersBefore]
  case h_4 =>
    cases h
    rw [readTokens, lastTokens, List.reverse_cons, tokens_object_snoc]
    simp [openTokens]

theorem readTokens_step {r r' : Reader} {t : Token} (h : r.step t = some r') :
    r'.readTokens = r.readTokens ++ [t] := by
  obtain ⟨expected, frames⟩ := r
  unfold step at h
  dsimp only at h
  split at h
  case h_9 => cases h
  case h_1 => rw [readTokens_value? h, readTokens, lastTokens, List.append_nil]
  case h_8 => rw [readTokens_after? h, readTokens, lastTokens]
  case h_3 =>
    rw [readTokens_value? h]
    simp [readTokens, openTokens, lastTokens, itemsBefore]
  all_goals
    cases h
    simp [readTokens, openTokens, lastTokens, membersBefore, tokens]

theorem readTokens_read {r r' : Reader} {ts : List Token} (h : r.read ts = some r') :
    r'.readTokens = r.readTokens ++ ts := by
  induction ts generalizing r with
  | nil =>
    cases h
    exact (List.append_nil _).symm
  | cons t ts ih =>
    rw [read, List.foldlM_cons] at h
    obtain ⟨next, hnext, hrest⟩ := Option.bind_eq_some_iff.1 h
    rw [ih hrest, readTokens_step hnext, List.append_assoc, List.singleton_append]

end Reader

/-- Tokens are read as the value whose tokens they are. -/
theorem ofTokens?_eq_some_iff {ts : List Token} {v : Json} :
    ofTokens? ts = some v ↔ ts = v.tokens := by
  refine ⟨fun h => ?_, ?_⟩
  · obtain ⟨⟨expected, frames⟩, hread, hfinish⟩ := Option.bind_eq_some_iff.1 h
    have hts := Reader.readTokens_read hread
    unfold Reader.finish? at hfinish
    split at hfinish
    · next heq =>
      cases heq
      cases hfinish
      exact hts.symm
    · cases hfinish
  · rintro rfl
    exact ofTokens?_tokens v

/-- The reader accepts the texts that spell a value. -/
theorem parse?_eq_some_iff {s : String} {v : Json} : parse? s = some v ↔ v.Spells s := by
  refine ⟨fun h => ?_, parse?_of_spells⟩
  obtain ⟨ts, hts, hv⟩ := Option.bind_eq_some_iff.1 h
  rw [ofTokens?_eq_some_iff] at hv
  subst hv
  exact spaced_of_tokens? hts

end StatusBoard.Json
