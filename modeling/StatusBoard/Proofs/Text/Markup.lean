import StatusBoard.Text.Markdown

/-!
# Reading Markdown

A reader of Markdown goes through a text from left to right (`Markup.scan`): a backslash makes the
next character literal, and a backtick opens a code span, in which everything is literal up to the
next backtick.  Escaped text is read as the text, and so is text in a code span that has lost its
backticks.
-/

namespace StatusBoard

namespace Markup

/-- What a reader finds in a text. -/
inductive Element
  /-- A character that shows as it is. -/
  | literal (c : Char)
  /-- A character that Markdown gives a meaning. -/
  | mark (c : Char)
  | codeSpan (text : String)
deriving DecidableEq

/-- What the next character belongs to. -/
inductive Mode
  | text
  /-- After a backslash. -/
  | escaped
  /-- A code span, of which these characters have been read, last first. -/
  | span (read : List Char)
deriving DecidableEq

/-- Read one character. -/
def step : Mode → Char → Mode × List Element
  | .text, c =>
    if c = '\\' then (.escaped, [])
    else if c = '\x60' then (.span [], [])
    else (.text, [if Text.isMarkup c then .mark c else .literal c])
  | .escaped, c => (.text, [.literal c])
  | .span read, c =>
    if c = '\x60' then (.text, [.codeSpan (String.ofList read.reverse)])
    else (.span (c :: read), [])

/-- Read characters from left to right. -/
def scan (m : Mode) : List Char → Mode × List Element
  | [] => (m, [])
  | c :: cs =>
    let (m, found) := step m c
    let (m, rest) := scan m cs
    (m, found ++ rest)

/-- The text is read as these elements, and neither a code span nor an escape is open at its end. -/
def Reads (s : String) (found : List Element) : Prop := scan .text s.toList = (.text, found)

instance (s : String) (found : List Element) : Decidable (Reads s found) :=
  inferInstanceAs (Decidable (_ = _))

/-- The characters of a text, each as it is. -/
def literals (s : String) : List Element := s.toList.map .literal

/-- Whether the element is a character that shows as it is. -/
def Element.isLiteral : Element → Bool
  | literal _ => true
  | mark _ | codeSpan _ => false

/-- The elements that have a meaning, from left to right. -/
def special (found : List Element) : List Element := found.filter fun e => !e.isLiteral

theorem mem_special {found : List Element} {e : Element} :
    e ∈ special found ↔ e ∈ found ∧ e.isLiteral = false := by
  rw [special, List.mem_filter, Bool.not_eq_true']

@[simp]
theorem special_append (found found' : List Element) :
    special (found ++ found') = special found ++ special found' := List.filter_append _ _

@[simp]
theorem special_map_literal (cs : List Char) : special (cs.map .literal) = [] := by
  induction cs with
  | nil => rfl
  | cons c cs ih => exact ih

@[simp]
theorem special_literals (s : String) : special (literals s) = [] := special_map_literal _

section Reading

variable {s t : String} {found found' : List Element}

/-! ### Texts one after the other -/

theorem scan_cons (m : Mode) (c : Char) (cs : List Char) : scan m (c :: cs) =
    ((scan (step m c).1 cs).1, (step m c).2 ++ (scan (step m c).1 cs).2) := rfl

theorem scan_append (m : Mode) (cs ds : List Char) :
    scan m (cs ++ ds) =
      ((scan (scan m cs).1 ds).1, (scan m cs).2 ++ (scan (scan m cs).1 ds).2) := by
  induction cs generalizing m with
  | nil => rfl
  | cons c cs ih => simp [scan, ih]

theorem Reads.append (hs : Reads s found) (ht : Reads t found') :
    Reads (s ++ t) (found ++ found') := by
  rw [Reads, String.toList_append, scan_append, hs, ht]

/-! ### Plain, escaped and quoted texts -/

/-- None of the characters has a meaning. -/
def IsPlain (s : String) : Prop := ∀ c ∈ s.toList, ¬ Text.isMarkup c

instance (s : String) : Decidable (IsPlain s) := List.decidableBAll _ s.toList

theorem isPlain_append : IsPlain (s ++ t) ↔ IsPlain s ∧ IsPlain t := by
  rw [IsPlain, String.toList_append, List.forall_mem_append, IsPlain, IsPlain]

theorem step_plain {c : Char} (hc : ¬ Text.isMarkup c) : step .text c = (.text, [.literal c]) := by
  have hslash : c ≠ '\\' := by
    rintro rfl
    exact hc rfl
  have htick : c ≠ '\x60' := by
    rintro rfl
    exact hc rfl
  rw [step, if_neg hslash, if_neg htick, if_neg hc]

theorem IsPlain.reads (h : IsPlain s) : Reads s (literals s) := by
  have hscan (cs : List Char) (hcs : ∀ c ∈ cs, ¬ Text.isMarkup c) :
      scan .text cs = (.text, cs.map .literal) := by
    induction cs with
    | nil => rfl
    | cons c cs ih =>
      rw [List.forall_mem_cons] at hcs
      rw [scan_cons, step_plain hcs.1, ih hcs.2]
      rfl
  exact hscan s.toList h

/-- Escaped text is read as the text. -/
theorem reads_escape (s : String) : Reads (Text.escape s) (literals s) := by
  rw [Reads, Text.escape, String.toList_ofList, literals]
  induction s.toList with
  | nil => rfl
  | cons c cs ih =>
    rw [List.flatMap_cons, scan_append]
    have hc : scan .text (if Text.isMarkup c then ['\\', c] else [c]) = (.text, [.literal c]) := by
      split
      · rfl
      · next hc =>
        rw [scan_cons, step_plain hc]
        rfl
    rw [hc, ih]
    rfl

theorem scan_span (cs read : List Char) (h : '\x60' ∉ cs) :
    scan (.span read) cs = (.span (cs.reverse ++ read), []) := by
  induction cs generalizing read with
  | nil => rfl
  | cons c cs ih =>
    rw [List.mem_cons, not_or] at h
    rw [scan_cons, step, if_neg (Ne.symm h.1), ih _ h.2]
    simp

/-- A text without backticks is shown in a code span as it is. -/
theorem reads_codeSpan (h : '\x60' ∉ s.toList) : Reads (Text.codeSpan s) [.codeSpan s] := by
  have hopen : scan .text ['\x60'] = (.span [], []) := rfl
  have hclose (read : List Char) :
      scan (.span read) ['\x60'] = (.text, [.codeSpan (String.ofList read.reverse)]) := rfl
  have htext : (Text.codeSpan s).toList = ['\x60'] ++ s.toList ++ ['\x60'] := by
    rw [Text.codeSpan, String.toList_append, String.toList_append]
    rfl
  rw [Reads, htext, scan_append, scan_append, hopen, scan_span _ _ h, hclose]
  simp

theorem backtick_notMem_codeSafe (s : String) : '\x60' ∉ (Text.codeSafe s).toList := by
  rw [Text.codeSafe, String.toList_ofList, List.mem_map]
  rintro ⟨c, -, hc⟩
  split at hc
  · exact absurd hc (by decide)
  · next hne => exact hne hc

theorem backtick_notMem_fill (width : Nat) (h : '\x60' ∉ s.toList) :
    '\x60' ∉ (Text.fill width s).toList := by
  rw [Text.fill, String.toList_append, List.mem_append, not_or, String.toList_ofList]
  exact ⟨h, fun hmem => absurd (List.eq_of_mem_replicate hmem) (by decide)⟩

end Reading

end Markup

end StatusBoard
