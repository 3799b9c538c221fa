import Mathlib.Data.List.DropRight
import StatusBoard.Text.Blank
import StatusBoard.Text.Cut

/-!
# Where a text is cut

What stands around a text does not move the place where it is cut, as long as it has no part in a
separator.  So blanks around a text may be dropped before it is cut or afterwards.
-/

namespace StatusBoard.Text

variable {separator before after cs ds : List Char} {c s : Char}

/-! ### Cutting -/

theorem append_of_rest? {rest : List Char} (h : rest? separator cs = some rest) :
    cs = separator ++ rest := by
  induction separator generalizing cs with
  | nil =>
    cases h
    rfl
  | cons s ss ih =>
    cases cs with
    | nil => cases h
    | cons c cs =>
      rw [rest?] at h
      split at h
      · next hsc => rw [hsc, ih h, List.cons_append]
      · cases h

/-- The parts and the separator between them make up the text. -/
theorem append_of_cut? (h : cut? separator cs = some (before, after)) :
    cs = before ++ separator ++ after := by
  induction cs generalizing before with
  | nil => cases h
  | cons c cs ih =>
    rw [cut?] at h
    split at h
    · next hrest =>
      cases h
      exact append_of_rest? hrest
    · obtain ⟨parts, hparts, heq⟩ := Option.map_eq_some_iff.1 h
      cases heq
      rw [List.cons_append, List.cons_append, ← ih hparts]

/-- A text without one of the separator's characters is not cut. -/
theorem cut?_eq_none (hs : s ∈ separator) (h : s ∉ cs) : cut? separator cs = none := by
  refine Option.eq_none_iff_forall_ne_some.2 fun ⟨before, after⟩ hcut => h ?_
  rw [append_of_cut? hcut]
  simp [hs]

theorem cut?_cons_of_rest?_eq_none (h : rest? separator (c :: cs) = none) :
    cut? separator (c :: cs) = (cut? separator cs).map fun p => (c :: p.1, p.2) := by
  rw [cut?, h]

/-- Text in front of a separator belongs to the first part. -/
theorem cut?_append_left {ss : List Char} (h : s ∉ ds) (cs : List Char) :
    cut? (s :: ss) (ds ++ cs) = (cut? (s :: ss) cs).map fun p => (ds ++ p.1, p.2) := by
  induction ds with
  | nil => simp
  | cons d ds ih =>
    rw [List.mem_cons, not_or] at h
    rw [List.cons_append, cut?_cons_of_rest?_eq_none (by rw [rest?, if_neg h.1]), ih h.2,
      Option.map_map]
    rfl

theorem rest?_append_right (h : ∀ s ∈ separator, s ∉ ds) (cs : List Char) :
    rest? separator (cs ++ ds) = (rest? separator cs).map (· ++ ds) := by
  induction separator generalizing cs with
  | nil => rfl
  | cons s ss ih =>
    rw [List.forall_mem_cons] at h
    cases cs with
    | nil =>
      cases ds with
      | nil => rfl
      | cons d ds =>
        have hne : s ≠ d := List.ne_of_not_mem_cons h.1
        rw [List.nil_append, rest?.eq_3, if_neg hne]
        rfl
    | cons c cs =>
      rw [List.cons_append, rest?, rest?]
      split
      · exact ih h.2 cs
      · rfl

/-- Text behind the separator belongs to the second part. -/
theorem cut?_append_right (hseparator : separator ≠ []) (h : ∀ s ∈ separator, s ∉ ds)
    (cs : List Char) :
    cut? separator (cs ++ ds) = (cut? separator cs).map fun p => (p.1, p.2 ++ ds) := by
  induction cs with
  | nil =>
    obtain ⟨s, hs⟩ := List.exists_mem_of_ne_nil _ hseparator
    exact cut?_eq_none hs (h s hs)
  | cons c cs ih =>
    have hrest := rest?_append_right h (c :: cs)
    rw [List.cons_append] at hrest ⊢
    rw [cut?, cut?, hrest, ih]
    cases rest? separator (c :: cs) with
    | some rest => rfl
    | none =>
      rw [Option.map_none, Option.map_map, Option.map_map]
      rfl

/-! ### Blanks -/

theorem dropEndWhile_append {p : Char → Bool} (h : ∀ d ∈ ds, p d) (cs : List Char) :
    dropEndWhile p (cs ++ ds) = dropEndWhile p cs := by
  rw [dropEndWhile, List.reverse_append,
    List.dropWhile_append_of_pos fun d hd => h d (List.mem_reverse.1 hd), ← dropEndWhile]

/-- What is dropped from the end of a text. -/
theorem exists_append_dropEndWhile (p : Char → Bool) (cs : List Char) :
    ∃ ds, cs = dropEndWhile p cs ++ ds ∧ ∀ d ∈ ds, p d := by
  refine ⟨(cs.reverse.takeWhile p).reverse, ?_, fun d hd => ?_⟩
  · rw [dropEndWhile, ← List.reverse_append, List.takeWhile_append_dropWhile, List.reverse_reverse]
  · exact List.mem_takeWhile_imp (List.mem_reverse.1 hd)

theorem dropEndWhile_eq_self {p : Char → Bool} (h : ∀ c ∈ cs, ¬ p c) : dropEndWhile p cs = cs :=
  List.rdropWhile_eq_self_iff.2 fun hl => h _ (List.getLast_mem hl)

theorem trim_append (h : ∀ d ∈ ds, isBlank d) (cs : List Char) : trim (cs ++ ds) = trim cs := by
  rw [trim, trim, List.dropWhile_append]
  split
  · next hblank =>
    rw [List.dropWhile_eq_nil_iff.2 h, List.isEmpty_iff.1 hblank]
  · exact dropEndWhile_append h _

theorem trim_dropWhile (cs : List Char) : trim (cs.dropWhile isBlank) = trim cs := by
  rw [trim, trim, List.dropWhile_idempotent]

/-- What is dropped around a text. -/
theorem exists_append_trim (cs : List Char) : ∃ start stop, cs = start ++ trim cs ++ stop ∧
    (∀ c ∈ start, isBlank c) ∧ ∀ c ∈ stop, isBlank c := by
  obtain ⟨stop, hcs, hstop⟩ := exists_append_dropEndWhile isBlank (cs.dropWhile isBlank)
  refine ⟨cs.takeWhile isBlank, stop, ?_, fun c hc => List.mem_takeWhile_imp hc, hstop⟩
  rw [trim, List.append_assoc, ← hcs, List.takeWhile_append_dropWhile]

/-- Blanks around a text may be dropped twice. -/
theorem trim_trim (cs : List Char) : trim (trim cs) = trim cs := by
  obtain ⟨stop, hcs, hstop⟩ := exists_append_dropEndWhile isBlank (cs.dropWhile isBlank)
  calc
    trim (trim cs) = trim (trim cs ++ stop) := (trim_append hstop _).symm
    _ = trim (cs.dropWhile isBlank) := congrArg trim hcs.symm
    _ = trim cs := trim_dropWhile cs

/-- A text without blanks is left alone. -/
theorem trim_eq_self (h : ∀ c ∈ cs, ¬ isBlank c) : trim cs = cs := by
  have hstart : cs.dropWhile isBlank = cs :=
    List.dropWhile_eq_self_iff.2 fun hl => h _ (List.getElem_mem hl)
  rw [trim, hstart, dropEndWhile_eq_self h]

end StatusBoard.Text
