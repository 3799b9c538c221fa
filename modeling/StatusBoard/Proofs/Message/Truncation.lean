import StatusBoard.Proofs.Message.Layout

/-!
# Clients that are left out although they would fit

Before a line is placed, room is kept for the marker of the lines after it.  The last line may be
shorter than the marker that would stand for it, and then this room is too much: a message that
fits as a whole leaves its last two clients out (`Message.online_of_fits`).  Nothing else is left
out needlessly.
-/

namespace StatusBoard.Message

/-! ### Room for the marker -/

/-- One more client makes the marker longer by one character at most. -/
theorem markerRoom_le_add {omitted : Nat} (h : 0 < omitted) :
    markerRoom omitted ≤ markerRoom 1 + (omitted - 1) := by
  have hone : markerRoom 1 = 15 := by decide +kernel
  have hcount : (toString omitted).length ≤ omitted :=
    length_toString_le h (Nat.lt_pow_self (by decide))
  rw [hone, markerRoom, if_neg (Nat.ne_of_gt h), length_marker]
  omega

theorem length_le_length_linesText (lines : List String) :
    lines.length ≤ (linesText lines).length := by
  induction lines with
  | nil => exact Nat.zero_le _
  | cons l rest ih =>
    rw [length_linesText_cons, List.length_cons]
    omega

/-- Lines take more room than their marker, unless there is only one. -/
theorem markerRoom_le_length_linesText {lines : List String} (hlines : ∀ l ∈ lines, 7 ≤ l.length)
    (htwo : 2 ≤ lines.length) : markerRoom lines.length ≤ (linesText lines).length := by
  have hone : markerRoom 1 = 15 := by decide +kernel
  have hmarker := markerRoom_le_add (Nat.lt_of_lt_of_le Nat.zero_lt_two htwo)
  have hroom : 8 * lines.length ≤ (linesText lines).length := by
    clear hmarker htwo
    induction lines with
    | nil => exact Nat.zero_le _
    | cons l rest ih =>
      rw [List.forall_mem_cons] at hlines
      have hl := hlines.1
      have hrest := ih hlines.2
      rw [length_linesText_cons, List.length_cons]
      omega
  omega

/-! ### Lines that fit -/

theorem placeLines_cons (room : Nat) (l : String) (rest : List String) :
    placeLines room (l :: rest) = if l.length + 1 + markerRoom rest.length ≤ room then
      l :: placeLines (room - (l.length + 1)) rest else [] := rfl

/-- All lines are placed exactly if they fit, and if the marker of the last one would fit in its
place, which does not matter if there is no line before it. -/
theorem placeLines_eq_self_iff {room : Nat} {lines : List String} :
    placeLines room lines = lines ↔ (linesText lines).length ≤ room ∧
      (2 ≤ lines.length → (linesText lines.dropLast).length + markerRoom 1 ≤ room) := by
  induction lines generalizing room with
  | nil => simp [placeLines, linesText]
  | cons l rest ih =>
    have hplace : placeLines room (l :: rest) = l :: rest ↔
        l.length + 1 + markerRoom rest.length ≤ room ∧
          placeLines (room - (l.length + 1)) rest = rest := by
      rw [placeLines_cons]
      split
      · next hfit => simp only [hfit, List.cons.injEq, true_and]
      · next hfull => simp only [hfull, reduceCtorEq, false_and]
    rw [hplace, ih, length_linesText_cons]
    cases rest with
    | nil =>
      have hnone : markerRoom 0 = 0 := rfl
      simp [linesText, hnone]
    | cons l' rest =>
      cases rest with
      | nil =>
        have hone : markerRoom [l'].length = markerRoom 1 := rfl
        have hempty : (linesText []).length = 0 := rfl
        rw [hone, List.dropLast_cons_cons, List.dropLast_singleton, length_linesText_cons,
          length_linesText_cons, hempty]
        simp only [List.length_cons, List.length_nil]
        omega
      | cons l'' rest =>
        -- The marker of all the lines after this one is not much longer than that of the last one.
        have hpositive : 0 < (l' :: l'' :: rest).length := Nat.succ_pos _
        have hmarker := markerRoom_le_add hpositive
        have hbefore := length_le_length_linesText (l' :: l'' :: rest).dropLast
        have hdrop : (l :: l' :: l'' :: rest).dropLast = l :: (l' :: l'' :: rest).dropLast := rfl
        rw [List.length_dropLast] at hbefore
        rw [hdrop, length_linesText_cons l (l' :: l'' :: rest).dropLast]
        simp only [List.length_cons] at hmarker hbefore ⊢
        omega

/-- If lines that fit are not all placed, then all but the last two are. -/
theorem length_placeLines_of_fits {room : Nat} {lines : List String}
    (hlines : ∀ l ∈ lines, 7 ≤ l.length) (hfit : (linesText lines).length ≤ room)
    (hcut : placeLines room lines ≠ lines) :
    (placeLines room lines).length = lines.length - 2 := by
  induction lines generalizing room with
  | nil => exact absurd rfl hcut
  | cons l rest ih =>
    rw [length_linesText_cons] at hfit
    rw [List.forall_mem_cons] at hlines
    rw [placeLines_cons] at hcut ⊢
    split at hcut
    · next hplaced =>
      have hrest : placeLines (room - (l.length + 1)) rest ≠ rest :=
        fun heq => hcut (congrArg (l :: ·) heq)
      -- A single line that fits is placed.
      have htwo : 2 ≤ rest.length := by
        by_contra hshort
        exact hrest (placeLines_eq_self_iff.2 ⟨by omega, fun htwo => absurd htwo hshort⟩)
      rw [if_pos hplaced, List.length_cons, List.length_cons, ih hlines.2 (by omega) hrest]
      omega
    · next hrefused =>
      have hshort : ¬ 2 ≤ rest.length := by
        intro htwo
        have hmarker := markerRoom_le_length_linesText hlines.2 htwo
        omega
      rw [if_neg hrefused, List.length_nil, List.length_cons]
      omega

/-! ### Messages that fit -/

theorem seven_le_length_tableLine (s : Server) (c : Client) : 7 ≤ (tableLine s c).length := by
  have hname : (Text.codeSpan (nameColumn s c)).length = (nameColumn s c).length + 2 :=
    Text.length_codeSpan _
  have hclan : (Text.codeSpan (clanColumn s c)).length = (clanColumn s c).length + 2 :=
    Text.length_codeSpan _
  have hspace : (" " : String).length = 1 := rfl
  unfold tableLine
  simp only [String.length_append]
  omega

variable {s : Server} {mentions : List UInt64} {lines : List String}

theorem seven_le_length_of_clientLines (hlines : clientLines s = some lines) :
    ∀ l ∈ lines, 7 ≤ l.length := by
  rw [← (clientLines_eq_some_iff.1 hlines).2, List.forall_mem_map]
  exact fun c _ => seven_le_length_tableLine s c

/-- The message about a server that shows the placed mentions and the first `m` of the lines of its
clients. -/
def showing (s : Server) (mentions : List UInt64) (lines : List String) (m : Nat) : String :=
  layout s mentions lines (placedMentions s mentions).length m

theorem length_showing (s : Server) (mentions : List UInt64) (lines : List String) (m : Nat) :
    (showing s mentions lines m).length =
      (header s ++ mentionsText (placedMentions s mentions)).length +
        (linesText (lines.take m)).length + markerRoom (s.clientCount - m) := by
  rw [showing, length_layout, ← placedMentions_eq_take]

/-- All lines are placed if they fit, and if leaving out the last one would fit too. -/
theorem placedLines_eq_iff (hcount : lines.length = s.clientCount)
    (hfit : (showing s mentions lines s.clientCount).length ≤ maxLength) :
    placedLines s mentions lines = lines ↔ s.clientCount ≤ 1 ∨
      (showing s mentions lines (s.clientCount - 1)).length ≤ maxLength := by
  have hnone : markerRoom 0 = 0 := rfl
  rw [length_showing, ← hcount, List.take_length, Nat.sub_self, hnone] at hfit
  rw [length_showing, placedLines, placeLines_eq_self_iff, ← hcount, ← List.dropLast_eq_take]
  by_cases htwo : 2 ≤ lines.length
  · have hone : lines.length - (lines.length - 1) = 1 := by omega
    rw [hone]
    omega
  · omega

theorem length_placedLines_of_fits (hlines : clientLines s = some lines)
    (hfit : (showing s mentions lines s.clientCount).length ≤ maxLength)
    (hcut : placedLines s mentions lines ≠ lines) :
    (placedLines s mentions lines).length = s.clientCount - 2 := by
  have hcount := length_of_clientLines hlines
  have hnone : markerRoom 0 = 0 := rfl
  rw [length_showing, ← hcount, List.take_length, Nat.sub_self, hnone] at hfit
  rw [← hcount]
  exact length_placeLines_of_fits (seven_le_length_of_clientLines hlines) (by omega) hcut

/-- A message that fits as a whole is shown as a whole, unless the message that leaves out the last
client would not fit.  Then the last two clients are left out. -/
theorem online_of_fits (hlines : clientLines s = some lines)
    (hfit : (showing s mentions lines s.clientCount).length ≤ maxLength) :
    online s mentions = some (showing s mentions lines
      (if s.clientCount ≤ 1 ∨ (showing s mentions lines (s.clientCount - 1)).length ≤ maxLength then
        s.clientCount
      else s.clientCount - 2)) := by
  have hcount := length_of_clientLines hlines
  rw [online_of_clientLines hlines, compose_eq_layout hcount, ← showing]
  congr 2
  split
  · next hlast => rw [(placedLines_eq_iff hcount hfit).2 hlast, hcount]
  · next hlast =>
    exact length_placedLines_of_fits hlines hfit ((placedLines_eq_iff hcount hfit).not.2 hlast)

/-- Two clients that fit below a mention are shown. -/
theorem online_of_fits_two :
    let c : Client := { (default : Client) with name := "x", isPlayer := true }
    let s : Server := { (default : Server) with name := "y", clients := [c, c] }
    let lines := [tableLine s c, tableLine s c]
    clientLines s = some lines ∧ (showing s [7] lines 2).length ≤ maxLength ∧
      online s [7] = some (showing s [7] lines 2) := by
  intro c s lines
  have hlines : clientLines s = some lines := by decide +kernel
  have hfit : (showing s [7] lines 2).length ≤ maxLength := by decide +kernel
  have hlast : (showing s [7] lines 1).length ≤ maxLength := by decide +kernel
  refine ⟨hlines, hfit, ?_⟩
  rw [online_of_fits hlines hfit, if_pos (.inr hlast)]
  rfl

theorem length_linesText_replicate (n : Nat) (l : String) :
    (linesText (List.replicate n l)).length = n * (l.length + 1) := by
  induction n with
  | zero => exact (Nat.zero_mul _).symm
  | succ n ih =>
    rw [List.replicate_succ, length_linesText_cons, ih, Nat.succ_mul]
    omega

/-- Clients are left out although the whole message fits.  With all 148 clients the message would
have 2000 characters, but behind the last but one there is no room for a marker. -/
theorem online_leaves_out_fitting :
    let c : Client := { (default : Client) with name := "x", country := -1, isPlayer := true }
    let s : Server := { (default : Server) with
      name := String.ofList (List.replicate 62 'x'), maxClients := 148,
      clients := List.replicate 148 c }
    ∃ lines, clientLines s = some lines ∧
      (header s ++ mentionsText (placedMentions s []) ++ linesText lines).length = 2000 ∧
      online s [] = some (header s ++ linesText (lines.take 146) ++ "\n... and 2 more") := by
  intro c s
  have hnarrow : s.Narrow := by
    intro c' hc'
    rw [List.eq_of_mem_replicate hc']
    decide
  have hlines : clientLines s = some (List.replicate 148 (tableLine s c)) := by
    rw [clientLines_of_narrow hnarrow, List.map_replicate]
  have hline : (tableLine s c).length = 12 := by decide +kernel
  have hheader : (header s).length = 76 := by decide +kernel
  have hmentions : mentionsText (placedMentions s []) = "" := rfl
  have hlength (m : Nat) (hm : m ≤ 148) :
      (showing s [] (List.replicate 148 (tableLine s c)) m).length =
        76 + m * 13 + markerRoom (148 - m) := by
    rw [length_showing, hmentions, String.append_empty, hheader, List.take_replicate,
      Nat.min_eq_left hm, length_linesText_replicate, hline]
    rfl
  have hcount : s.clientCount = 148 := List.length_replicate
  have hfit : (showing s [] (List.replicate 148 (tableLine s c)) s.clientCount).length ≤
      maxLength := by
    have hnone : markerRoom 0 = 0 := rfl
    rw [hcount, hlength 148 (Nat.le_refl _), Nat.sub_self, hnone]
    decide
  have hcut : placedLines s [] (List.replicate 148 (tableLine s c)) ≠
      List.replicate 148 (tableLine s c) := by
    have hone : markerRoom 1 = 15 := by decide +kernel
    rw [ne_eq, placedLines_eq_iff (length_of_clientLines hlines) hfit, hcount,
      hlength 147 (by decide), hone]
    decide
  have hplaced : (placedLines s [] (List.replicate 148 (tableLine s c))).length = 146 := by
    rw [length_placedLines_of_fits hlines hfit hcut, hcount]
  have hmarker : marker 2 = "\n... and 2 more" := by decide +kernel
  refine ⟨_, hlines, ?_, ?_⟩
  · rw [hmentions, String.append_empty, String.length_append, hheader, length_linesText_replicate,
      hline]
  · rw [online_of_clientLines hlines, compose_eq, hplaced, placedLines_eq_take, hplaced, hmentions,
      String.append_empty, List.length_replicate, if_neg (by decide), hmarker]

end StatusBoard.Message
