import Mathlib.Order.Bounds.Defs
import StatusBoard.Proofs.Message.Length

/-!
# The layout of status messages

A message about an online server shows its header, then a prefix of the mentions, then a prefix of
the clients, and then how many clients it leaves out, if any.  As many mentions are placed as leave
room for the marker of all clients, and the client after the last one that is placed would not fit.
-/

namespace StatusBoard.Message

/-- The content that shows the first `k` mentions and the first `m` clients of a server whose
clients have these lines. -/
def layout (s : Server) (mentions : List UInt64) (lines : List String) (k m : Nat) : String :=
  header s ++ mentionsText ((mentions.take k).map mentionToken) ++ linesText (lines.take m) ++
    if m < s.clientCount then marker (s.clientCount - m) else ""

/-! ### Mentions -/

theorem isPrefix_placeTokens (room : Nat) (tokens : List String) :
    placeTokens room tokens <+: tokens := by
  induction tokens generalizing room with
  | nil => exact List.prefix_rfl
  | cons t rest ih =>
    unfold placeTokens
    split
    · exact (List.prefix_cons_inj t).2 (ih _)
    · exact List.nil_prefix

/-- Tokens that fit are placed. -/
theorem le_length_placeTokens {room k : Nat} {tokens : List String} (hk : k ≤ tokens.length)
    (hfit : (mentionsText (tokens.take k)).length ≤ room) :
    k ≤ (placeTokens room tokens).length := by
  induction tokens generalizing room k with
  | nil => exact hk
  | cons t rest ih =>
    cases k with
    | zero => exact Nat.zero_le _
    | succ k =>
      rw [List.take_succ_cons, length_mentionsText_cons] at hfit
      have hrest : k ≤ (placeTokens (room - (t.length + 1)) rest).length :=
        ih (Nat.le_of_succ_le_succ hk) (by omega)
      rw [placeTokens, if_pos (by omega), List.length_cons]
      exact Nat.succ_le_succ hrest

/-- The tokens that are placed are the longest prefix that fits. -/
theorem isGreatest_placeTokens (room : Nat) (tokens : List String) :
    IsGreatest {k | k ≤ tokens.length ∧ (mentionsText (tokens.take k)).length ≤ room}
      (placeTokens room tokens).length := by
  have hinitial := isPrefix_placeTokens room tokens
  refine ⟨⟨hinitial.length_le, ?_⟩, fun k hk => le_length_placeTokens hk.1 hk.2⟩
  rw [← List.prefix_iff_eq_take.1 hinitial]
  exact length_mentionsText_le room tokens

/-! ### Clients -/

theorem isPrefix_placeLines (room : Nat) (lines : List String) :
    placeLines room lines <+: lines := by
  induction lines generalizing room with
  | nil => exact List.prefix_rfl
  | cons l rest ih =>
    unfold placeLines
    split
    · exact (List.prefix_cons_inj l).2 (ih _)
    · exact List.nil_prefix

/-- The line after the last one that is placed would not fit with the marker of those after it. -/
theorem length_linesText_next {room : Nat} {lines : List String}
    (h : (placeLines room lines).length < lines.length) :
    room < (linesText (lines.take ((placeLines room lines).length + 1))).length +
      markerRoom (lines.length - ((placeLines room lines).length + 1)) := by
  induction lines generalizing room with
  | nil => cases h
  | cons l rest ih =>
    unfold placeLines at h ⊢
    split at h
    · next hfit =>
      rw [List.length_cons, List.length_cons, Nat.succ_lt_succ_iff] at h
      have hrest := ih h
      rw [if_pos hfit, List.length_cons, List.take_succ_cons, length_linesText_cons,
        List.length_cons, Nat.add_sub_add_right]
      omega
    · next hfull =>
      rw [if_neg hfull, List.take_succ_cons, length_linesText_cons, List.length_cons,
        List.length_nil, Nat.add_sub_add_right, Nat.sub_zero]
      omega

/-! ### The message -/

variable {s : Server} {lines : List String}

/-- The mentions that are placed are the longest prefix that leaves room for the marker. -/
theorem isGreatest_placedMentions (hclients : s.clientCount < 2 ^ 64) (mentions : List UInt64) :
    IsGreatest {k | k ≤ mentions.length ∧
        (header s ++ mentionsText ((mentions.take k).map mentionToken)).length +
          markerRoom s.clientCount ≤ maxLength}
      (placedMentions s mentions).length := by
  have hheader := length_header_le hclients
  have hmarker := markerRoom_le hclients
  have hlimit : maxLength = 2000 := rfl
  have hgreatest := isGreatest_placeTokens
    (maxLength - (header s).length - markerRoom s.clientCount) (mentions.map mentionToken)
  rw [← placedMentions] at hgreatest
  convert hgreatest using 4 with k
  · rw [List.length_map]
  · rw [String.length_append, List.map_take]
    omega

/-- The lines that are placed below the placed mentions. -/
def placedLines (s : Server) (mentions : List UInt64) (lines : List String) : List String :=
  placeLines (maxLength - (header s ++ mentionsText (placedMentions s mentions)).length) lines

theorem compose_eq (s : Server) (mentions : List UInt64) (lines : List String) :
    compose s mentions lines =
      header s ++ mentionsText (placedMentions s mentions) ++
        linesText (placedLines s mentions lines) ++
        if lines.length - (placedLines s mentions lines).length = 0 then ""
        else marker (lines.length - (placedLines s mentions lines).length) := rfl

theorem placedMentions_eq_take (s : Server) (mentions : List UInt64) : placedMentions s mentions =
    (mentions.take (placedMentions s mentions).length).map mentionToken := by
  rw [List.map_take]
  exact List.prefix_iff_eq_take.1 (isPrefix_placeTokens _ _)

theorem placedLines_eq_take (s : Server) (mentions : List UInt64) (lines : List String) :
    placedLines s mentions lines = lines.take (placedLines s mentions lines).length :=
  List.prefix_iff_eq_take.1 (isPrefix_placeLines _ _)

theorem length_placedLines_le (hlines : lines.length = s.clientCount) (mentions : List UInt64) :
    (placedLines s mentions lines).length ≤ s.clientCount :=
  hlines ▸ (isPrefix_placeLines _ _).length_le

theorem compose_eq_layout (hlines : lines.length = s.clientCount) (mentions : List UInt64) :
    compose s mentions lines = layout s mentions lines (placedMentions s mentions).length
      (placedLines s mentions lines).length := by
  have hle := length_placedLines_le hlines mentions
  rw [compose_eq, layout, ← placedMentions_eq_take, ← placedLines_eq_take, hlines]
  congr 1
  by_cases hall : (placedLines s mentions lines).length < s.clientCount
  · rw [if_pos hall, if_neg (by omega)]
  · rw [if_neg hall, if_pos (by omega)]

theorem length_layout (s : Server) (mentions : List UInt64) (lines : List String) (k m : Nat) :
    (layout s mentions lines k m).length =
      (header s ++ mentionsText ((mentions.take k).map mentionToken)).length +
        (linesText (lines.take m)).length + markerRoom (s.clientCount - m) := by
  have hend : (if m < s.clientCount then marker (s.clientCount - m) else "").length =
      markerRoom (s.clientCount - m) := by
    unfold markerRoom
    by_cases hall : m < s.clientCount
    · rw [if_pos hall, if_neg (by omega)]
    · rw [if_neg hall, if_pos (by omega)]
      rfl
  rw [layout, String.length_append, String.length_append, hend]

/-- One more client would make the message too long. -/
theorem maxLength_lt_length_layout (hlines : lines.length = s.clientCount) (mentions : List UInt64)
    (h : (placedLines s mentions lines).length < s.clientCount) :
    maxLength < (layout s mentions lines (placedMentions s mentions).length
      ((placedLines s mentions lines).length + 1)).length := by
  rw [← hlines] at h
  have hnext := length_linesText_next h
  rw [← placedLines, hlines] at hnext
  rw [length_layout, ← placedMentions_eq_take]
  omega

/-- If the clients of an online server can be formatted, the message about it shows its header, the
longest prefix of the mentions that leaves room for the marker of all clients, some clients from the
first one on, and how many clients are left out, if any.  One more client would not fit.  The
platform takes the message. -/
theorem online_layout (hclients : s.clientCount < 2 ^ 64) (hnarrow : s.Narrow)
    (mentions : List UInt64) :
    ∃ lines text k m, clientLines s = some lines ∧ lines.length = s.clientCount ∧
      online s mentions = some text ∧ m ≤ s.clientCount ∧ text = layout s mentions lines k m ∧
      text.length ≤ maxLength ∧ check text = .ok () ∧
      IsGreatest {k | k ≤ mentions.length ∧
        (header s ++ mentionsText ((mentions.take k).map mentionToken)).length +
          markerRoom s.clientCount ≤ maxLength} k ∧
      (m < s.clientCount → maxLength < (layout s mentions lines k (m + 1)).length) := by
  have hformatted := clientLines_of_narrow hnarrow
  have hlines := length_of_clientLines hformatted
  have honline := online_of_clientLines hformatted mentions
  exact ⟨_, _, _, _, hformatted, hlines, honline, length_placedLines_le hlines mentions,
    compose_eq_layout hlines mentions, length_compose_le hlines hclients mentions,
    check_online hclients honline, isGreatest_placedMentions hclients mentions,
    maxLength_lt_length_layout hlines mentions⟩

theorem length_name_le_length_tableLine (s : Server) (c : Client) :
    c.name.length ≤ (tableLine s c).length := by
  have hname : c.name.length ≤ (Text.codeSpan (nameColumn s c)).length := by
    rw [Text.length_codeSpan, nameColumn, Text.fill, String.length_append, Text.length_codeSafe]
    omega
  unfold tableLine
  simp only [String.length_append]
  omega

/-- A mention is placed, and a client whose name is as long as the limit is left out. -/
theorem online_layout_long_name :
    let c : Client := { (default : Client) with name := String.ofList (List.replicate 2000 'x') }
    let s : Server := { (default : Server) with clients := [c] }
    s.clientCount < 2 ^ 64 ∧ s.Narrow ∧
      online s [7] = some (header s ++ "\n<@7>" ++ "\n... and 1 more") := by
  intro c s
  have hclients : s.clientCount < 2 ^ 64 := by decide
  have hname : c.name.length = 2000 := by
    rw [String.length_ofList, List.length_replicate]
  have hnarrow : s.Narrow := by
    refine List.forall_mem_singleton.2 ⟨?_, Nat.zero_le _⟩
    rw [hname]
    decide
  refine ⟨hclients, hnarrow, ?_⟩
  obtain ⟨lines, text, k, m, hformatted, hlines, honline, hm, rfl, hlength, -, hgreatest, -⟩ :=
    online_layout hclients hnarrow [7]
  have hk : k = 1 := by
    refine Nat.le_antisymm hgreatest.1.1 (hgreatest.2 ⟨Nat.le_refl 1, ?_⟩)
    decide +kernel
  have hm : m = 0 := by
    refine Nat.eq_zero_of_not_pos fun hpos => ?_
    have hone : m = 1 := Nat.le_antisymm hm hpos
    have htable : lines = [tableLine s c] := (clientLines_eq_some_iff.1 hformatted).2.symm
    have hline : 2000 < (linesText (lines.take 1)).length := by
      have hle := length_name_le_length_tableLine s c
      rw [htable, List.take_succ_cons, length_linesText_cons]
      omega
    rw [hone, length_layout] at hlength
    have hlimit : maxLength = 2000 := rfl
    omega
  have hmention : mentionsText (([7].take 1).map mentionToken) = "\n<@7>" := by decide +kernel
  have hmarker : marker 1 = "\n... and 1 more" := by decide +kernel
  have hnone : linesText (lines.take 0) = "" := rfl
  have hleft : (if 0 < s.clientCount then marker (s.clientCount - 0) else "") = marker 1 := rfl
  rw [honline, hk, hm, layout, hmention, hnone, hleft, hmarker, String.append_empty]

end StatusBoard.Message
