import StatusBoard.Address
import StatusBoard.Proofs.Message.Columns
import StatusBoard.Proofs.Text.Numeral

/-!
# Status messages are within the limits

The platform takes every status message: none is blank, and none is longer than the limit.  Names
are cut and addresses are short, so there is always room for the marker that sums up the clients
without a place, and placing mentions and lines leaves it that room.
-/

namespace StatusBoard

/-! ### Texts -/

namespace Text

theorem length_escape_le (s : String) : (escape s).length ≤ 2 * s.length := by
  rw [escape, String.length_ofList, ← String.length_toList]
  induction s.toList with
  | nil => simp
  | cons c cs ih =>
    have hchar : (if isMarkup c then ['\\', c] else [c]).length ≤ 2 := by
      split <;> simp
    rw [List.flatMap_cons, List.length_append, List.length_cons]
    omega

@[simp]
theorem length_codeSpan (s : String) : (codeSpan s).length = s.length + 2 := by
  have hquote : ("\x60" : String).length = 1 := rfl
  rw [codeSpan, String.length_append, String.length_append, hquote]
  omega

theorem mem_dropWhile {p : Char → Bool} {cs : List Char} {c : Char} (hc : c ∈ cs) (h : ¬ p c) :
    c ∈ cs.dropWhile p := by
  induction cs with
  | nil => exact hc
  | cons a cs ih =>
    rw [List.dropWhile_cons]
    split
    · next ha =>
      refine ih ((List.mem_cons.1 hc).resolve_left ?_)
      rintro rfl
      exact h ha
    · exact hc

/-- A text with a character that is not blank is not blank. -/
theorem trim_ne_nil {cs : List Char} {c : Char} (hc : c ∈ cs) (h : ¬ isBlank c) :
    trim cs ≠ [] := by
  have hmem : c ∈ trim cs := by
    rw [trim, dropEndWhile, List.mem_reverse]
    exact mem_dropWhile (List.mem_reverse.2 (mem_dropWhile hc h)) h
  exact List.ne_nil_of_mem hmem

theorem length_intercalate_le {separator : Char} {k : Nat} {parts : List (List Char)}
    (h : ∀ part ∈ parts, part.length ≤ k) :
    ([separator].intercalate parts).length ≤ (k + 1) * parts.length := by
  induction parts with
  | nil => simp
  | cons part rest ih =>
    rw [List.forall_mem_cons] at h
    have hrest := ih h.2
    have hpart := h.1
    rw [List.length_cons, Nat.mul_succ]
    by_cases hnil : rest = []
    · rw [hnil, List.intercalate_singleton]
      omega
    · rw [List.intercalate_cons_of_ne_nil hnil, List.length_append, List.length_append,
        List.length_singleton]
      omega

end Text

/-! ### Addresses -/

theorem Ipv4.length_text_le (ip : Ipv4) : ip.text.length ≤ 16 := by
  have hoctet (n : UInt8) : (Text.numeral 10 n.toNat).length ≤ 3 :=
    Text.length_numeral_le (by decide) (Nat.lt_trans n.toNat_lt (by decide))
  unfold Ipv4.text
  apply Text.length_intercalate_le (k := 3)
  simp [hoctet]

namespace Ipv6

theorem length_groupsText_le (groups : List UInt16) :
    (groupsText groups).length ≤ 5 * groups.length := by
  rw [← List.length_map fun g : UInt16 => Text.numeral 16 g.toNat]
  refine Text.length_intercalate_le fun part hpart => ?_
  obtain ⟨g, -, rfl⟩ := List.mem_map.1 hpart
  exact Text.length_numeral_le (by decide) g.toNat_lt

theorem length_text_le (ip : Ipv6) : ip.text.length ≤ 82 := by
  have hgroups : ip.toList.length = 8 := ip.length_toList
  unfold Ipv6.text
  split
  · next g h _ =>
    have hoctets := (Ipv4.ofGroups g h).length_text_le
    have hprefix : "::ffff:".toList.length = 7 := rfl
    rw [List.length_append]
    omega
  · have hall := length_groupsText_le ip.toList
    dsimp only
    split
    · omega
    · next hrun =>
      have hbefore := length_groupsText_le (ip.toList.take (longestZeroRun ip.toList).1)
      have hafter := length_groupsText_le
        (ip.toList.drop ((longestZeroRun ip.toList).1 + (longestZeroRun ip.toList).2))
      have helision : "::".toList.length = 2 := rfl
      rw [List.length_take] at hbefore
      rw [List.length_drop] at hafter
      rw [List.length_append, List.length_append]
      omega

end Ipv6

theorem SocketAddress.length_text_le (a : SocketAddress) : a.text.length ≤ 101 := by
  have hport (p : UInt16) : (Text.numeral 10 p.toNat).length ≤ 5 :=
    Text.length_numeral_le (by decide) (Nat.lt_trans p.toNat_lt (by decide))
  have hscope (scope : UInt32) : (scopeText scope).length ≤ 11 := by
    have hnumber : (Text.numeral 10 scope.toNat).length ≤ 10 :=
      Text.length_numeral_le (by decide) (Nat.lt_trans scope.toNat_lt (by decide))
    unfold scopeText
    split
    · simp
    · rw [List.length_cons]
      omega
  cases a with
  | v4 ip port =>
    have hip := ip.length_text_le
    have hport := hport port
    rw [text, String.length_ofList, List.length_append, List.length_cons]
    omega
  | v6 ip scope port =>
    have hip := ip.length_text_le
    have hport := hport port
    have hscope := hscope scope
    rw [text, String.length_ofList]
    simp only [List.length_append, List.length_cons]
    omega

namespace Address

/-- A text that is the canonical text of a socket address. -/
def IsSocket (address : String) : Prop := ∃ a : SocketAddress, address = a.text

theorem isSocket_of_validate {raw address : String} (h : validate raw = .ok address) :
    IsSocket address := by
  unfold validate at h
  split at h
  · cases h
  · split at h
    · cases h
    · next a _ =>
      split at h
      · cases h
      · cases h
        exact ⟨a, rfl⟩

theorem isSocket_normalize {address : String} (h : IsSocket address) :
    IsSocket (normalize address) := by
  unfold normalize
  split
  · exact ⟨_, rfl⟩
  · exact h

theorem IsSocket.length_le {address : String} (h : IsSocket address) : address.length ≤ 101 := by
  obtain ⟨a, rfl⟩ := h
  exact a.length_text_le

end Address

/-! ### Messages -/

namespace Message

variable {content : String}

theorem check_ok {c : Char} (hc : c ∈ content.toList) (hblank : ¬ Text.isBlank c)
    (hlength : content.length ≤ maxLength) : check content = .ok () := by
  rw [check, if_neg (Text.trim_ne_nil hc hblank), if_neg (Nat.not_lt.2 hlength)]

theorem length_toString_le {n k : Nat} (hk : 0 < k) (hn : n < 10 ^ k) :
    (toString n).length ≤ k := Nat.repr_length n k hk hn

theorem length_title_le (s : Server) : (title s).length ≤ 260 := by
  have hname := Text.length_escape_le (String.ofList (s.name.toList.take maxNameLength))
  have hstar : ("**" : String).length = 2 := rfl
  rw [String.length_ofList, List.length_take, maxNameLength] at hname
  rw [title, displayName, maxNameLength, String.length_append, String.length_append]
  omega

theorem length_header_le {s : Server} (hclients : s.clientCount < 2 ^ 64) :
    (header s).length ≤ 294 := by
  have htitle := length_title_le s
  have hcount : (toString s.clientCount).length ≤ 20 :=
    length_toString_le (by decide) (Nat.lt_trans hclients (by decide))
  have hmax : (toString s.maxClients).length ≤ 10 :=
    length_toString_le (by decide) (Nat.lt_trans s.maxClients.toNat_lt (by decide))
  have hheader : (header s).length = (title s).length + 2 + (toString s.clientCount).length + 1 +
      (toString s.maxClients).length + 1 := by
    simp only [header, String.length_append]
    rfl
  omega

theorem length_marker (omitted : Nat) :
    (marker omitted).length = (toString omitted).length + 14 := by
  have hmarker : (marker omitted).length = 9 + (toString omitted).length + 5 := by
    simp only [marker, String.length_append]
    rfl
  omega

theorem markerRoom_le {omitted : Nat} (h : omitted < 2 ^ 64) : markerRoom omitted ≤ 34 := by
  have hcount : (toString omitted).length ≤ 20 :=
    length_toString_le (by decide) (Nat.lt_trans h (by decide))
  unfold markerRoom
  rw [length_marker]
  split <;> omega

/-- Each mention comes with one separator: a line break before the first one, spaces between. -/
theorem length_mentionsText_cons (t : String) (rest : List String) :
    (mentionsText (t :: rest)).length = t.length + 1 + (mentionsText rest).length := by
  have hbreak : ("\n" : String).length = 1 := rfl
  have hspace : (" " : String).length = 1 := rfl
  cases rest with
  | nil =>
    change ("\n" ++ " ".intercalate [t]).length = t.length + 1
    rw [String.intercalate_singleton, String.length_append]
    omega
  | cons t' rest =>
    change ("\n" ++ " ".intercalate (t :: t' :: rest)).length =
      t.length + 1 + ("\n" ++ " ".intercalate (t' :: rest)).length
    rw [String.intercalate_cons_cons]
    simp only [String.length_append]
    omega

theorem length_linesText_cons (l : String) (rest : List String) :
    (linesText (l :: rest)).length = l.length + 1 + (linesText rest).length := by
  have hbreak : ("\n" : String).length = 1 := rfl
  rw [linesText, List.map_cons, String.join_cons, String.length_append, String.length_append,
    ← linesText]
  omega

/-- The mentions that are placed take no more than their room. -/
theorem length_mentionsText_le (room : Nat) (tokens : List String) :
    (mentionsText (placeTokens room tokens)).length ≤ room := by
  induction tokens generalizing room with
  | nil => simp [placeTokens, mentionsText]
  | cons t rest ih =>
    unfold placeTokens
    split
    · have hrest := ih (room - (t.length + 1))
      rw [length_mentionsText_cons]
      omega
    · simp [mentionsText]

/-- The lines that are placed and the marker of the others take no more than their room, if it has
room for the marker of all. -/
theorem length_linesText_le {room : Nat} {lines : List String}
    (hroom : markerRoom lines.length ≤ room) :
    (linesText (placeLines room lines)).length +
      markerRoom (lines.length - (placeLines room lines).length) ≤ room := by
  induction lines generalizing room with
  | nil => simpa [placeLines, linesText] using hroom
  | cons l rest ih =>
    unfold placeLines
    split
    · -- The room that is left has room for the marker of the lines after this one.
      have hrest : (linesText (placeLines (room - (l.length + 1)) rest)).length +
          markerRoom (rest.length - (placeLines (room - (l.length + 1)) rest).length) ≤
            room - (l.length + 1) := ih (by omega)
      rw [length_linesText_cons, List.length_cons, List.length_cons, Nat.add_sub_add_right]
      omega
    · simpa [linesText] using hroom

/-- A text stays within the limit with lines below it and the marker of those without a place, if it
leaves room for the marker of all. -/
theorem length_filled_le {top : String} {lines : List String}
    (htop : top.length + markerRoom lines.length ≤ maxLength) :
    let placed := placeLines (maxLength - top.length) lines
    let omitted := lines.length - placed.length
    (top ++ linesText placed ++ (if omitted = 0 then "" else marker omitted)).length ≤
      maxLength := by
  have hroom : markerRoom lines.length ≤ maxLength - top.length := by omega
  have hlines := length_linesText_le hroom
  have hend (omitted : Nat) :
      (if omitted = 0 then "" else marker omitted).length = markerRoom omitted := by
    unfold markerRoom
    split <;> rfl
  dsimp only
  rw [String.length_append, String.length_append, hend]
  omega

theorem length_compose_le {s : Server} {lines : List String} (hlines : lines.length = s.clientCount)
    (hclients : s.clientCount < 2 ^ 64) (mentions : List UInt64) :
    (compose s mentions lines).length ≤ maxLength := by
  have hheader := length_header_le hclients
  have hmarker := markerRoom_le hclients
  have hmentions := length_mentionsText_le
    (maxLength - (header s).length - markerRoom s.clientCount) (mentions.map mentionToken)
  have hlimit : maxLength = 2000 := rfl
  apply length_filled_le
  rw [hlines, String.length_append, placedMentions]
  omega

/-- A message about an online server has its name in bold. -/
theorem asterisk_mem_online {s : Server} {mentions : List UInt64}
    (h : online s mentions = some content) : '*' ∈ content.toList := by
  obtain ⟨lines, -, rfl⟩ := online_eq_some_iff.1 h
  have htitle : '*' ∈ (title s).toList := by simp [title]
  have hheader : '*' ∈ (header s).toList := by
    simp only [header, String.toList_append, List.mem_append]
    exact .inl (.inl (.inl (.inl (.inl htitle))))
  unfold compose
  simp [hheader]

/-- The platform takes every message about an online server. -/
theorem check_online {s : Server} (hclients : s.clientCount < 2 ^ 64) {mentions : List UInt64}
    (h : online s mentions = some content) : check content = .ok () := by
  refine check_ok (asterisk_mem_online h) (by decide) ?_
  obtain ⟨lines, hlines, rfl⟩ := online_eq_some_iff.1 h
  exact length_compose_le (length_of_clientLines hlines) hclients mentions

/-- The platform takes every message about a server that went offline. -/
theorem check_offline {s : Server} (h : Address.IsSocket s.address) :
    check (offline s) = .ok () := by
  refine check_ok (c := '*') ?_ (by decide) ?_
  · simp [offline, title]
  · have haddress := h.length_le
    have htitle := length_title_le s
    have hmiddle : (" is offline\n" : String).length = 12 := rfl
    rw [offline, String.length_append, String.length_append, Text.length_codeSpan,
      Text.length_codeSafe, maxLength]
    omega

/-- The platform takes every placeholder. -/
theorem check_placeholder {address : String} (h : Address.IsSocket address) :
    check (placeholder address) = .ok () := by
  refine check_ok (c := 'W') ?_ (by decide) ?_
  · simp [placeholder]
  · have haddress := h.length_le
    have hbefore : ("Waiting for " : String).length = 12 := rfl
    have hafter : (" to show up in the server list..." : String).length = 33 := rfl
    rw [placeholder, String.length_append, String.length_append, Text.length_codeSpan,
      Text.length_codeSafe, maxLength]
    omega

end Message

end StatusBoard
