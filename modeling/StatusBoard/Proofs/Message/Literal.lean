import StatusBoard.Proofs.Message.Layout
import StatusBoard.Proofs.Text.Markup
import StatusBoard.Proofs.Text.Numeral

/-!
# Names stay literal

Whatever names a server and its clients have, the reader of a status message finds the server's name
in bold, the columns of the clients in code spans and the placed mentions, and no other character
that Markdown gives a meaning.
-/

namespace StatusBoard

open Markup

namespace Message

/-! ### Texts without a character that has a meaning -/

theorem isPlain_toString (n : Nat) : IsPlain (toString n) := by
  rw [IsPlain, Text.toList_toString_nat]
  exact Text.forall_mem_numeral (by decide) (by decide) n

theorem isPlain_int (i : Int) : IsPlain (toString i) := by
  cases i with
  | ofNat n => exact isPlain_toString n
  | negSucc n =>
    have hminus : IsPlain "-" := by decide
    exact isPlain_append.2 ⟨hminus, isPlain_toString (n + 1)⟩

theorem isPlain_twoDigits (n : Nat) : IsPlain (twoDigits n) := by
  unfold twoDigits
  split
  · exact isPlain_append.2 ⟨by decide, isPlain_toString n⟩
  · exact isPlain_toString n

theorem isPlain_timeText (seconds : Int32) : IsPlain (timeText seconds) := by
  unfold timeText
  split
  · decide
  · dsimp only
    split
    · simp only [isPlain_append]
      exact ⟨⟨⟨⟨isPlain_toString _, by decide⟩, isPlain_twoDigits _⟩, by decide⟩,
        isPlain_twoDigits _⟩
    · simp only [isPlain_append]
      exact ⟨⟨isPlain_twoDigits _, by decide⟩, isPlain_twoDigits _⟩

theorem isPlain_scoreText (k : Scoring) (c : Client) : IsPlain (scoreText k c) := by
  unfold scoreText
  split
  · decide
  · cases k with
    | points => exact isPlain_int _
    | time => exact isPlain_timeText _

/-- A character beyond ASCII, or the one that stands in for none. -/
theorem ofNat_ne {n : Nat} {c : Char} (hn : 128 ≤ n) (hc : c.toNat ≠ 0 ∧ c.toNat < 128) :
    Char.ofNat n ≠ c := by
  have htoNat : (Char.ofNat n).toNat = n ∨ (Char.ofNat n).toNat = 0 := by
    by_cases hvalid : n.isValidChar
    · rw [Char.ofNat, dif_pos hvalid]
      exact .inl rfl
    · rw [Char.ofNat, dif_neg hvalid]
      exact .inr rfl
  rintro rfl
  omega

theorem not_isMarkup_ofNat {n : Nat} (h : 128 ≤ n) : ¬ Text.isMarkup (Char.ofNat n) := by
  have hmarks : ∀ c ∈ ['\\', '*', '_', '~', '\x60', '|', '<', '>', '#'],
      c.toNat ≠ 0 ∧ c.toNat < 128 := by simp
  intro hc
  exact ofNat_ne h (hmarks _ (of_decide_eq_true hc)) rfl

/-- What holds of all characters beyond ASCII holds of those of a flag. -/
theorem forall_mem_ofCountry {p : Char → Prop} (hp : ∀ n, 128 ≤ n → p (Char.ofNat n))
    (country : Int32) : ∀ c ∈ (Flag.ofCountry country).toList, p c := by
  unfold Flag.ofCountry
  split
  · next code _ =>
    rw [Flag.ofAlpha2, String.toList_ofList]
    intro c hc
    obtain ⟨letter, -, rfl⟩ := List.mem_map.1 hc
    exact hp _ (by omega)
  · split
    · next tag _ =>
      rw [Flag.ofTag, String.toList_ofList]
      intro c hc
      simp only [List.mem_append, List.mem_singleton, List.mem_map] at hc
      rcases hc with (rfl | ⟨letter, -, rfl⟩) | rfl
      · exact hp _ (by omega)
      · exact hp _ (by omega)
      · exact hp _ (by omega)
    · rw [Flag.unknown, String.toList_ofList, List.forall_mem_cons, List.forall_mem_singleton]
      exact ⟨hp _ (by omega), hp 0xFE0F (by omega)⟩

theorem isPlain_ofCountry (country : Int32) : IsPlain (Flag.ofCountry country) :=
  forall_mem_ofCountry (fun _ => not_isMarkup_ofNat) country

/-! ### The columns of the clients -/

/-- A column is at least one character wide. -/
theorem fill_columnWidth_ne_empty (column : List String) (text : String) :
    Text.fill (columnWidth column) text ≠ "" := by
  intro hempty
  have hlength := congrArg String.length hempty
  have hwidth : 1 ≤ columnWidth column := Nat.le_max_right _ _
  rw [Text.fill, String.length_append, String.length_ofList, List.length_replicate] at hlength
  have hzero : ("" : String).length = 0 := rfl
  omega

/-! ### What a reader finds -/

/-- The first characters of a server's name in bold. -/
def titleElements (s : Server) : List Element :=
  [.mark '*', .mark '*'] ++ (s.name.toList.take 128).map .literal ++ [.mark '*', .mark '*']

/-- The mention of a user. -/
def mentionElements (user : UInt64) : List Element :=
  .mark '<' :: literals ("@" ++ toString user) ++ [.mark '>']

/-- Mentions on a line of their own, if there are any. -/
def mentionsElements : List UInt64 → List Element
  | [] => []
  | user :: rest =>
    .literal '\n' :: mentionElements user ++
      rest.flatMap fun user => .literal ' ' :: mentionElements user

/-- A client on a line of its own: name and clan in code spans, flag and score. -/
def clientElements (s : Server) (c : Client) : List Element :=
  .literal '\n' :: .codeSpan (nameColumn s c) :: .literal ' ' :: .codeSpan (clanColumn s c) ::
    literals (" " ++ Flag.ofCountry c.country ++ " " ++ scoreText s.scoring c)

/-- How many clients are left out, if any. -/
def omittedText (omitted : Nat) : String := if 0 < omitted then marker omitted else ""

/-- A message about an online server with these mentions and these of its clients. -/
def onlineElements (s : Server) (users : List UInt64) (clients : List Client) : List Element :=
  titleElements s ++
    literals (" (" ++ toString s.clientCount ++ "/" ++ toString s.maxClients ++ ")") ++
    mentionsElements users ++ clients.flatMap (clientElements s) ++
    literals (omittedText (s.clientCount - clients.length))

/-- A message about a server that went offline. -/
def offlineElements (s : Server) : List Element :=
  titleElements s ++ literals " is offline\n" ++ [.codeSpan (Text.codeSafe s.address)]

/-- A message about a server that has not been seen yet. -/
def placeholderElements (address : String) : List Element :=
  literals "Waiting for " ++ [.codeSpan (Text.codeSafe address)] ++
    literals " to show up in the server list..."

theorem reads_title (s : Server) : Reads (title s) (titleElements s) := by
  have hstars : Reads "**" [.mark '*', .mark '*'] := by decide
  have hname := reads_escape (String.ofList (s.name.toList.take maxNameLength))
  rw [literals, String.toList_ofList] at hname
  exact (hstars.append hname).append hstars

theorem reads_header (s : Server) : Reads (header s) (titleElements s ++
    literals (" (" ++ toString s.clientCount ++ "/" ++ toString s.maxClients ++ ")")) := by
  have hplain :
      IsPlain (" (" ++ toString s.clientCount ++ "/" ++ toString s.maxClients ++ ")") := by
    simp only [isPlain_append]
    exact ⟨⟨⟨⟨by decide, isPlain_toString _⟩, by decide⟩, isPlain_toString _⟩, by decide⟩
  have hheader : header s =
      title s ++ (" (" ++ toString s.clientCount ++ "/" ++ toString s.maxClients ++ ")") := by
    simp only [← String.append_assoc]
    rfl
  rw [hheader]
  exact (reads_title s).append hplain.reads

theorem reads_mentionToken (user : UInt64) : Reads (mentionToken user) (mentionElements user) := by
  have hopen : Reads "<" [.mark '<'] := by decide
  have hclose : Reads ">" [.mark '>'] := by decide
  have huser : IsPlain ("@" ++ toString user) := isPlain_append.2 ⟨by decide, isPlain_toString _⟩
  have htoken : mentionToken user = "<" ++ ("@" ++ toString user) ++ ">" := by
    simp only [← String.append_assoc]
    rfl
  rw [htoken]
  exact (hopen.append huser.reads).append hclose

theorem reads_mentionTokens (user : UInt64) (rest : List UInt64) :
    Reads (" ".intercalate ((user :: rest).map mentionToken))
      (mentionElements user ++ rest.flatMap fun user => .literal ' ' :: mentionElements user) := by
  have hspace : Reads " " [.literal ' '] := by decide
  induction rest generalizing user with
  | nil =>
    rw [List.map_singleton, String.intercalate_singleton, List.flatMap_nil, List.append_nil]
    exact reads_mentionToken user
  | cons next rest ih =>
    rw [List.map_cons, List.map_cons, String.intercalate_cons_cons, ← List.map_cons,
      String.append_assoc, List.flatMap_cons]
    exact (reads_mentionToken user).append (hspace.append (ih next))

theorem reads_mentionsText (users : List UInt64) :
    Reads (mentionsText (users.map mentionToken)) (mentionsElements users) := by
  have hbreak : Reads "\n" [.literal '\n'] := by decide
  cases users with
  | nil => rfl
  | cons user rest => exact hbreak.append (reads_mentionTokens user rest)

theorem reads_tableLine (s : Server) (c : Client) :
    Reads ("\n" ++ tableLine s c) (clientElements s c) := by
  have hbreak : Reads "\n" [.literal '\n'] := by decide
  have hspace : Reads " " [.literal ' '] := by decide
  have hname : Reads _ [.codeSpan (nameColumn s c)] :=
    reads_codeSpan (backtick_notMem_fill _ (backtick_notMem_codeSafe _))
  have hclan : Reads _ [.codeSpan (clanColumn s c)] :=
    reads_codeSpan (backtick_notMem_fill _ (backtick_notMem_codeSafe _))
  have hrest : IsPlain (" " ++ Flag.ofCountry c.country ++ " " ++ scoreText s.scoring c) := by
    simp only [isPlain_append]
    exact ⟨⟨⟨by decide, isPlain_ofCountry _⟩, by decide⟩, isPlain_scoreText _ _⟩
  have hline := (((hbreak.append hname).append hspace).append hclan).append hrest.reads
  simp only [tableLine, String.append_assoc] at hline ⊢
  rw [clientElements, String.append_assoc, String.append_assoc]
  exact hline

theorem reads_linesText (s : Server) (clients : List Client) :
    Reads (linesText (clients.map (tableLine s))) (clients.flatMap (clientElements s)) := by
  induction clients with
  | nil => rfl
  | cons c rest ih =>
    rw [linesText, List.map_cons, List.map_cons, String.join_cons, List.flatMap_cons]
    exact (reads_tableLine s c).append ih

theorem isPlain_omittedText (omitted : Nat) : IsPlain (omittedText omitted) := by
  unfold omittedText
  split
  · exact isPlain_append.2 ⟨isPlain_append.2 ⟨by decide, isPlain_toString _⟩, by decide⟩
  · decide

theorem reads_layout {s : Server} {lines : List String} (hlines : clientLines s = some lines)
    (mentions : List UInt64) {k m : Nat} (hm : m ≤ s.clientCount) :
    Reads (layout s mentions lines k m)
      (onlineElements s (mentions.take k) (s.clients.take m)) := by
  have hlength : (s.clients.take m).length = m := List.length_take_of_le hm
  have hmarker : (if m < s.clientCount then marker (s.clientCount - m) else "") =
      omittedText (s.clientCount - (s.clients.take m).length) := by
    rw [hlength, omittedText]
    exact if_congr (by omega) rfl rfl
  rw [layout, hmarker, ← (clientLines_eq_some_iff.1 hlines).2, ← List.map_take]
  exact (((reads_header s).append (reads_mentionsText _)).append (reads_linesText s _)).append
    (isPlain_omittedText _).reads

theorem reads_offline (s : Server) : Reads (offline s) (offlineElements s) := by
  have hmiddle : IsPlain " is offline\n" := by decide
  exact ((reads_title s).append hmiddle.reads).append (reads_codeSpan (backtick_notMem_codeSafe _))

theorem reads_placeholder (address : String) :
    Reads (placeholder address) (placeholderElements address) := by
  have hstart : IsPlain "Waiting for " := by decide
  have hend : IsPlain " to show up in the server list..." := by decide
  exact (hstart.reads.append (reads_codeSpan (backtick_notMem_codeSafe _))).append hend.reads

/-! ### What has a meaning -/

theorem special_titleElements (s : Server) :
    special (titleElements s) = [.mark '*', .mark '*', .mark '*', .mark '*'] := by
  simp only [titleElements, special_append, special_map_literal]
  rfl

theorem special_mentionElements (user : UInt64) :
    special (mentionElements user) = [.mark '<', .mark '>'] := by
  change special ([.mark '<'] ++ literals ("@" ++ toString user) ++ [.mark '>']) = _
  simp only [special_append, special_literals]
  rfl

theorem special_mentionsElements (users : List UInt64) :
    special (mentionsElements users) = users.flatMap fun _ => [.mark '<', .mark '>'] := by
  have hrest (rest : List UInt64) :
      special (rest.flatMap fun user => .literal ' ' :: mentionElements user) =
        rest.flatMap fun _ => [.mark '<', .mark '>'] := by
    induction rest with
    | nil => rfl
    | cons user rest ih =>
      rw [List.flatMap_cons, special_append, ih]
      exact congrArg (· ++ _) (special_mentionElements user)
  cases users with
  | nil => rfl
  | cons user rest =>
    have hfirst : special (.literal '\n' :: mentionElements user) = [.mark '<', .mark '>'] :=
      special_mentionElements user
    rw [mentionsElements, special_append, hfirst, hrest, List.flatMap_cons]

theorem special_clientElements (s : Server) (c : Client) :
    special (clientElements s c) = [.codeSpan (nameColumn s c), .codeSpan (clanColumn s c)] := by
  change .codeSpan (nameColumn s c) :: .codeSpan (clanColumn s c) :: special (literals _) = _
  rw [special_literals]

theorem special_onlineElements (s : Server) (users : List UInt64) (clients : List Client) :
    special (onlineElements s users clients) =
      [.mark '*', .mark '*', .mark '*', .mark '*'] ++
        users.flatMap (fun _ => [.mark '<', .mark '>']) ++
        clients.flatMap fun c => [.codeSpan (nameColumn s c), .codeSpan (clanColumn s c)] := by
  have hclients : special (clients.flatMap (clientElements s)) =
      clients.flatMap fun c => [.codeSpan (nameColumn s c), .codeSpan (clanColumn s c)] := by
    induction clients with
    | nil => rfl
    | cons c rest ih =>
      rw [List.flatMap_cons, special_append, special_clientElements, ih, List.flatMap_cons]
  simp only [onlineElements, special_append, special_literals, special_titleElements,
    special_mentionsElements, hclients, List.append_nil]

theorem special_offlineElements (s : Server) : special (offlineElements s) =
    [.mark '*', .mark '*', .mark '*', .mark '*', .codeSpan (Text.codeSafe s.address)] := by
  simp only [offlineElements, special_append, special_titleElements, special_literals]
  rfl

theorem special_placeholderElements (address : String) :
    special (placeholderElements address) = [.codeSpan (Text.codeSafe address)] := by
  simp only [placeholderElements, special_append, special_literals]
  rfl

/-- Every span in the message about an online server shows something. -/
theorem ne_empty_of_codeSpan_mem {s : Server} {users : List UInt64} {clients : List Client}
    {span : String} (h : .codeSpan span ∈ onlineElements s users clients) : span ≠ "" := by
  have hspecial : .codeSpan span ∈ special (onlineElements s users clients) :=
    mem_special.2 ⟨h, rfl⟩
  rw [special_onlineElements] at hspecial
  rcases List.mem_append.1 hspecial with hmark | hspan
  · simp at hmark
  · obtain ⟨c, -, hspan⟩ := List.mem_flatMap.1 hspan
    simp only [List.mem_cons, List.not_mem_nil, or_false, Element.codeSpan.injEq] at hspan
    rcases hspan with hname | hclan
    · rw [hname]
      exact fill_columnWidth_ne_empty _ _
    · rw [hclan]
      exact fill_columnWidth_ne_empty _ _

/-! ### Messages -/

/-- The reader of the message about an online server finds its name, a prefix of the mentions and a
prefix of the clients. -/
theorem reads_online {s : Server} {mentions : List UInt64} {text : String}
    (h : online s mentions = some text) :
    ∃ lines k m, clientLines s = some lines ∧ k ≤ mentions.length ∧ m ≤ s.clientCount ∧
      text = layout s mentions lines k m ∧
      Reads text (onlineElements s (mentions.take k) (s.clients.take m)) := by
  obtain ⟨lines, hlines, rfl⟩ := online_eq_some_iff.1 h
  have hcount := length_of_clientLines hlines
  have hmentions : (placedMentions s mentions).length ≤ mentions.length :=
    List.length_map mentionToken ▸ (isPrefix_placeTokens _ _).length_le
  have hclients := length_placedLines_le hcount mentions
  have hlayout := compose_eq_layout hcount mentions
  exact ⟨lines, _, _, hlines, hmentions, hclients, hlayout,
    hlayout ▸ reads_layout hlines mentions hclients⟩

/-- A message is read to its end, whatever it is about.  About an online server, the reader finds
the start of its name in bold, some of the mentions from the first one on, and some of the clients
from the first one on, each with its name and its clan in two spans that are not empty; about a
server that went offline, the start of its name in bold and its address in a span.  Nothing else has
a meaning.  There is no message only if a name or a clan of a client is too long for a column. -/
theorem content_reads (c : Change) :
    match c.content with
    | none => ∃ s, c.after = some s ∧ ¬ s.Narrow
    | some text => ∃ found, Reads text found ∧
      match c.after, c.before with
      | some s, _ => ∃ lines k m, clientLines s = some lines ∧ k ≤ c.mentions.length ∧
          m ≤ s.clientCount ∧ text = layout s c.mentions lines k m ∧
          found = onlineElements s (c.mentions.take k) (s.clients.take m) ∧
          special found = [.mark '*', .mark '*', .mark '*', .mark '*'] ++
            (c.mentions.take k).flatMap (fun _ => [.mark '<', .mark '>']) ++
            (s.clients.take m).flatMap
              (fun c => [.codeSpan (nameColumn s c), .codeSpan (clanColumn s c)]) ∧
          ∀ span, .codeSpan span ∈ found → span ≠ ""
      | none, some s => found = offlineElements s ∧ special found =
          [.mark '*', .mark '*', .mark '*', .mark '*', .codeSpan (Text.codeSafe s.address)]
      | none, none =>
          found = placeholderElements "" ∧ special found = [.codeSpan (Text.codeSafe "")] := by
  cases hcontent : c.content with
  | none => exact Change.content_eq_none_iff.1 hcontent
  | some text =>
    obtain ⟨ref, before, after, mentions⟩ := c
    cases after with
    | some s =>
      obtain ⟨lines, k, m, hlines, hk, hm, hlayout, hreads⟩ := reads_online hcontent
      exact ⟨_, hreads, lines, k, m, hlines, hk, hm, hlayout, rfl, special_onlineElements _ _ _,
        fun _ => ne_empty_of_codeSpan_mem⟩
    | none =>
      cases before with
      | some s =>
        cases hcontent
        exact ⟨_, reads_offline s, rfl, special_offlineElements s⟩
      | none =>
        cases hcontent
        exact ⟨_, reads_placeholder "", rfl, special_placeholderElements ""⟩

example :
    let s : Server := { (default : Server) with name := "*\\`<@7>", address := "a`b" }
    Reads (offline s) (([.mark '*', .mark '*'] : List Element) ++ literals "*\\`<@7>" ++
      [.mark '*', .mark '*'] ++ literals " is offline\n" ++ [.codeSpan "aˋb"]) := by
  decide +kernel

end Message

end StatusBoard
