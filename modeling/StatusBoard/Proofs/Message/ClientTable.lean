import Mathlib.Data.List.Forall2
import StatusBoard.Proofs.Message.Literal
import StatusBoard.Proofs.Server.Canonical
import StatusBoard.Proofs.Text.Cut

/-!
# The table of clients, read back

A reader who knows nothing of a server takes the lines of its clients apart (`Row.ofLine?`) and
reads the times in them (`Clock.ofText?`).  The reader finds every client in its place, columns that
are as wide as their longest text, and on a server with times the scores of the players, which
ascend down to the players without a time.
-/

namespace StatusBoard

/-! ### Columns -/

namespace Text

/-- A text that is filled with spaces up to a number of characters. -/
def IsPadded (width : Nat) (s padded : String) : Prop :=
  padded.length = width ∧ ∃ k, padded = s ++ String.ofList (List.replicate k ' ')

theorem isPadded_fill {width : Nat} {s : String} (h : s.length ≤ width) :
    IsPadded width s (fill width s) := by
  refine ⟨?_, _, rfl⟩
  rw [fill, String.length_append, String.length_ofList, List.length_replicate]
  omega

theorem exists_length_eq_longest {l : List String} (h : 0 < longest l) :
    ∃ t ∈ l, t.length = longest l := by
  induction l with
  | nil => cases h
  | cons a l ih =>
    have hlongest : longest (a :: l) = max a.length (longest l) := rfl
    rcases Nat.le_total (longest l) a.length with hle | hle
    · exact ⟨a, List.mem_cons_self, by rw [hlongest, Nat.max_eq_left hle]⟩
    · rw [hlongest, Nat.max_eq_right hle] at h ⊢
      obtain ⟨t, ht, heq⟩ := ih h
      exact ⟨t, List.mem_cons_of_mem a ht, heq⟩

end Text

namespace Message

open Markup

/-- A column is as wide as its longest text, and at least one character. -/
theorem isGreatest_columnWidth (column : List String) :
    IsGreatest {n | n = 1 ∨ ∃ t ∈ column, t.length = n} (columnWidth column) := by
  refine ⟨?_, ?_⟩
  · rcases Nat.le_total (Text.longest column) 1 with hle | hle
    · exact .inl (Nat.max_eq_right hle)
    · rw [columnWidth, Nat.max_eq_left hle]
      exact .inr (Text.exists_length_eq_longest hle)
  · rintro n (rfl | ⟨t, ht, rfl⟩)
    · exact Nat.le_max_right _ _
    · exact Nat.le_trans (Text.longest_le_iff.1 (Nat.le_refl _) t ht) (Nat.le_max_left _ _)

/-- Replacing backticks does not change how long the texts of a column are. -/
theorem isGreatest_columnWidth_map (clients : List Client) (text : Client → String) :
    IsGreatest {n | n = 1 ∨ ∃ c ∈ clients, (text c).length = n}
      (columnWidth (clients.map fun c => Text.codeSafe (text c))) := by
  have hgreatest := isGreatest_columnWidth (clients.map fun c => Text.codeSafe (text c))
  simpa using hgreatest

/-! ### Lines -/

/-- What a line of the table shows, from left to right. -/
structure Row where
  name : String
  clan : String
  flag : String
  score : String
deriving DecidableEq

namespace Row

/-- The line of a row. -/
def line (r : Row) : String :=
  Text.codeSpan r.name ++ " " ++ Text.codeSpan r.clan ++ " " ++ r.flag ++ " " ++ r.score

/-- Take a line apart: two code spans, then the flag and the score, with spaces between them. -/
def ofLine? (line : String) : Option Row := do
  let rest ← Text.rest? ['\x60'] line.toList
  let (name, rest) ← Text.cut? ['\x60', ' ', '\x60'] rest
  let (clan, rest) ← Text.cut? ['\x60', ' '] rest
  let (flag, score) ← Text.cut? [' '] rest
  return ⟨String.ofList name, String.ofList clan, String.ofList flag, String.ofList score⟩

theorem ofLine?_line {r : Row} (hname : '\x60' ∉ r.name.toList) (hclan : '\x60' ∉ r.clan.toList)
    (hflag : ' ' ∉ r.flag.toList) : ofLine? r.line = some r := by
  have hline : r.line.toList = '\x60' :: (r.name.toList ++ '\x60' :: ' ' :: '\x60' ::
      (r.clan.toList ++ '\x60' :: ' ' :: (r.flag.toList ++ ' ' :: r.score.toList))) := by
    simp [line, Text.codeSpan]
  have hstart (cs : List Char) : Text.rest? ['\x60'] ('\x60' :: cs) = some cs := rfl
  have hspans (cs : List Char) :
      Text.cut? ['\x60', ' ', '\x60'] ('\x60' :: ' ' :: '\x60' :: cs) = some ([], cs) := rfl
  have hspan (cs : List Char) : Text.cut? ['\x60', ' '] ('\x60' :: ' ' :: cs) = some ([], cs) := rfl
  have hspace (cs : List Char) : Text.cut? [' '] (' ' :: cs) = some ([], cs) := rfl
  rw [ofLine?, hline, hstart]
  simp [Text.cut?_append_left hname, Text.cut?_append_left hclan, Text.cut?_append_left hflag,
    hspans, hspan, hspace]

/-- The row shows the name and the clan of a client without their backticks, in columns of these
widths, and the flag of its country. -/
structure Shows (nameWidth clanWidth : Nat) (c : Client) (r : Row) : Prop where
  name : Text.IsPadded nameWidth (Text.codeSafe c.name) r.name
  clan : Text.IsPadded clanWidth (Text.codeSafe c.clan) r.clan
  flag : r.flag = Flag.ofCountry c.country

end Row

/-- The row of a client of a server. -/
def row (s : Server) (c : Client) : Row where
  name := nameColumn s c
  clan := clanColumn s c
  flag := Flag.ofCountry c.country
  score := scoreText s.scoring c

theorem ofLine?_row (s : Server) (c : Client) : Row.ofLine? (tableLine s c) = some (row s c) := by
  have hline : tableLine s c = (row s c).line := rfl
  have hflag : ' ' ∉ (Flag.ofCountry c.country).toList := fun hmem =>
    forall_mem_ofCountry (p := (· ≠ ' ')) (fun n hn => ofNat_ne hn (by decide)) _ _ hmem rfl
  rw [hline]
  exact Row.ofLine?_line (backtick_notMem_fill _ (backtick_notMem_codeSafe _))
    (backtick_notMem_fill _ (backtick_notMem_codeSafe _)) hflag

/-! ### Times -/

/-- A time as it is shown. -/
structure Clock where
  hours : Option Nat
  minutes : Nat
  seconds : Nat
deriving DecidableEq

namespace Clock

/-- How many seconds a time has. -/
def total (t : Clock) : Nat := 3600 * t.hours.getD 0 + 60 * t.minutes + t.seconds

/-- The value of two digits. -/
def twoDigits? (cs : List Char) : Option Nat :=
  if cs.length = 2 then Text.numeral? 10 cs else none

/-- Read a time: minutes and seconds of two digits each, and maybe hours in front, with colons
between them. -/
def ofText? (text : String) : Option Clock := do
  let (first, rest) ← Text.cut? [':'] text.toList
  match Text.cut? [':'] rest with
  | none => return ⟨none, ← twoDigits? first, ← twoDigits? rest⟩
  | some (second, third) =>
    return ⟨some (← Text.numeral? 10 first), ← twoDigits? second, ← twoDigits? third⟩

/-- Minutes and seconds are below sixty, and hours are shown exactly from one hour on. -/
structure Proper (t : Clock) : Prop where
  minutes : t.minutes < 60
  seconds : t.seconds < 60
  hours : t.hours.isSome ↔ 3600 ≤ t.total

theorem twoDigits?_twoDigits :
    ∀ n < 60, twoDigits? (twoDigits n).toList = some n ∧ ':' ∉ (twoDigits n).toList := by
  decide +kernel

section Reading

variable {text : String} {hs ms ss : List Char}

theorem cut?_colon (hms : ':' ∉ ms) (cs : List Char) :
    Text.cut? [':'] (ms ++ ':' :: cs) = some (ms, cs) := by
  have hcolon : Text.cut? [':'] (':' :: cs) = some ([], cs) := rfl
  rw [Text.cut?_append_left hms, hcolon, Option.map_some, List.append_nil]

theorem ofText?_short (htext : text.toList = ms ++ ':' :: ss) (hms : ':' ∉ ms) (hss : ':' ∉ ss) :
    ofText? text = do return ⟨none, ← twoDigits? ms, ← twoDigits? ss⟩ := by
  have hlast : Text.cut? [':'] ss = none := Text.cut?_eq_none List.mem_cons_self hss
  rw [ofText?, htext, cut?_colon hms]
  simp only [hlast, Option.bind_eq_bind, Option.bind_some]

theorem ofText?_long (htext : text.toList = hs ++ ':' :: (ms ++ ':' :: ss)) (hhs : ':' ∉ hs)
    (hms : ':' ∉ ms) : ofText? text = do
      return ⟨some (← Text.numeral? 10 hs), ← twoDigits? ms, ← twoDigits? ss⟩ := by
  rw [ofText?, htext, cut?_colon hhs]
  simp only [cut?_colon hms, Option.bind_eq_bind, Option.bind_some]

end Reading

/-- What is shown of a finish time. -/
def ofSeconds (n : Nat) : Clock where
  hours := if 0 < n / 3600 then some (n / 3600) else none
  minutes := n / 60 % 60
  seconds := n % 60

theorem total_ofSeconds (n : Nat) : (ofSeconds n).total = n := by
  unfold ofSeconds total
  dsimp only
  split
  · rw [Option.getD_some]
    omega
  · rw [Option.getD_none]
    omega

theorem proper_ofSeconds (n : Nat) : (ofSeconds n).Proper where
  minutes := Nat.mod_lt _ (by decide)
  seconds := Nat.mod_lt _ (by decide)
  hours := by
    rw [total_ofSeconds, ofSeconds]
    dsimp only
    split
    · simp only [Option.isSome_some, true_iff]
      omega
    · simp only [Option.isSome_none, Bool.false_eq_true, false_iff]
      omega

/-- A finish time is read as the score. -/
theorem ofText?_timeText {score : Int32} (h : 0 ≤ score) :
    ofText? (timeText score) = some (ofSeconds score.toInt.toNat) := by
  rw [timeText, if_neg (Int32.not_lt.2 h)]
  generalize score.toInt.toNat = n
  dsimp only
  obtain ⟨hminutes, hm⟩ := twoDigits?_twoDigits (n / 60 % 60) (Nat.mod_lt _ (by decide))
  obtain ⟨hseconds, hs⟩ := twoDigits?_twoDigits (n % 60) (Nat.mod_lt _ (by decide))
  split
  · next hhours =>
    have hread : Text.numeral? 10 (toString (n / 3600)).toList = some (n / 3600) := by
      rw [Text.toList_toString_nat]
      exact Text.numeral?_numeral (by decide) (by decide) _
    have hh : ':' ∉ (toString (n / 3600)).toList := by
      rw [Text.toList_toString_nat]
      exact fun hmem => absurd (Text.isDigit_of_mem_numeral hmem) (by decide)
    have htext : (s!"{n / 3600}:{twoDigits (n / 60 % 60)}:{twoDigits (n % 60)}").toList =
        (toString (n / 3600)).toList ++
          ':' :: ((twoDigits (n / 60 % 60)).toList ++ ':' :: (twoDigits (n % 60)).toList) := by
      simp [toString]
    rw [ofText?_long htext hh hm, hread, hminutes, hseconds, ofSeconds, if_pos hhours]
    rfl
  · next hhours =>
    have htext : (s!"{twoDigits (n / 60 % 60)}:{twoDigits (n % 60)}").toList =
        (twoDigits (n / 60 % 60)).toList ++ ':' :: (twoDigits (n % 60)).toList := by
      simp [toString]
    rw [ofText?_short htext hm hs, hminutes, hseconds, ofSeconds, if_neg hhours]
    rfl

end Clock

/-! ### The order of times -/

/-- A client that may stand before another one is not led by it. -/
theorem not_leads_of_mayPrecede {k : Scoring} {a b : Client} (h : Client.mayPrecede k a b) :
    ¬ k.Leads b a := by
  rcases Client.inDisplayOrder_of_mayPrecede h with hleads | ⟨hnot, -⟩
  · rw [← Scoring.rank_lt_rank_iff] at hleads ⊢
    omega
  · exact hnot

/-- If a client has a time, the clients before it have times as well, and none of them is longer. -/
theorem times_of_mayPrecede {a b : Client} (h : Client.mayPrecede .time a b) (hb : 0 ≤ b.score) :
    0 ≤ a.score ∧ a.score ≤ b.score := by
  have hnot : ¬ (0 ≤ b.score ∧ (a.score < 0 ∨ b.score < a.score)) := not_leads_of_mayPrecede h
  rw [not_and, not_or, Int32.not_lt, Int32.not_lt] at hnot
  exact hnot hb

namespace Row

/-- How many seconds the score column shows, if it shows a time. -/
def time? (r : Row) : Option Nat := (Clock.ofText? r.score).map Clock.total

/-- What the score column shows on a server with times: the score of a player as a time, dashes for
a player who has none, and that a client does not play. -/
structure ShowsTime (c : Client) (r : Row) : Prop where
  time : c.isPlayer → 0 ≤ c.score →
    ∃ t : Clock, Clock.ofText? r.score = some t ∧ t.Proper ∧ (t.total : Int) = c.score.toInt
  none : c.isPlayer → c.score < 0 → r.score = "--:--"
  spectator : ¬ c.isPlayer → r.score = "spectating"

end Row

variable {s : Server} {c : Client}

theorem score_row (hs : s.scoring = .time) (c : Client) :
    (row s c).score = if c.isPlayer then timeText c.score else "spectating" := by
  change scoreText s.scoring c = _
  rw [hs]
  cases hplayer : c.isPlayer with
  | true => simp [scoreText, hplayer]
  | false => simp [scoreText, hplayer]

theorem showsTime_row (hs : s.scoring = .time) (c : Client) : Row.ShowsTime c (row s c) where
  time hplayer h := by
    refine ⟨Clock.ofSeconds c.score.toInt.toNat, ?_, Clock.proper_ofSeconds _, ?_⟩
    · rw [score_row hs, if_pos hplayer, Clock.ofText?_timeText h]
    · rw [Clock.total_ofSeconds, Int.toNat_of_nonneg (Int32.le_iff_toInt_le.1 h)]
  none hplayer h := by rw [score_row hs, if_pos hplayer, timeText, if_pos h]
  spectator hplayer := by rw [score_row hs, if_neg hplayer]

theorem time?_row (hs : s.scoring = .time) (c : Client) : (row s c).time? =
    if c.isPlayer ∧ 0 ≤ c.score then some c.score.toInt.toNat else none := by
  have hdashes : Clock.ofText? "--:--" = none := by decide +kernel
  have hspectating : Clock.ofText? "spectating" = none := by decide +kernel
  have hshows := showsTime_row hs c
  rw [Row.time?]
  by_cases hplayer : c.isPlayer
  · by_cases hscore : 0 ≤ c.score
    · obtain ⟨t, hread, -, htotal⟩ := hshows.time hplayer hscore
      rw [if_pos ⟨hplayer, hscore⟩, hread, Option.map_some, ← htotal, Int.toNat_natCast]
    · rw [if_neg fun h => hscore h.2, hshows.none hplayer (Int32.not_le.1 hscore), hdashes,
        Option.map_none]
  · rw [if_neg fun h => hplayer h.1, hshows.spectator hplayer, hspectating, Option.map_none]

theorem score_of_score_row (hs : s.scoring = .time) (h : (row s c).score = "--:--") :
    c.isPlayer ∧ c.score < 0 := by
  have hdashes : Clock.ofText? "--:--" = none := by decide +kernel
  have hplayer : c.isPlayer := by
    by_contra hplayer
    rw [(showsTime_row hs c).spectator hplayer] at h
    exact absurd h (by decide)
  refine ⟨hplayer, Int32.not_le.1 fun hscore => ?_⟩
  obtain ⟨t, hread, -⟩ := (showsTime_row hs c).time hplayer hscore
  rw [h, hdashes] at hread
  cases hread

/-- If no name and no clan is too long for a column, the table of a server in canonical form is read
line by line.  Each line shows the client in its place: the columns are as wide as the longest name
or clan and at least one character, and hold the client's name and clan and then spaces only.  On a
server with times the players' scores are read as times, which do not decrease down the list, and no
time stands below a player who has none. -/
theorem clientLines_table {s : Server} (h : s.IsCanonical) (hnarrow : s.Narrow) :
    ∃ lines rows, clientLines s = some lines ∧ lines.map Row.ofLine? = rows.map some ∧
      (∃ nameWidth clanWidth,
        IsGreatest {n | n = 1 ∨ ∃ c ∈ s.clients, c.name.length = n} nameWidth ∧
        IsGreatest {n | n = 1 ∨ ∃ c ∈ s.clients, c.clan.length = n} clanWidth ∧
        List.Forall₂ (Row.Shows nameWidth clanWidth) s.clients rows) ∧
      (s.scoring = .time → List.Forall₂ Row.ShowsTime s.clients rows ∧
        (rows.filterMap Row.time?).Pairwise (· ≤ ·) ∧
        rows.Pairwise fun above below => above.score = "--:--" → below.time? = none) := by
  refine ⟨_, s.clients.map (row s), clientLines_of_narrow hnarrow, ?_, ?_,
    fun hs => ⟨?_, ?_, ?_⟩⟩
  · rw [List.map_map, List.map_map]
    exact List.map_congr_left fun c _ => ofLine?_row s c
  · have hnames := isGreatest_columnWidth_map s.clients Client.name
    have hclans := isGreatest_columnWidth_map s.clients Client.clan
    refine ⟨_, _, hnames, hclans, ?_⟩
    rw [List.forall₂_map_right_iff, List.forall₂_same]
    intro c hc
    refine ⟨Text.isPadded_fill ?_, Text.isPadded_fill ?_, rfl⟩
    · rw [Text.length_codeSafe]
      exact hnames.2 (.inr ⟨c, hc, rfl⟩)
    · rw [Text.length_codeSafe]
      exact hclans.2 (.inr ⟨c, hc, rfl⟩)
  · rw [List.forall₂_map_right_iff, List.forall₂_same]
    exact fun c _ => showsTime_row hs c
  · rw [List.pairwise_filterMap, List.pairwise_map]
    refine (hs ▸ h.clients).imp fun {a b} hab m hm n hn => ?_
    rw [time?_row hs, Option.ite_none_right_eq_some, Option.some_inj] at hm hn
    have hle := (times_of_mayPrecede hab hn.1.2).2
    rw [← hm.2, ← hn.2]
    exact Int.toNat_le_toNat (Int32.le_iff_toInt_le.1 hle)
  · rw [List.pairwise_map]
    refine (hs ▸ h.clients).imp fun {a b} hab ha => ?_
    rw [time?_row hs, if_neg]
    rintro ⟨-, hb⟩
    exact Int32.not_le.2 (score_of_score_row hs ha).2 (times_of_mayPrecede hab hb).1

/-- The times of two players, one of them above an hour, stand above a spectator and a player
without a time; the columns are as wide as the longest name and the only clan. -/
theorem clientLines_table_mixed :
    let c : Client := { (default : Client) with country := -1, isPlayer := true }
    let s : Server := { (default : Server) with
      scoring := .time,
      clients := [{ c with name := "a`b", score := 59 }, { c with name := "z", score := 3661 },
        { c with name := "s", clan := "xy", score := 4000, isPlayer := false },
        { c with score := -9999 }] }
    let rows : List Row := [⟨"aˋb", "  ", Flag.unknown, "00:59"⟩,
      ⟨"z  ", "  ", Flag.unknown, "1:01:01"⟩, ⟨"s  ", "xy", Flag.unknown, "spectating"⟩,
      ⟨"   ", "  ", Flag.unknown, "--:--"⟩]
    s.IsCanonical ∧ s.Narrow ∧
      (clientLines s).map (List.map Row.ofLine?) = some (rows.map some) ∧
      List.Forall₂ Row.ShowsTime s.clients rows ∧ rows.filterMap Row.time? = [59, 3661] := by
  intro c s rows
  have hcanonical : s.IsCanonical := by decide +kernel
  have hnarrow : s.Narrow := by decide +kernel
  obtain ⟨lines, rows', hlines, hrows', -, htimes⟩ := clientLines_table hcanonical hnarrow
  have hrows : (clientLines s).map (List.map Row.ofLine?) = some (rows.map some) := by
    decide +kernel
  have heq : rows' = rows := by
    rw [hlines, Option.map_some, Option.some_inj, hrows'] at hrows
    exact List.map_injective_iff.2 (Option.some_injective Row) hrows
  exact ⟨hcanonical, hnarrow, hrows, heq ▸ (htimes rfl).1, by decide +kernel⟩

end Message

end StatusBoard
