import Mathlib.Logic.Basic
import StatusBoard.Message.Content

/-!
# Tables that can be formatted

The table of a server's clients can be formatted exactly if no name and no clan is longer than a
column can be wide (`Server.Narrow`).  Then it has one line per client (`Message.tableLine`), and
there is a message about the server; otherwise there is neither.
-/

namespace StatusBoard

/-! ### Texts -/

namespace Text

@[simp]
theorem length_codeSafe (s : String) : (codeSafe s).length = s.length := by
  rw [codeSafe, String.length_ofList, List.length_map, String.length_toList]

theorem longest_le_iff {l : List String} {n : Nat} : longest l ≤ n ↔ ∀ t ∈ l, t.length ≤ n := by
  induction l with
  | nil => simp [longest]
  | cons t l ih =>
    have hlongest : longest (t :: l) = max t.length (longest l) := rfl
    rw [hlongest, Nat.max_le, ih, List.forall_mem_cons]

theorem padEnd_of_le {width : Nat} (h : width ≤ maxWidth) (s : String) :
    padEnd width s = some (fill width s) := if_pos h

theorem padEnd_of_lt {width : Nat} (h : maxWidth < width) (s : String) : padEnd width s = none :=
  if_neg (Nat.not_le.2 h)

end Text

/-- The name and the clan of the client are not longer than a column can be wide. -/
structure Client.Narrow (c : Client) : Prop where
  name : c.name.length ≤ Text.maxWidth
  clan : c.clan.length ≤ Text.maxWidth

/-- No name and no clan of a client is longer than a column can be wide. -/
def Server.Narrow (s : Server) : Prop := ∀ c ∈ s.clients, c.Narrow

theorem Client.narrow_iff {c : Client} :
    c.Narrow ↔ c.name.length ≤ Text.maxWidth ∧ c.clan.length ≤ Text.maxWidth :=
  ⟨fun h => ⟨h.name, h.clan⟩, fun h => ⟨h.1, h.2⟩⟩

instance (c : Client) : Decidable c.Narrow := decidable_of_iff _ Client.narrow_iff.symm

instance (s : Server) : Decidable s.Narrow := List.decidableBAll _ s.clients

namespace Message

/-! ### Columns -/

theorem columnWidth_le_iff (clients : List Client) (text : Client → String) :
    columnWidth (clients.map fun c => Text.codeSafe (text c)) ≤ Text.maxWidth ↔
      ∀ c ∈ clients, (text c).length ≤ Text.maxWidth := by
  have hone : 1 ≤ Text.maxWidth := by decide
  rw [columnWidth, Nat.max_le, Text.longest_le_iff, List.forall_mem_map, and_iff_left hone]
  simp only [Text.length_codeSafe]

theorem narrow_iff {s : Server} : s.Narrow ↔
    columnWidth (s.clients.map fun c => Text.codeSafe c.name) ≤ Text.maxWidth ∧
      columnWidth (s.clients.map fun c => Text.codeSafe c.clan) ≤ Text.maxWidth := by
  rw [columnWidth_le_iff, columnWidth_le_iff, Server.Narrow, ← forall₂_and]
  simp only [Client.narrow_iff]

/-- A client's name in its column. -/
def nameColumn (s : Server) (c : Client) : String :=
  Text.fill (columnWidth (s.clients.map fun c => Text.codeSafe c.name)) (Text.codeSafe c.name)

/-- A client's clan in its column. -/
def clanColumn (s : Server) (c : Client) : String :=
  Text.fill (columnWidth (s.clients.map fun c => Text.codeSafe c.clan)) (Text.codeSafe c.clan)

/-! ### Lines -/

/-- The line of a client in the table of its server. -/
def tableLine (s : Server) (c : Client) : String :=
  Text.codeSpan (nameColumn s c) ++ " " ++ Text.codeSpan (clanColumn s c) ++ " " ++
    Flag.ofCountry c.country ++ " " ++ scoreText s.scoring c

theorem mapM_eq_some_map {α β : Type} {f : α → Option β} {g : α → β} {l : List α}
    (h : ∀ a ∈ l, f a = some (g a)) : l.mapM f = some (l.map g) := by
  induction l with
  | nil => rfl
  | cons a l ih =>
    rw [List.forall_mem_cons] at h
    rw [List.mapM_cons, h.1, ih h.2]
    rfl

variable {s : Server} {mentions : List UInt64} {lines : List String} {text : String}

theorem clientLines_of_narrow (h : s.Narrow) :
    clientLines s = some (s.clients.map (tableLine s)) := by
  obtain ⟨hname, hclan⟩ := narrow_iff.1 h
  refine mapM_eq_some_map fun c _ => ?_
  rw [clientLine, Text.padEnd_of_le hname, Text.padEnd_of_le hclan]
  rfl

/-- Already the line of the first client cannot be formatted, whichever client is too wide. -/
theorem clientLines_of_not_narrow (h : ¬ s.Narrow) : clientLines s = none := by
  have hnone (c : Client) : clientLine s.scoring
      (columnWidth (s.clients.map fun c => Text.codeSafe c.name))
      (columnWidth (s.clients.map fun c => Text.codeSafe c.clan)) c = none := by
    rw [narrow_iff, not_and_or, Nat.not_le, Nat.not_le] at h
    rw [clientLine]
    rcases h with hname | hclan
    · rw [Text.padEnd_of_lt hname]
      rfl
    · rw [Text.padEnd_of_lt hclan]
      cases Text.padEnd _ (Text.codeSafe c.name) <;> rfl
  rw [clientLines]
  cases hclients : s.clients with
  | nil =>
    refine absurd (fun c hc => ?_) h
    rw [hclients] at hc
    cases hc
  | cons c rest =>
    rw [hclients] at hnone
    rw [List.mapM_cons, hnone]
    rfl

theorem clientLines_eq_some_iff :
    clientLines s = some lines ↔ s.Narrow ∧ s.clients.map (tableLine s) = lines := by
  by_cases h : s.Narrow
  · rw [clientLines_of_narrow h, Option.some_inj, and_iff_right h]
  · rw [clientLines_of_not_narrow h]
    exact iff_of_false (fun heq => by cases heq) fun hlines => h hlines.1

theorem length_of_clientLines (h : clientLines s = some lines) : lines.length = s.clientCount := by
  rw [← (clientLines_eq_some_iff.1 h).2, List.length_map]
  rfl

/-! ### Messages -/

theorem online_of_clientLines (h : clientLines s = some lines) (mentions : List UInt64) :
    online s mentions = some (compose s mentions lines) := by
  rw [online, h]
  rfl

theorem online_eq_some_iff : online s mentions = some text ↔
    ∃ lines, clientLines s = some lines ∧ compose s mentions lines = text :=
  Option.map_eq_some_iff

theorem online_eq_none_iff : online s mentions = none ↔ ¬ s.Narrow := by
  rw [online, Option.map_eq_none_iff]
  refine ⟨fun hnone h => ?_, clientLines_of_not_narrow⟩
  rw [clientLines_of_narrow h] at hnone
  cases hnone

end Message

/-- Only a message about an online server may have a content that cannot be formatted. -/
theorem Change.content_eq_none_iff {c : Change} :
    c.content = none ↔ ∃ s, c.after = some s ∧ ¬ s.Narrow := by
  unfold Change.content
  cases c.after with
  | some s => simp [Message.online_eq_none_iff]
  | none => cases c.before <;> simp

end StatusBoard
