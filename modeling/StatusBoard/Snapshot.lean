import StatusBoard.MessageRef
import StatusBoard.Server.Canonical
import StatusBoard.Table

/-!
# Snapshots

A snapshot says which server each status message shows.  Its entries ascend by message and hold
servers in canonical form, so that two snapshots that show the same are equal
(`Snapshot.ext_get?`).
-/

namespace StatusBoard

/-- Which server each status message shows, in canonical form. -/
structure Snapshot where
  table : Table MessageRef Server
  canonical : ∀ e ∈ table.rows, e.2.IsCanonical

namespace Snapshot

@[ext]
theorem ext {s t : Snapshot} (h : s.table = t.table) : s = t := by
  cases s; cases t; simp_all

instance : DecidableEq Snapshot := fun s t =>
  decidable_of_iff (s.table = t.table) ⟨Snapshot.ext, fun h => h ▸ rfl⟩

/-- The snapshot in which no message shows a server. -/
def empty : Snapshot := ⟨.empty, by simp [Table.empty]⟩

instance : Inhabited Snapshot := ⟨empty⟩

/-- The server that a message shows. -/
def get? (s : Snapshot) (r : MessageRef) : Option Server := s.table.find? r

/-- Whether a message shows a server. -/
def contains (s : Snapshot) (r : MessageRef) : Bool := s.table.contains r

/-- How many messages show a server. -/
def size (s : Snapshot) : Nat := s.table.size

/-- Whether no message shows a server. -/
def isEmpty (s : Snapshot) : Bool := s.table.rows.isEmpty

/-- The messages that show a server, ascending. -/
def refs (s : Snapshot) : List MessageRef := s.table.keys

/-- The messages with the servers that they show, ascending. -/
def entries (s : Snapshot) : List (MessageRef × Server) := s.table.rows

/-- Let a message show the canonical form of a server. -/
def insert (s : Snapshot) (r : MessageRef) (server : Server) : Snapshot where
  table := s.table.insert r server.canonical
  canonical e he := by
    rcases Table.mem_place he with rfl | he
    · exact server.canonical_isCanonical
    · exact s.canonical e he

/-- Let a message show nothing. -/
def erase (s : Snapshot) (r : MessageRef) : Snapshot where
  table := s.table.erase r
  canonical e he := s.canonical e (List.mem_filter.1 he).1

/-- Show the servers of a list one after the other; of equal messages the last one counts. -/
def ofList (l : List (MessageRef × Server)) : Snapshot :=
  l.foldl (fun s e => s.insert e.1 e.2) empty

@[simp]
theorem get?_empty (r : MessageRef) : empty.get? r = none := rfl

theorem get?_insert (s : Snapshot) (r r' : MessageRef) (server : Server) :
    (s.insert r server).get? r' = if r' = r then some server.canonical else s.get? r' :=
  s.table.find?_insert r r' server.canonical

theorem get?_erase (s : Snapshot) (r r' : MessageRef) :
    (s.erase r).get? r' = if r' = r then none else s.get? r' :=
  s.table.find?_erase r r'

/-- What is shown for a message that a list does not name stays. -/
theorem get?_foldl_insert_of_notMem {l : List (MessageRef × Server)} {r : MessageRef}
    (hr : r ∉ l.map Prod.fst) (s : Snapshot) :
    (l.foldl (fun s e => s.insert e.1 e.2) s).get? r = s.get? r := by
  induction l generalizing s with
  | nil => rfl
  | cons e l ih =>
    rw [List.map_cons, List.mem_cons, not_or] at hr
    rw [List.foldl_cons, ih hr.2, get?_insert, if_neg hr.1]

/-- What is shown after the servers of a list was shown before or comes from the list. -/
theorem mem_of_get?_foldl_insert {l : List (MessageRef × Server)} {s : Snapshot} {r : MessageRef}
    {server : Server} (h : (l.foldl (fun s e => s.insert e.1 e.2) s).get? r = some server) :
    s.get? r = some server ∨ ∃ raw, (r, raw) ∈ l ∧ server = raw.canonical := by
  induction l generalizing s with
  | nil => exact .inl h
  | cons e l ih =>
    rcases ih h with hs | ⟨raw, hmem, heq⟩
    · rw [get?_insert] at hs
      split at hs
      · next hr =>
        cases hs
        exact .inr ⟨e.2, hr ▸ List.mem_cons_self, rfl⟩
      · exact .inl hs
    · exact .inr ⟨raw, List.mem_cons_of_mem e hmem, heq⟩

/-- Entries that are made of rows, at most one of each, name no more messages than the rows do. -/
theorem sublist_map_filterMap {α : Type} {f : α → Option (MessageRef × Server)} {g : α → MessageRef}
    (hf : ∀ a e, f a = some e → e.1 = g a) (l : List α) :
    ((l.filterMap f).map Prod.fst).Sublist (l.map g) := by
  induction l with
  | nil => exact .slnil
  | cons a l ih =>
    cases h : f a with
    | none =>
      rw [List.filterMap_cons_none h, List.map_cons]
      exact ih.cons _
    | some e =>
      rw [List.filterMap_cons_some h, List.map_cons, List.map_cons, hf a e h]
      exact ih.cons_cons _

/-- A message that a list does not name shows nothing. -/
theorem get?_ofList_of_notMem {l : List (MessageRef × Server)} {r : MessageRef}
    (hr : r ∉ l.map Prod.fst) : (ofList l).get? r = none :=
  get?_foldl_insert_of_notMem hr empty

theorem mem_of_get?_ofList {l : List (MessageRef × Server)} {r : MessageRef} {server : Server}
    (h : (ofList l).get? r = some server) : ∃ raw, (r, raw) ∈ l ∧ server = raw.canonical := by
  rcases mem_of_get?_foldl_insert h with hempty | hmem
  · cases hempty
  · exact hmem

/-- A message that a list names once shows the canonical form of its server. -/
theorem get?_foldl_insert_of_mem {l : List (MessageRef × Server)} (hl : (l.map Prod.fst).Nodup)
    {r : MessageRef} {server : Server} (h : (r, server) ∈ l) (s : Snapshot) :
    (l.foldl (fun s e => s.insert e.1 e.2) s).get? r = some server.canonical := by
  induction l generalizing s with
  | nil => cases h
  | cons e l ih =>
    rw [List.map_cons, List.nodup_cons] at hl
    rw [List.foldl_cons]
    rcases List.mem_cons.1 h with rfl | h
    · rw [get?_foldl_insert_of_notMem hl.1, get?_insert, if_pos rfl]
    · exact ih hl.2 h _

theorem get?_ofList_of_mem {l : List (MessageRef × Server)} (hl : (l.map Prod.fst).Nodup)
    {r : MessageRef} {server : Server} (h : (r, server) ∈ l) :
    (ofList l).get? r = some server.canonical :=
  get?_foldl_insert_of_mem hl h empty

theorem isCanonical_of_get? {s : Snapshot} {r : MessageRef} {server : Server}
    (h : s.get? r = some server) : server.IsCanonical :=
  s.canonical (r, server) (Table.find?_eq_some_iff.1 h)

/-- Snapshots that show the same server for every message are equal. -/
theorem ext_get? {s t : Snapshot} (h : ∀ r, s.get? r = t.get? r) : s = t :=
  Snapshot.ext (Table.ext_find? h)

end Snapshot

end StatusBoard
