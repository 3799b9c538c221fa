import Mathlib.Logic.Function.Iterate
import StatusBoard.Store.Schema

/-!
# Migrations are recorded once

A run applies the migrations above the greatest number that was recorded before it started, and
records each one together with its tables.  So a gap below that number stays a gap, a later run has
nothing left to do (`Schema.migrate_migrate`), and a run that was interrupted is taken up where it
stopped (`Schema.migrate_interrupted`).
-/

namespace StatusBoard

/-- Whether a migration comes after all that are recorded. -/
def Migration.Pending (recorded : List Int) (m : Migration) : Prop :=
  ∀ v ∈ recorded, v < m.version

namespace Schema

variable {s : Schema} {m : Migration} {ms : List Migration} {v : Int} {t : String}

/-! ### One migration -/

theorem mem_versions_apply : v ∈ (s.apply m).versions ↔ v ∈ s.versions ∨ m.version = v := by
  rw [apply, mem_ascending, List.mem_cons, or_comm, eq_comm]

theorem mem_tables_apply :
    t ∈ (s.apply m).tables ↔ t ∈ s.tables ∨ ∃ name ∈ m.creates, name.text = t := by
  rw [apply, mem_ascending, List.mem_append, List.mem_map, or_comm]

/-- Tables and numbers are listed ascending, each of them once. -/
structure Sorted (s : Schema) : Prop where
  tables : Strict s.tables
  versions : Strict s.versions

theorem sorted_apply (s : Schema) (m : Migration) : (s.apply m).Sorted where
  tables := ascending_strict _
  versions := ascending_strict _

/-! ### Several migrations -/

theorem mem_versions_foldl :
    v ∈ (ms.foldl apply s).versions ↔ v ∈ s.versions ∨ ∃ m ∈ ms, m.version = v := by
  induction ms generalizing s with
  | nil => simp
  | cons m ms ih =>
    rw [List.foldl_cons, ih, mem_versions_apply, or_assoc]
    simp only [List.mem_cons, exists_eq_or_imp]

theorem mem_tables_foldl : t ∈ (ms.foldl apply s).tables ↔
    t ∈ s.tables ∨ ∃ m ∈ ms, ∃ name ∈ m.creates, name.text = t := by
  induction ms generalizing s with
  | nil => simp
  | cons m ms ih =>
    rw [List.foldl_cons, ih, mem_tables_apply, or_assoc]
    simp only [List.mem_cons, exists_eq_or_imp]

theorem Sorted.foldl (h : s.Sorted) (ms : List Migration) : (ms.foldl apply s).Sorted := by
  induction ms generalizing s with
  | nil => exact h
  | cons m ms ih => exact ih (sorted_apply s m)

/-! ### A run -/

/-- A run may meet a greatest number of zero only if nothing is recorded, and then it is as good as
no number at all: migrations have positive numbers. -/
theorem current_lt_iff {n : Int} (hn : 0 < n) : s.current < n ↔ ∀ v ∈ s.versions, v < n := by
  rw [current]
  cases hmax : s.versions.max? with
  | none =>
    rw [List.max?_eq_none_iff] at hmax
    simp [hmax, hn]
  | some greatest =>
    obtain ⟨hmem, hle⟩ := List.max?_eq_some_iff.1 hmax
    exact ⟨fun hlt v hv => Int.lt_of_le_of_lt (hle v hv) hlt, fun hall => hall greatest hmem⟩

theorem version_pos : ∀ m ∈ Migration.all, 0 < m.version := by decide

/-- The migrations that a run applies, in order. -/
def pending (s : Schema) : List Migration := Migration.all.filter fun m => s.current < m.version

theorem mem_pending : m ∈ s.pending ↔ m ∈ Migration.all ∧ m.Pending s.versions := by
  rw [pending, List.mem_filter, decide_eq_true_eq]
  exact and_congr_right fun hm => current_lt_iff (version_pos m hm)

/-- Migrations are applied in the order of their numbers. -/
theorem pairwise_pending (s : Schema) : s.pending.Pairwise fun a b => a.version < b.version := by
  have hall : Migration.all.Pairwise fun a b => a.version < b.version := by decide
  exact hall.filter _

/-- The database at the start of a run, which has the table of records. -/
def opened (s : Schema) : Schema := { s with tables := ascending (versionTable :: s.tables) }

theorem migrate_eq (s : Schema) : s.migrate = s.pending.foldl apply s.opened := rfl

theorem Sorted.opened_eq (h : s.Sorted) (ht : versionTable ∈ s.tables) : s.opened = s := by
  have hsame : ascending (versionTable :: s.tables) = s.tables :=
    (ascending_strict _).ext h.tables fun t => by
      rw [mem_ascending, List.mem_cons]
      exact or_iff_right_of_imp fun heq => heq ▸ ht
  rw [opened, hsame]

/-- A database after the first migrations of a run, or after the whole run. -/
def interrupted (k : Nat) (s : Schema) : Schema := (s.pending.take k).foldl apply s.opened

theorem interrupted_all (s : Schema) : s.interrupted s.pending.length = s.migrate := by
  rw [interrupted, List.take_length, migrate_eq]

variable {k : Nat}

theorem mem_versions_interrupted : v ∈ (s.interrupted k).versions ↔
    v ∈ s.versions ∨ ∃ m ∈ s.pending.take k, m.version = v := mem_versions_foldl

theorem versionTable_mem_interrupted : versionTable ∈ (s.interrupted k).tables := by
  refine mem_tables_foldl.2 (.inl ?_)
  rw [opened, mem_ascending]
  exact List.mem_cons_self

theorem sorted_interrupted (h : Strict s.versions) (k : Nat) : (s.interrupted k).Sorted := by
  have hopened : s.opened.Sorted := ⟨ascending_strict _, h⟩
  exact hopened.foldl _

/-- What is pending after an interruption: what was pending before and has not been applied. -/
theorem pending_interrupted (s : Schema) (k : Nat) :
    (s.interrupted k).pending = s.pending.drop k := by
  have hsplit : s.pending.take k ++ s.pending.drop k = s.pending := List.take_append_drop k _
  have horder := s.pairwise_pending
  rw [← hsplit, List.pairwise_append] at horder
  have hcurrent : ∀ m ∈ s.pending, (s.interrupted k).current < m.version ↔
      m.Pending (s.interrupted k).versions := fun m hm =>
    current_lt_iff (version_pos m (mem_pending.1 hm).1)
  -- What has been applied is no longer pending, and all that comes after it still is.
  have hbefore : ∀ m ∈ s.pending.take k, ¬ (s.interrupted k).current < m.version := by
    intro m hm hlt
    have hpending := (hcurrent m (List.mem_of_mem_take hm)).1 hlt
    have hself := hpending m.version (mem_versions_interrupted.2 (.inr ⟨m, hm, rfl⟩))
    exact Int.lt_irrefl _ hself
  have hafter : ∀ m ∈ s.pending.drop k, (s.interrupted k).current < m.version := by
    intro m hm
    have hmem : m ∈ s.pending := List.mem_of_mem_drop hm
    refine (hcurrent m hmem).2 fun v hv => ?_
    rcases mem_versions_interrupted.1 hv with hv | ⟨a, ha, rfl⟩
    · exact (mem_pending.1 hmem).2 v hv
    · exact horder.2.2 a ha m hm
  calc (s.interrupted k).pending
    _ = s.pending.filter fun m => (s.interrupted k).current < m.version := by
      rw [pending, pending, List.filter_filter]
      refine List.filter_congr fun m hm => ?_
      have hearlier : (s.interrupted k).current < m.version → s.current < m.version := by
        rw [current_lt_iff (version_pos m hm), current_lt_iff (version_pos m hm)]
        exact fun hall v hv => hall v (mem_versions_interrupted.2 (.inl hv))
      simpa using hearlier
    _ = (s.pending.take k ++ s.pending.drop k).filter fun m =>
        (s.interrupted k).current < m.version := by rw [hsplit]
    _ = s.pending.drop k := by
      rw [List.filter_append, List.filter_eq_nil_iff.2 fun m hm => by simpa using hbefore m hm,
        List.filter_eq_self.2 fun m hm => by simpa using hafter m hm, List.nil_append]

/-- A run that was interrupted is taken up where it stopped. -/
theorem migrate_interrupted (h : Strict s.versions) (k : Nat) :
    (s.interrupted k).migrate = s.migrate := by
  rw [migrate_eq, pending_interrupted,
    (sorted_interrupted h k).opened_eq versionTable_mem_interrupted, interrupted,
    ← List.foldl_append, List.take_append_drop, migrate_eq]

/-- A later run leaves the database alone. -/
theorem migrate_migrate (h : Strict s.versions) : s.migrate.migrate = s.migrate := by
  have hagain := migrate_interrupted h s.pending.length
  rwa [interrupted_all] at hagain

theorem iterate_migrate (h : Strict s.versions) (n : Nat) : migrate^[n + 1] s = s.migrate := by
  rw [Function.iterate_succ_apply, Function.iterate_fixed (migrate_migrate h)]

/-! ### What is recorded -/

theorem mem_versions_migrate : v ∈ s.migrate.versions ↔
    v ∈ s.versions ∨ ∃ m ∈ Migration.all, m.Pending s.versions ∧ m.version = v := by
  rw [migrate_eq, mem_versions_foldl]
  simp only [mem_pending, and_assoc]
  rfl

theorem mem_tables_migrate : t ∈ s.migrate.tables ↔ t = versionTable ∨ t ∈ s.tables ∨
    ∃ m ∈ Migration.all, m.Pending s.versions ∧ ∃ name ∈ m.creates, name.text = t := by
  rw [migrate_eq, mem_tables_foldl, opened, mem_ascending, List.mem_cons, or_assoc]
  simp only [mem_pending, and_assoc]

/-- However often the migrations are run on a database that records some numbers and has no tables
of its own, afterwards it records these numbers and those of the migrations above all of them, each
once, and has the tables of just these migrations.  A database without any table is as good as one
that records nothing, and a run that was interrupted after some of the migrations is made up for. -/
theorem migrate_records (recorded : List Int) (n : Nat) :
    migrate^[n + 1] (ofVersions recorded) = migrate (ofVersions recorded) ∧
    (∀ v, v ∈ (migrate (ofVersions recorded)).versions ↔
      v ∈ recorded ∨ ∃ m ∈ Migration.all, m.Pending recorded ∧ m.version = v) ∧
    (∀ t, t ∈ (migrate (ofVersions recorded)).tables ↔ t = versionTable ∨
      ∃ m ∈ Migration.all, m.Pending recorded ∧ ∃ name ∈ m.creates, name.text = t) ∧
    Strict (migrate (ofVersions recorded)).versions ∧
    Strict (migrate (ofVersions recorded)).tables ∧
    migrate^[n + 1] empty = migrate (ofVersions []) ∧
    ∀ k, migrate (interrupted k (ofVersions recorded)) = migrate (ofVersions recorded) := by
  have hrecorded : Strict (ofVersions recorded).versions := ascending_strict _
  have hnone : Strict empty.versions := .nil
  have hmem (v : Int) : v ∈ (ofVersions recorded).versions ↔ v ∈ recorded := mem_ascending
  have htable (t : String) : t ∈ (ofVersions recorded).tables ↔ t = versionTable :=
    List.mem_singleton
  have hsorted := sorted_interrupted hrecorded (ofVersions recorded).pending.length
  rw [interrupted_all] at hsorted
  refine ⟨iterate_migrate hrecorded n, fun v => ?_, fun t => ?_, hsorted.versions, hsorted.tables,
    ?_, migrate_interrupted hrecorded⟩
  · rw [mem_versions_migrate]
    simp only [Migration.Pending, hmem]
  · rw [mem_tables_migrate]
    simp only [Migration.Pending, hmem, htable, or_self_left]
  · rw [iterate_migrate hnone]
    rfl

/-- The first migration stays left out. -/
example : migrate (ofVersions [2]) =
    ⟨["player_count_notifications", versionTable], [2, 3]⟩ := by decide

end Schema

end StatusBoard
