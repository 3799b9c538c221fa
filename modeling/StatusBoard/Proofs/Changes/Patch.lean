import StatusBoard.Cycle
import StatusBoard.Proofs.Changes

/-!
# Changes are a patch

The changes from one snapshot to another name each message that shows something else exactly once,
with what it showed and what it shows now.  Their replacement, carried out on any snapshot, brings
the changed messages up to date and touches no other message.
-/

namespace StatusBoard

variable {before after : Snapshot} {r : MessageRef}

/-! ### Carrying out a replacement -/

namespace Snapshot

/-- A snapshot after a replacement: some messages are forgotten, and then entries are shown. -/
def patch (s : Snapshot) (replacement : List MessageRef × Snapshot) : Snapshot :=
  replacement.2.entries.foldl (fun s e => s.insert e.1 e.2) (replacement.1.foldl erase s)

theorem get?_foldl_erase (refs : List MessageRef) (s : Snapshot) (r : MessageRef) :
    (refs.foldl erase s).get? r = if r ∈ refs then none else s.get? r := by
  induction refs generalizing s with
  | nil => rfl
  | cons r' refs ih =>
    rw [List.foldl_cons, ih, get?_erase]
    by_cases hr : r = r' <;> simp [hr]

/-- Entries of a snapshot are shown over what was shown before. -/
theorem get?_foldl_entries (entries s : Snapshot) (r : MessageRef) :
    (entries.entries.foldl (fun s e => s.insert e.1 e.2) s).get? r =
      (entries.get? r).or (s.get? r) := by
  cases hentry : entries.get? r with
  | none =>
    have hnot : r ∉ entries.entries.map Prod.fst := by
      intro hmem
      have hsome : (entries.get? r).isSome := mem_refs.1 hmem
      rw [hentry] at hsome
      cases hsome
    rw [get?_foldl_insert_of_notMem hnot]
    rfl
  | some server =>
    have hmem : (r, server) ∈ entries.entries := Table.find?_eq_some_iff.1 hentry
    have hnodup : (entries.entries.map Prod.fst).Nodup := entries.table.nodup_keys
    rw [get?_foldl_insert_of_mem hnodup hmem, (isCanonical_of_get? hentry).canonical_eq]
    rfl

theorem get?_patch (s : Snapshot) (refs : List MessageRef) (entries : Snapshot) (r : MessageRef) :
    (s.patch (refs, entries)).get? r =
      (entries.get? r).or (if r ∈ refs then none else s.get? r) := by
  rw [patch, get?_foldl_entries, get?_foldl_erase]

end Snapshot

/-! ### The changes between two snapshots -/

/-- What the kind of a change says about the servers before and after it. -/
def ChangeKind.Fits (before after : Option Server) : ChangeKind → Prop
  | new => before = none ∧ after.isSome
  | changed => before.isSome ∧ after.isSome
  | offline => before.isSome ∧ after = none

/-- A list of changes tells what is different between two snapshots: each message that shows
something else stands in it once, ascending, with what it showed and what it shows now. -/
structure Changes.Tell (before after : Snapshot) (l : List Change) : Prop where
  ascending : Strict (refs l)
  mem_refs : ∀ r, r ∈ refs l ↔ before.get? r ≠ after.get? r
  before_eq : ∀ c ∈ l, c.before = before.get? c.ref
  after_eq : ∀ c ∈ l, c.after = after.get? c.ref
  mentions : ∀ c ∈ l, c.mentions = []
  kind_fits : ∀ c ∈ l, c.kind.Fits (before.get? c.ref) (after.get? c.ref)
  total : count l .new + count l .changed + count l .offline = l.length
  addresses_ascending : Strict (addresses l)
  /-- The addresses of the new and the changed servers. -/
  mem_addresses : ∀ a, a ∈ addresses l ↔
    ∃ r server, before.get? r ≠ after.get? r ∧ after.get? r = some server ∧ server.address = a

theorem mem_changes {c : Change} : c ∈ before.changes after ↔
    before.get? c.ref ≠ after.get? c.ref ∧ c = before.change after c.ref := by
  rw [changes_eq, List.mem_map]
  constructor
  · rintro ⟨r, hr, rfl⟩
    exact ⟨mem_changedRefs.1 hr, rfl⟩
  · rintro ⟨hne, hc⟩
    exact ⟨c.ref, mem_changedRefs.2 hne, hc.symm⟩

theorem kind_change_fits (hne : before.get? r ≠ after.get? r) :
    (before.change after r).kind.Fits (before.get? r) (after.get? r) := by
  unfold Change.kind Snapshot.change
  cases hafter : after.get? r with
  | some new => cases before.get? r <;> exact ⟨rfl, rfl⟩
  | none =>
    cases hbefore : before.get? r with
    | some old => exact ⟨rfl, rfl⟩
    | none => exact absurd (hbefore.trans hafter.symm) hne

theorem tell_changes (before after : Snapshot) :
    Changes.Tell before after (before.changes after) where
  ascending := refs_changes ▸ strict_changedRefs before after
  mem_refs r := by rw [refs_changes, mem_changedRefs]
  before_eq c hc := congrArg Change.before (mem_changes.1 hc).2
  after_eq c hc := congrArg Change.after (mem_changes.1 hc).2
  mentions c hc := congrArg Change.mentions (mem_changes.1 hc).2
  kind_fits c hc := by
    obtain ⟨hne, hc⟩ := mem_changes.1 hc
    rw [congrArg Change.kind hc]
    exact kind_change_fits hne
  total := count_kinds _
  addresses_ascending := ascending_strict _
  mem_addresses a := by
    rw [Changes.addresses, mem_ascending, changes_eq, List.filterMap_map, List.mem_filterMap]
    constructor
    · rintro ⟨r, hr, ha⟩
      obtain ⟨server, hserver, ha⟩ := Option.map_eq_some_iff.1 ha
      exact ⟨r, server, mem_changedRefs.1 hr, hserver, ha⟩
    · rintro ⟨r, server, hne, hserver, ha⟩
      refine ⟨r, mem_changedRefs.2 hne, ?_⟩
      rw [Function.comp_apply, Snapshot.change, hserver, Option.map_some, ha]

theorem get?_patch_changes (s : Snapshot) (r : MessageRef) :
    (s.patch (Changes.replacement (before.changes after))).get? r =
      if before.get? r = after.get? r then s.get? r else after.get? r := by
  rw [Changes.replacement, Snapshot.get?_patch, refs_changes, get?_current_changes]
  by_cases heq : before.get? r = after.get? r <;> simp [mem_changedRefs, heq]

theorem changes_eq_nil_iff : before.changes after = [] ↔ before = after :=
  ⟨fun h => Snapshot.ext_get? (get?_eq_of_changes_eq_nil h), fun h => changes_eq_nil (by simp [h])⟩

/-- Without changes nothing is written, and otherwise there is one write. -/
theorem commit_run (l : List Change) : (Cycle.commit l).run =
    if l = [] then .done (.ok false)
    else .transact (Store.replace (Changes.refs l) (Changes.current l)) fun result =>
      .done (result.map fun _ => true) := by
  cases l with
  | nil => rfl
  | cons c l =>
    refine congrArg (Procedure.transact _) (funext fun result => ?_)
    cases result <;> rfl

/-- The changes between two snapshots tell exactly what is different.  Their replacement brings the
changed messages of any snapshot up to date and leaves its other messages alone, and so it makes the
first snapshot into the second one.  There are no changes exactly if the snapshots are equal, and
then nothing is written. -/
theorem changes_are_patch (before after : Snapshot) :
    let l := before.changes after
    Changes.Tell before after l ∧
      (∀ (s : Snapshot) r, (s.patch (Changes.replacement l)).get? r =
        if before.get? r = after.get? r then s.get? r else after.get? r) ∧
      before.patch (Changes.replacement l) = after ∧
      (l = [] ↔ before = after) ∧
      (Cycle.commit l).run = if before = after then .done (.ok false)
        else .transact (Store.replace (Changes.replacement l).1 (Changes.replacement l).2)
          fun result => .done (result.map fun _ => true) := by
  refine ⟨tell_changes before after, get?_patch_changes, ?_, changes_eq_nil_iff, ?_⟩
  · refine Snapshot.ext_get? fun r => ?_
    rw [get?_patch_changes]
    split
    · assumption
    · rfl
  · rw [commit_run]
    simp only [changes_eq_nil_iff, Changes.replacement]

end StatusBoard
