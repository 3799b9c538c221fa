import StatusBoard.MasterList.Sighting
import StatusBoard.Mentions

/-!
# What changes between two snapshots

The changes from one snapshot to another are about the messages that show something else there, in
ascending order, and nothing but the current server of each is stored.
-/

namespace StatusBoard

variable {before after : Snapshot} {r : MessageRef} {server : Server}

/-! ### The changed messages -/

/-- The messages that show something else in the second snapshot, ascending. -/
def Snapshot.changedRefs (before after : Snapshot) : List MessageRef :=
  (ascending (before.refs ++ after.refs)).filter fun r => before.get? r ≠ after.get? r

/-- The change of a message. -/
def Snapshot.change (before after : Snapshot) (r : MessageRef) : Change :=
  { ref := r, before := before.get? r, after := after.get? r }

theorem Snapshot.mem_refs {s : Snapshot} : r ∈ s.refs ↔ (s.get? r).isSome := Table.mem_keys

theorem mem_changedRefs : r ∈ before.changedRefs after ↔ before.get? r ≠ after.get? r := by
  rw [Snapshot.changedRefs, List.mem_filter, mem_ascending, List.mem_append, decide_eq_true_iff]
  constructor
  · intro h
    exact h.2
  · intro hne
    refine ⟨?_, hne⟩
    rw [Snapshot.mem_refs, Snapshot.mem_refs]
    cases hbefore : before.get? r with
    | some old => exact .inl rfl
    | none =>
      cases hafter : after.get? r with
      | some new => exact .inr rfl
      | none =>
        rw [hbefore, hafter] at hne
        exact absurd rfl hne

/-- If nothing was shown before, everything that is shown now has changed. -/
theorem mem_changedRefs_of_unshown (h : ∀ r, before.get? r = none) :
    r ∈ before.changedRefs after ↔ ∃ server, after.get? r = some server := by
  rw [mem_changedRefs, h, ne_comm, Option.ne_none_iff_exists']

theorem strict_changedRefs (before after : Snapshot) : Strict (before.changedRefs after) :=
  (ascending_strict _).sublist List.filter_sublist

theorem Strict.nodup {α : Type} [Ord α] [Std.ReflOrd α] {l : List α} (h : Strict l) : l.Nodup := by
  refine h.imp fun {a b} hlt heq => ?_
  subst heq
  rw [Std.ReflOrd.compare_self] at hlt
  cases hlt

theorem changes_eq (before after : Snapshot) :
    before.changes after = (before.changedRefs after).map (before.change after) := by
  have hchangeAt (r : MessageRef) : before.changeAt? after r =
      if before.get? r ≠ after.get? r then some (before.change after r) else none := by
    rw [Snapshot.changeAt?]
    by_cases h : before.get? r = after.get? r <;> simp [h, Snapshot.change]
  rw [Snapshot.changes, Snapshot.changedRefs]
  induction ascending (before.refs ++ after.refs) with
  | nil => rfl
  | cons r rest ih =>
    rw [List.filterMap_cons, hchangeAt, List.filter_cons]
    by_cases h : before.get? r = after.get? r
    · simp [h, ih]
    · simp [h, ih]

/-- Without changes both snapshots show the same. -/
theorem get?_eq_of_changes_eq_nil (h : before.changes after = []) (r : MessageRef) :
    before.get? r = after.get? r := by
  refine Decidable.byContradiction fun hne => ?_
  have hmem : r ∈ before.changedRefs after := mem_changedRefs.2 hne
  rw [changes_eq, List.map_eq_nil_iff] at h
  rw [h] at hmem
  cases hmem

/-- Where both snapshots show the same, there are no changes. -/
theorem changes_eq_nil (h : ∀ r, before.get? r = after.get? r) : before.changes after = [] := by
  rw [changes_eq, List.map_eq_nil_iff, List.eq_nil_iff_forall_not_mem]
  exact fun r hr => mem_changedRefs.1 hr (h r)

/-- Each change is of one kind. -/
theorem count_kinds (l : List Change) :
    Changes.count l .new + Changes.count l .changed + Changes.count l .offline = l.length := by
  induction l with
  | nil => rfl
  | cons c l ih =>
    unfold Changes.count at ih ⊢
    rw [List.filter_cons, List.filter_cons, List.filter_cons, List.length_cons]
    cases hkind : c.kind
    all_goals
      simp only [reduceCtorEq, decide_true, decide_false, if_true, if_false, Bool.false_eq_true,
        List.length_cons]
      omega

/-! ### What is stored -/

/-- Mentions are not stored. -/
theorem refs_withMentions (subscriptions : List Subscription) (l : List Change) :
    Changes.refs (l.map (Change.withMentions subscriptions)) = Changes.refs l := by
  rw [Changes.refs, List.map_map]
  rfl

theorem current_withMentions (subscriptions : List Subscription) (l : List Change) :
    Changes.current (l.map (Change.withMentions subscriptions)) = Changes.current l := by
  rw [Changes.current, List.filterMap_map]
  rfl

theorem refs_changes : Changes.refs (before.changes after) = before.changedRefs after := by
  rw [changes_eq, Changes.refs, List.map_map]
  exact List.map_id _

/-- Each changed message is stored with its current server. -/
theorem get?_current_changes (r : MessageRef) :
    (Changes.current (before.changes after)).get? r =
      if before.get? r = after.get? r then none else after.get? r := by
  have hentries : (before.changes after).filterMap (fun c => c.after.map (c.ref, ·)) =
      (before.changedRefs after).filterMap fun r => (after.get? r).map (r, ·) := by
    rw [changes_eq, List.filterMap_map]
    rfl
  have hrefs : (((before.changedRefs after).filterMap fun r =>
      (after.get? r).map (r, ·)).map Prod.fst).Sublist (before.changedRefs after) := by
    have hsub := Snapshot.sublist_map_filterMap (f := fun r => (after.get? r).map (r, ·)) (g := id)
      (fun r e he => by obtain ⟨server, -, rfl⟩ := Option.map_eq_some_iff.1 he; rfl)
      (before.changedRefs after)
    rwa [List.map_id] at hsub
  rw [Changes.current, hentries]
  split
  · next heq =>
    apply Snapshot.get?_ofList_of_notMem
    intro hmem
    exact absurd heq (mem_changedRefs.1 (hrefs.subset hmem))
  · next hne =>
    cases hafter : after.get? r with
    | none =>
      apply Snapshot.get?_ofList_of_notMem
      intro hmem
      obtain ⟨e, he, rfl⟩ := List.mem_map.1 hmem
      obtain ⟨r', -, he⟩ := List.mem_filterMap.1 he
      obtain ⟨server, hserver, rfl⟩ := Option.map_eq_some_iff.1 he
      rw [hserver] at hafter
      cases hafter
    | some server =>
      have hmem : (r, server) ∈ (before.changedRefs after).filterMap fun r =>
          (after.get? r).map (r, ·) :=
        List.mem_filterMap.2 ⟨r, mem_changedRefs.2 hne, by rw [hafter]; rfl⟩
      have hcanonical := (Snapshot.isCanonical_of_get? hafter).canonical_eq
      rw [Snapshot.get?_ofList_of_mem (hrefs.nodup (strict_changedRefs _ _).nodup) hmem, hcanonical]

/-! ### The current snapshot -/

namespace MasterList

variable {l : List ListEntry} {trackings : List Tracking}

theorem mem_sightings {x : Sighting} (h : x ∈ sightings l) : ∃ e ∈ l, x.info = e.info := by
  obtain ⟨e, he, hx⟩ := List.mem_flatMap.1 h
  obtain ⟨raw, -, hx⟩ := List.mem_filterMap.1 hx
  obtain ⟨found, -, rfl⟩ := Option.map_eq_some_iff.1 hx
  exact ⟨e, he, rfl⟩

/-- A server has the clients of an entry, in display order. -/
theorem clients_of_serverAt? {a : String} (h : serverAt? (sightings l) a = some server) :
    ∃ e ∈ l, server.clients.Perm e.info.clients := by
  rw [serverAt?] at h
  split at h
  · cases h
  · next first rest hfilter =>
    have hfirst : first ∈ (sightings l).filter (·.address = a) := hfilter ▸ List.mem_cons_self
    obtain ⟨e, he, hinfo⟩ := mem_sightings (List.mem_filter.1 hfirst).1
    rw [Option.some.injEq] at h
    subst h
    refine ⟨e, he, ?_⟩
    rw [← hinfo]
    exact List.mergeSort_perm _ _

/-- Only tracked messages show a server of the list, with the clients of an entry. -/
theorem of_get?_snapshot (h : (snapshot l trackings).get? r = some server) :
    r ∈ trackings.map Tracking.ref ∧ ∃ e ∈ l, server.clients.Perm e.info.clients := by
  obtain ⟨raw, hmem, rfl⟩ := Snapshot.mem_of_get?_ofList h
  obtain ⟨t, ht, hraw⟩ := List.mem_filterMap.1 hmem
  obtain ⟨server, hserver, heq⟩ := Option.map_eq_some_iff.1 hraw
  cases heq
  obtain ⟨e, he, hclients⟩ := clients_of_serverAt? hserver
  exact ⟨List.mem_map_of_mem ht, e, he, (List.mergeSort_perm _ _).trans hclients⟩

end MasterList

end StatusBoard
