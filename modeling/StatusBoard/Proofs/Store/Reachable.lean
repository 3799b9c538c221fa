import StatusBoard.Proofs.Session
import StatusBoard.Proofs.Store.Replace

/-!
# Reachable stores

A store is reachable if writes and occasions lead to it from the empty store, whatever the chat
platform and the master list answer meanwhile.  Every reachable store is sound
(`Store.Reachable.sound`), and so its tables are consistent as they stand, everything in it can be
read, and it behaves like a map from messages to servers.
-/

namespace StatusBoard.Store

/-! ### Writes and occasions -/

/-- A single write to the store. -/
inductive Write
  | ensureChannel (c : ChannelRef)
  | removeChannel (c : ChannelRef)
  | track (t : Tracking)
  | untrack (r : MessageRef)
  | setThreshold (r : MessageRef) (user : UInt64) (t : Threshold)
  | removeSubscription (r : MessageRef) (user : UInt64) (t : Threshold)
  | replace (refs : List MessageRef) (entries : Snapshot)

/-- The store after a write, which may succeed or fail. -/
def Write.apply (s : Store) : Write → Store
  | ensureChannel c => ((Store.ensureChannel c).attempt s).2
  | removeChannel c => ((Store.removeChannel c).attempt s).2
  | track t => ((Store.track t).attempt s).2
  | untrack r => ((Store.untrack r).attempt s).2
  | setThreshold r user t => ((Store.setThreshold r user t).attempt s).2
  | removeSubscription r user t => ((Store.removeSubscription r user t).attempt s).2
  | replace refs entries => ((Store.replace refs entries).attempt s).2

/-- The stores to which writes and occasions lead. -/
inductive Reachable : Store → Prop
  | fresh : Reachable {}
  | write {s : Store} (w : Write) : Reachable s → Reachable (w.apply s)
  | perform {s : Store} (o : Occasion) (chat : Platform) (log : List Exchange)
    (polls : Nat → PollAnswer) :
    Reachable s → Reachable (Session.perform chat o.procedure ⟨s, log, polls⟩).2.store

variable {s : Store}

theorem listSubscriptions_reads {s' : Store} {refs : List MessageRef} {found : List Subscription}
    (h : (listSubscriptions refs).run s = .ok (found, s')) : s' = s := by
  rw [listSubscriptions_run] at h
  cases hread : (s.subscriptions.rows.filter fun row =>
      row.1.owner ∈ refs.map MessageRef.key).mapM subscriptionOfRow with
  | error e =>
    rw [hread] at h
    cases h
  | ok subscriptions =>
    rw [hread] at h
    cases h
    rfl

/-- Every transaction of the board leaves a sound store sound. -/
theorem Access.keeps {γ : Type} {t : Transaction γ} (h : Access γ t) : t.Keeps Sound := by
  cases h with
  | removeChannel c => exact removeChannel_keeps c
  | track t => exact track_keeps t
  | untrack r => exact untrack_keeps r
  | setThreshold r user t => exact setThreshold_keeps r user t
  | removeSubscription r user t => exact removeSubscription_keeps r user t
  | replace refs entries => exact replace_keeps refs entries
  | listTrackings =>
    intro s _ s' hs h
    cases h
    exact hs
  | listChannelTrackings c =>
    intro s _ s' hs h
    cases h
    exact hs
  | listSubscriptions refs =>
    intro s _ s' hs h
    rwa [listSubscriptions_reads h]
  | load =>
    intro s _ s' hs h
    rwa [load_reads h]

theorem Write.sound_apply (hs : s.Sound) (w : Write) : (w.apply s).Sound := by
  cases w with
  | ensureChannel c => exact (ensureChannel_keeps c).attempt hs
  | removeChannel c => exact (removeChannel_keeps c).attempt hs
  | track t => exact (track_keeps t).attempt hs
  | untrack r => exact (untrack_keeps r).attempt hs
  | setThreshold r user t => exact (setThreshold_keeps r user t).attempt hs
  | removeSubscription r user t => exact (removeSubscription_keeps r user t).attempt hs
  | replace refs entries => exact (replace_keeps refs entries).attempt hs

theorem Reachable.sound (h : Reachable s) : s.Sound := by
  induction h with
  | fresh => exact sound_empty
  | write w _ ih => exact w.sound_apply ih
  | perform o chat log polls _ ih =>
    exact Session.perform_keeps chat ((Procedure.only_occasion o).imp fun _ _ => Access.keeps) ih

/-! ### Consistency -/

/-- What every row of the store satisfies, and that the rows can be read. -/
structure Consistent (s : Store) : Prop where
  channel_of_tracking : ∀ row ∈ s.trackings.rows, s.channels.contains row.1.inChannel
  tracking_of_announced : ∀ row ∈ s.announced.rows, s.trackings.contains row.1
  tracking_of_subscription : ∀ row ∈ s.subscriptions.rows, s.trackings.contains row.1.owner
  announced_of_client : ∀ row ∈ s.clients.rows, s.announced.contains row.1.owner
  /-- The clients of an announced message are numbered from zero in display order.  In the order of
  the rows negative positions would come first. -/
  clients_numbered : ∀ row ∈ s.announced.rows, ∃ clients : List Client,
    clients.Pairwise (fun a b => Client.mayPrecede (.ofText row.2.scoring) a b) ∧
    (s.clients.rows.filter fun part => part.1.owner = row.1).Perm (clientRows row.1 clients) ∧
    (clients.length ≤ 2 ^ 63 →
      (s.clients.rows.filter fun part => part.1.owner = row.1) = clientRows row.1 clients)
  nodup_trackings : (s.trackings.rows.map fun row => row.1.toRef).Nodup
  nodup_announced : (s.announced.rows.map fun row => row.1.toRef).Nodup
  nodup_subscriptions :
    (s.subscriptions.rows.map fun row => (row.1.owner.toRef, row.1.part.toUInt64)).Nodup
  threshold_in_range : ∀ row ∈ s.subscriptions.rows, 1 ≤ row.2.toInt ∧ row.2.toInt ≤ 10
  load_succeeds : ∃ snapshot, load.run s = .ok (snapshot, s)
  listSubscriptions_succeeds : ∀ refs, ∃ found, (listSubscriptions refs).run s = .ok (found, s)

theorem toInt_threshold (t : Threshold) : (Int64.ofNat t.clients).toInt = t.clients := by
  have hle := t.le_ten
  exact Int64.toInt_ofNat_of_lt (by omega)

/-- A stored threshold is read back. -/
theorem thresholdOfRow?_ofNat (t : Threshold) :
    thresholdOfRow? (Int64.ofNat t.clients) = some t := by
  have hone := t.one_le
  have hle := t.le_ten
  rw [thresholdOfRow?, toInt_threshold, Threshold.ofInt?, if_neg (by omega), Threshold.ofNat?]
  simp [hone, hle]

/-- The threshold at which a user is subscribed to a message. -/
def threshold? (s : Store) (r : MessageRef) (user : UInt64) : Option Threshold :=
  (s.subscriptions.find? (r.partKey user.toInt64)).bind thresholdOfRow?

/-- Reading succeeds for a list if it does for each member, and gives what the members give. -/
theorem mapM_of_forall_ok {α β ε : Type} {f : α → Except ε β} {l : List α}
    (h : ∀ a ∈ l, ∃ b, f a = .ok b) :
    ∃ bs, l.mapM f = .ok bs ∧ ∀ b, b ∈ bs ↔ ∃ a ∈ l, f a = .ok b := by
  induction l with
  | nil => exact ⟨[], rfl, by simp⟩
  | cons a l ih =>
    rw [List.forall_mem_cons] at h
    obtain ⟨b, hb⟩ := h.1
    obtain ⟨bs, hbs, hmem⟩ := ih h.2
    refine ⟨b :: bs, ?_, fun b' => ?_⟩
    · rw [List.mapM_cons, hb, hbs]
      rfl
    · rw [List.mem_cons, List.exists_mem_cons_iff, hmem, hb, Except.ok.injEq, eq_comm]

namespace Sound

theorem clients_numbered (hs : s.Sound) {k : MessageKey} {a : Announced}
    (ha : (k, a) ∈ s.announced.rows) : ∃ clients : List Client,
      clients.Pairwise (fun a' b => Client.mayPrecede (.ofText a.scoring) a' b) ∧
      (s.clients.rows.filter fun part => part.1.owner = k).Perm (clientRows k clients) ∧
      (clients.length ≤ 2 ^ 63 →
        (s.clients.rows.filter fun part => part.1.owner = k) = clientRows k clients) := by
  obtain ⟨server, hcanonical, hrow, hclients⟩ :=
    hs.server_of_announced k.toRef a (Table.find?_eq_some_iff.2 ha)
  have hscoring : Scoring.ofText a.scoring = server.scoring := by
    rw [hrow]
    exact Scoring.ofText_text _
  refine ⟨server.clients, ?_, hclients.rows_perm, fun hlen => ?_⟩
  · rw [hscoring]
    exact hcanonical.clients
  · have hrows := (s.clients.filter fun part _ => part.owner = k).ascending
    exact Table.rows_ext hrows (ascending_clientRows k hlen) hclients.mem_rows

theorem subscriptionOfRow_ok (hs : s.Sound) {row : PartKey × Int64}
    (hrow : row ∈ s.subscriptions.rows) : ∃ t : Threshold, row.2 = Int64.ofNat t.clients ∧
      subscriptionOfRow row = .ok ⟨row.1.owner.toRef, row.1.part.toUInt64, t⟩ := by
  obtain ⟨t, ht⟩ := hs.threshold_of_subscription row.1 row.2 (Table.find?_eq_some_iff.2 hrow)
  refine ⟨t, ht, ?_⟩
  rw [subscriptionOfRow, ht, thresholdOfRow?_ofNat]

theorem threshold?_eq_some_iff (hs : s.Sound) {r : MessageRef} {user : UInt64} {t : Threshold} :
    s.threshold? r user = some t ↔
      s.subscriptions.find? (r.partKey user.toInt64) = some (Int64.ofNat t.clients) := by
  rw [threshold?]
  constructor
  · intro h
    obtain ⟨n, hn, hread⟩ := Option.bind_eq_some_iff.1 h
    obtain ⟨t', rfl⟩ := hs.threshold_of_subscription _ n hn
    rw [thresholdOfRow?_ofNat, Option.some.injEq] at hread
    rw [hn, hread]
  · intro h
    rw [h, Option.bind_some, thresholdOfRow?_ofNat]

/-- The subscriptions to some messages can be read. -/
theorem listSubscriptions_run (hs : s.Sound) (refs : List MessageRef) :
    ∃ found, (listSubscriptions refs).run s = .ok (found, s) ∧
      ∀ r user t, ⟨r, user, t⟩ ∈ found ↔ r ∈ refs ∧ s.threshold? r user = some t := by
  obtain ⟨found, hfound, hmem⟩ := mapM_of_forall_ok (f := subscriptionOfRow)
    (l := s.subscriptions.rows.filter fun row => row.1.owner ∈ refs.map MessageRef.key)
    fun row hrow => by
      obtain ⟨t, -, hread⟩ := hs.subscriptionOfRow_ok (List.mem_of_mem_filter hrow)
      exact ⟨_, hread⟩
  refine ⟨found, ?_, fun r user t => ?_⟩
  · rw [Store.listSubscriptions_run, hfound]
    rfl
  rw [hmem, hs.threshold?_eq_some_iff, Table.find?_eq_some_iff]
  constructor
  · rintro ⟨row, hrow, hread⟩
    obtain ⟨hrow, howner⟩ := List.mem_filter.1 hrow
    obtain ⟨t', hthreshold, hread'⟩ := hs.subscriptionOfRow_ok hrow
    rw [hread'] at hread
    cases hread
    obtain ⟨r, hr, hkey⟩ := List.mem_map.1 (of_decide_eq_true howner)
    rw [← hkey, ← hthreshold]
    exact ⟨hr, hkey ▸ hrow⟩
  · rintro ⟨hr, hrow⟩
    refine ⟨_, List.mem_filter.2 ⟨hrow, ?_⟩, ?_⟩
    · exact decide_eq_true (List.mem_map_of_mem hr)
    · rw [subscriptionOfRow, thresholdOfRow?_ofNat]
      rfl

theorem consistent (hs : s.Sound) : s.Consistent where
  channel_of_tracking row hrow := hs.channel_of_tracking _ (Table.contains_iff.2 ⟨_, hrow⟩)
  tracking_of_announced row hrow := hs.tracking_of_announced _ (Table.contains_iff.2 ⟨_, hrow⟩)
  tracking_of_subscription row hrow :=
    hs.tracking_of_subscription _ (Table.contains_iff.2 ⟨_, hrow⟩)
  announced_of_client row hrow := hs.announced_of_client _ (Table.contains_iff.2 ⟨_, hrow⟩)
  clients_numbered _ hrow := hs.clients_numbered hrow
  nodup_trackings := nodup_map_toRef s.trackings
  nodup_announced := nodup_map_toRef s.announced
  nodup_subscriptions := by
    have hkeys := s.subscriptions.nodup_keys
    rw [Table.keys, List.Nodup, List.pairwise_map] at hkeys
    rw [List.Nodup, List.pairwise_map]
    refine hkeys.imp fun {row row'} hne heq => hne ?_
    exact congrArg (fun e : MessageRef × UInt64 => e.1.partKey e.2.toInt64) heq
  threshold_in_range row hrow := by
    obtain ⟨t, ht, -⟩ := hs.subscriptionOfRow_ok hrow
    have hone := t.one_le
    have hle := t.le_ten
    rw [ht, toInt_threshold]
    omega
  load_succeeds := by
    obtain ⟨snapshot, hload, -⟩ := hs.load_run
    exact ⟨snapshot, hload⟩
  listSubscriptions_succeeds refs := by
    obtain ⟨found, hfound, -⟩ := hs.listSubscriptions_run refs
    exact ⟨found, hfound⟩

end Sound

/-- Every reachable store is consistent: its rows have the rows above them, clients are numbered in
display order, keys stand for one message each, and everything can be read. -/
theorem reachable_consistent (h : Reachable s) : s.Consistent := h.sound.consistent

theorem reachable_consistent_announced :
    let r : MessageRef := ⟨1, 2, 0x8000000000000003⟩
    let server : Server := { (default : Server) with clients := [default] }
    let s := Write.apply (Write.apply (Write.apply {} (.track ⟨r, "1.2.3.4:8303"⟩))
      (.setThreshold r 7 ⟨10, by decide, by decide⟩))
      (.replace [r] (Snapshot.empty.insert r server))
    s.rowCounts = [1, 1, 1, 1, 1] ∧ s.Consistent :=
  ⟨by decide +kernel, reachable_consistent (.write _ (.write _ (.write _ .fresh)))⟩

/-! ### A map from messages to servers -/

/-- `replace` is one write to the map from messages to servers.  It fails exactly if a message that
it does not forget shows a server already, and then nothing is written.  Otherwise each tracked
message of the entries shows its server, every other message that was to be forgotten shows nothing,
and the rest is as before. -/
theorem replace_refines_map (h : Reachable s) (refs : List MessageRef) (entries : Snapshot)
    (hfit : ∀ r server, entries.get? r = some server → server.clients.length < 2 ^ 63) :
    ∃ before, load.run s = .ok (before, s) ∧
      ((∃ e, ((replace refs entries).attempt s).1 = .error e) ↔
        ∃ r, entries.contains r ∧ r ∉ refs ∧ before.contains r) ∧
      (∀ e s', (replace refs entries).attempt s = (.error e, s') → s' = s) ∧
      (∀ s', (replace refs entries).attempt s = (.ok (), s') →
        SameTrackings s s' ∧ ∃ after, load.run s' = .ok (after, s') ∧ ∀ r, after.get? r =
          if entries.contains r then if s.tracks r then entries.get? r else none
          else if r ∈ refs then none else before.get? r) := by
  have hs := h.sound
  obtain ⟨before, hbefore, hget⟩ := hs.load_run
  have hmem (r : MessageRef) : r ∈ entries.refs ↔ entries.contains r := Table.mem_keys
  have hcontains (r : MessageRef) : before.contains r = (s.shown? r).isSome :=
    congrArg Option.isSome (hget r)
  have hroom (r : MessageRef) (server : Server) (hr : entries.get? r = some server) :
      server.clients.length ≤ 2 ^ 64 := by
    have hlt := hfit r server hr
    omega
  refine ⟨before, hbefore, ?_⟩
  rcases hs.replace_run refs hroom with
    ⟨⟨r, hr, hnotin, hshown⟩, herror⟩ | ⟨hnone, s', hok, hsound, hsame, hshown⟩
  · rw [Transaction.attempt_of_error herror]
    refine ⟨iff_of_true ⟨_, rfl⟩ ⟨r, (hmem r).1 hr, hnotin, (hcontains r).trans hshown⟩, ?_, ?_⟩
    · rintro e s' heq
      exact (congrArg Prod.snd heq).symm
    · rintro s' heq
      cases heq
  · rw [Transaction.attempt_of_ok hok]
    refine ⟨iff_of_false ?_ ?_, ?_, ?_⟩
    · rintro ⟨e, heq⟩
      cases heq
    · rintro ⟨r, hr, hnotin, hbefore⟩
      rw [hcontains, hnone r ((hmem r).2 hr) hnotin] at hbefore
      cases hbefore
    · rintro e s' heq
      cases heq
    · rintro s' heq
      cases heq
      obtain ⟨after, hafter, hget'⟩ := hsound.load_run
      refine ⟨hsame, after, hafter, fun r => ?_⟩
      have hentries : entries.contains r = (entries.get? r).isSome := rfl
      rw [hget', hshown, hget, hentries]
      by_cases htracks : s.tracks r
      · cases entries.get? r <;> simp [htracks]
      · cases entries.get? r <;> simp [htracks, hs.shown?_eq_none htracks]

/-- A server with a map of more than `2 ^ 63` bytes comes back as it was stored. -/
theorem replace_refines_map_one :
    let r : MessageRef := ⟨1, 2, 0x8000000000000003⟩
    let server : Server := { (default : Server) with
      map := ⟨"", some "", some 0xFFFFFFFFFFFFFFFF⟩, clients := [default] }
    ∃ s' after, (replace [r] (Snapshot.empty.insert r server)).attempt
        (Write.apply {} (.track ⟨r, "1.2.3.4:8303"⟩)) = (.ok (), s') ∧
      load.run s' = .ok (after, s') ∧ after.get? r = some server.canonical := by
  intro r server
  have hget (r' : MessageRef) : (Snapshot.empty.insert r server).get? r' =
      if r' = r then some server.canonical else none := Snapshot.get?_insert _ _ _ _
  have hfit (r' : MessageRef) (server' : Server)
      (h : (Snapshot.empty.insert r server).get? r' = some server') :
      server'.clients.length < 2 ^ 63 := by
    rw [hget] at h
    split at h
    · cases h
      have hlen : server.canonical.clients.length = 1 := (List.mergeSort_perm _ _).length_eq
      rw [hlen]
      decide
    · cases h
  obtain ⟨before, -, hfail, -, hok⟩ := replace_refines_map
    (.write (.track ⟨r, "1.2.3.4:8303"⟩) .fresh) [r] (Snapshot.empty.insert r server) hfit
  cases hrun : (replace [r] (Snapshot.empty.insert r server)).attempt
      (Write.apply {} (.track ⟨r, "1.2.3.4:8303"⟩)) with
  | mk result s' =>
    cases result with
    | error e =>
      obtain ⟨r', hentry, hne, -⟩ := hfail.1 ⟨e, congrArg Prod.fst hrun⟩
      have hentry : ((Snapshot.empty.insert r server).get? r').isSome := hentry
      rw [hget, if_neg (by simpa using hne)] at hentry
      cases hentry
    | ok _ =>
      obtain ⟨-, after, hafter, hshown⟩ := hok s' hrun
      refine ⟨s', after, rfl, hafter, ?_⟩
      have hentry : (Snapshot.empty.insert r server).contains r := by
        rw [Snapshot.contains, Table.contains, ← Snapshot.get?, hget, if_pos rfl]
        rfl
      have htracks : (Write.apply {} (.track ⟨r, "1.2.3.4:8303"⟩)).tracks r := by decide +kernel
      rw [hshown, if_pos hentry, if_pos htracks, hget, if_pos rfl]

end StatusBoard.Store
