import StatusBoard.Proofs.Store.Footprint

/-!
# Writes that do not get in each other's way

Handlers, cycles and commands write to the store by short transactions and without a common lock.
Each write keeps to a footprint, and the footprints are apart for writes about different messages,
for a subscription and an exchange of servers, and for subscriptions of different users.  So such
writes can be exchanged (`Store.independent_writes_commute`).
-/

namespace StatusBoard

namespace Table

variable {κ α : Type} [Ord κ] [Std.LawfulEqOrd κ]

theorem find?_erase_self (t : Table κ α) (k : κ) : (t.erase k).find? k = none := by
  classical exact (find?_erase t k k).trans (if_pos rfl)

theorem find?_erase_of_ne (t : Table κ α) {k k' : κ} (h : k' ≠ k) :
    (t.erase k).find? k' = t.find? k' := by
  classical exact (find?_erase t k k').trans (if_neg h)

variable [Std.TransOrd κ]

theorem find?_insert_self (t : Table κ α) (k : κ) (a : α) : (t.insert k a).find? k = some a := by
  classical exact (find?_insert t k k a).trans (if_pos rfl)

theorem find?_insert_of_ne (t : Table κ α) {k k' : κ} (h : k' ≠ k) (a : α) :
    (t.insert k a).find? k' = t.find? k' := by
  classical exact (find?_insert t k k' a).trans (if_neg h)

end Table

namespace Store

open Transaction

/-! ### The footprints of the writes -/

/-- A tracking and its channel. -/
def trackFootprint (r : MessageRef) : Footprint where
  touches c := c = .tracking r.key
  changes c := c = .tracking r.key
  joins k := k = r.inChannel.key

/-- Every row about a message. -/
def untrackFootprint (r : MessageRef) : Footprint where
  touches c := c.owner = r.key
  changes c := c.owner = r.key
  joins _ := false

/-- The subscription of a user, which is there only with the tracking. -/
def subscriptionFootprint (r : MessageRef) (user : UInt64) : Footprint where
  touches c := c = .tracking r.key ∨ c = .subscription (r.partKey user.toInt64)
  changes c := c = .subscription (r.partKey user.toInt64)
  joins _ := false

/-- Whether a cell holds an announced server or one of its clients. -/
def Cell.isAnnounced : Cell → Prop
  | announced _ | client _ => True
  | tracking _ | subscription _ => False

/-- The announced servers of some messages, which are there only with the trackings. -/
def replaceFootprint (refs : List MessageRef) : Footprint where
  touches c := (c.isAnnounced ∨ c = .tracking c.owner) ∧ c.owner ∈ refs.map MessageRef.key
  changes c := c.isAnnounced ∧ c.owner ∈ refs.map MessageRef.key
  joins _ := false

variable {s s' : Store}

theorem Cell.Same.contains_tracking {k : MessageKey} (h : (Cell.tracking k).Same s s') :
    s.trackings.contains k = s'.trackings.contains k := congrArg Option.isSome h

theorem Cell.Same.contains_announced {k : MessageKey} (h : (Cell.announced k).Same s s') :
    s.announced.contains k = s'.announced.contains k := by
  have hsome := congrArg Option.isSome h
  rwa [Option.isSome_map, Option.isSome_map] at hsome

theorem Cell.Same.contains_client {k : PartKey} (h : (Cell.client k).Same s s') :
    s.clients.contains k = s'.clients.contains k := congrArg Option.isSome h

theorem track_within (t : Tracking) : (track t).Within (trackFootprint t.ref) := by
  refine ⟨fun _ hc => hc, ?_, ?_, ?_⟩
  · intro s a s' hrun c hc
    rw [track_run] at hrun
    split at hrun
    · cases hrun
    · cases hrun
      cases c with
      | tracking k =>
        have hne : k ≠ t.ref.key := fun heq => hc (congrArg Cell.tracking heq)
        exact (Table.find?_insert_of_ne _ hne _).symm
      | _ => rfl
  · intro s a s' hrun k
    rw [track_run] at hrun
    split at hrun
    · cases hrun
    · cases hrun
      rw [Table.contains_insert, Bool.or_comm]
      rfl
  · intro s s' hsame
    have htracked := (hsame (.tracking t.ref.key) rfl).contains_tracking
    rw [track_run, track_run, ← htracked]
    split
    · exact .error _
    · refine .ok () fun c hc => ?_
      cases hc
      exact (Table.find?_insert_self _ _ _).trans (Table.find?_insert_self _ _ _).symm

/-- A write to one subscription leaves the other cells alone. -/
theorem same_of_subscriptions {k : PartKey} {subscriptions : Table PartKey Int64}
    (h : ∀ k', k' ≠ k → subscriptions.find? k' = s.subscriptions.find? k') {c : Cell}
    (hc : c ≠ .subscription k) : c.Same s { s with subscriptions := subscriptions } := by
  cases c with
  | subscription k' =>
    have hne : k' ≠ k := fun heq => hc (congrArg Cell.subscription heq)
    exact (h k' hne).symm
  | _ => rfl

theorem setThreshold_within (r : MessageRef) (user : UInt64) (t : Threshold) :
    (setThreshold r user t).Within (subscriptionFootprint r user) := by
  refine ⟨fun _ hc => .inr hc, ?_, ?_, ?_⟩
  · intro s a s' hrun c hc
    rw [setThreshold_run] at hrun
    split at hrun
    · cases hrun
      exact same_of_subscriptions (fun k hk => Table.find?_insert_of_ne _ hk _) hc
    · cases hrun
  · intro s a s' hrun k
    rw [setThreshold_run] at hrun
    split at hrun
    · cases hrun
      exact (Bool.or_false _).symm
    · cases hrun
  · intro s s' hsame
    have htracking := hsame (.tracking r.key) (.inl rfl)
    have hrow : s.subscriptions.find? (r.partKey user.toInt64) = _ :=
      hsame (.subscription _) (.inr rfl)
    rw [setThreshold_run, setThreshold_run, ← htracking.contains_tracking, ← hrow]
    split
    · refine .ok _ fun c hc => ?_
      rcases hc with rfl | rfl
      · exact htracking
      · exact (Table.find?_insert_self _ _ _).trans (Table.find?_insert_self _ _ _).symm
    · exact .error _

theorem removeSubscription_within (r : MessageRef) (user : UInt64) (t : Threshold) :
    (removeSubscription r user t).Within (subscriptionFootprint r user) := by
  refine ⟨fun _ hc => .inr hc, ?_, ?_, ?_⟩
  · intro s a s' hrun c hc
    rw [removeSubscription_run] at hrun
    split at hrun
    · cases hrun
      exact same_of_subscriptions (fun k hk => Table.find?_erase_of_ne _ hk) hc
    · cases hrun
  · intro s a s' hrun k
    rw [removeSubscription_run] at hrun
    split at hrun
    · cases hrun
      exact (Bool.or_false _).symm
    · cases hrun
  · intro s s' hsame
    have htracking := hsame (.tracking r.key) (.inl rfl)
    have hrow : s.subscriptions.find? (r.partKey user.toInt64) = _ :=
      hsame (.subscription _) (.inr rfl)
    rw [removeSubscription_run, removeSubscription_run, ← hrow]
    split
    · refine .ok _ fun c hc => ?_
      rcases hc with rfl | rfl
      · exact htracking
      · exact (Table.find?_erase_self _ _).trans (Table.find?_erase_self _ _).symm
    · exact .error _

/-- Dropping a tracking leaves the rows about other messages alone. -/
theorem dropTrackings_frame (s : Store) {k : MessageKey} {c : Cell} (hc : c.owner ≠ k) :
    c.Same s (s.dropTrackings (· = k)) := by
  cases c with
  | tracking k' =>
    change k' ≠ k at hc
    simp [Cell.Same, dropTrackings, Table.find?_filter_key, hc]
  | announced k' =>
    change k' ≠ k at hc
    simp [Cell.Same, dropTrackings, Table.find?_filter_key, hc]
  | client k' =>
    change k'.owner ≠ k at hc
    simp [Cell.Same, dropTrackings, Table.find?_filter_key, hc]
  | subscription k' =>
    change k'.owner ≠ k at hc
    simp [Cell.Same, dropTrackings, Table.find?_filter_key, hc]

/-- Dropping a tracking leaves the same of the rows about its message wherever they are the same. -/
theorem dropTrackings_same {k : MessageKey} (h : s.trackings.contains k)
    (hsame : ∀ c : Cell, c.owner = k → c.Same s s') {c : Cell} (hc : c.owner = k) :
    c.Same (s.dropTrackings (· = k)) (s'.dropTrackings (· = k)) := by
  have h' : s'.trackings.contains k := (hsame (.tracking k) rfl).contains_tracking ▸ h
  have hannounced := (hsame (.announced k) rfl).contains_announced
  cases c with
  | tracking k' =>
    obtain rfl : k' = k := hc
    simp [Cell.Same, dropTrackings, Table.find?_filter_key, h, h']
  | announced k' =>
    obtain rfl : k' = k := hc
    have hnone {s : Store} (h : s.trackings.contains k') :
        (s.dropTrackings (· = k')).announced.find? k' = none := by
      by_cases hrow : s.announced.contains k'
      · simp [dropTrackings, Table.find?_filter_key, h, hrow]
      · have hfind : s.announced.find? k' = none := Option.not_isSome_iff_eq_none.1 hrow
        simp [dropTrackings, Table.find?_filter_key, hfind]
    rw [Cell.Same, hnone h, hnone h']
  | client k' =>
    have hc' : k'.owner = k := hc
    have hrow : s.clients.find? k' = s'.clients.find? k' := hsame (.client k') hc
    simp [Cell.Same, dropTrackings, Table.find?_filter_key, hc', h, h', hannounced, hrow]
  | subscription k' =>
    have hc' : k'.owner = k := hc
    simp [Cell.Same, dropTrackings, Table.find?_filter_key, hc', h, h']

theorem untrack_within (r : MessageRef) : (untrack r).Within (untrackFootprint r) := by
  refine ⟨fun _ hc => hc, ?_, ?_, ?_⟩
  · intro s a s' hrun c hc
    rw [untrack_run] at hrun
    split at hrun
    · cases hrun
      exact dropTrackings_frame s hc
    · cases hrun
  · intro s a s' hrun k
    rw [untrack_run] at hrun
    split at hrun
    · cases hrun
      exact (Bool.or_false _).symm
    · cases hrun
  · intro s s' hsame
    rw [untrack_run, untrack_run, ← (hsame (.tracking r.key) rfl).contains_tracking]
    split
    · next htracked => exact .ok () fun c hc => dropTrackings_same htracked hsame hc
    · exact .error _

/-! ### The footprint of an exchange -/

section Replace

variable {refs : List MessageRef} {r : MessageRef}

theorem touches_of_changes {c : Cell} (h : (replaceFootprint refs).changes c) :
    (replaceFootprint refs).touches c := ⟨.inl h.1, h.2⟩

theorem forget_frame (s : Store) (hr : r ∈ refs) {c : Cell}
    (hc : ¬ (replaceFootprint refs).changes c) : c.Same s (s.forget r) := by
  have hkey : r.key ∈ refs.map MessageRef.key := List.mem_map_of_mem hr
  cases c with
  | announced k =>
    have hne : k ≠ r.key := by
      rintro rfl
      exact hc ⟨trivial, hkey⟩
    rw [Cell.Same, announced_forget, if_neg hne]
  | client k =>
    have hne : k.owner ≠ r.key := by
      intro heq
      rw [← heq] at hkey
      exact hc ⟨trivial, hkey⟩
    rw [Cell.Same, clients_forget, if_neg hne]
  | _ => rfl

theorem forget_same (r : MessageRef) {c : Cell} (hc : c.Same s s') :
    c.Same (s.forget r) (s'.forget r) := by
  cases c with
  | announced k =>
    rw [Cell.Same, announced_forget, announced_forget]
    split
    · rfl
    · exact hc
  | client k =>
    rw [Cell.Same, clients_forget, clients_forget]
    split
    · rfl
    · exact hc
  | _ => exact hc

theorem storeClient_within (hr : r ∈ refs) (position : Int64) (client : Client) :
    (storeClient r position client).Within (replaceFootprint refs) := by
  have hkey : r.key ∈ refs.map MessageRef.key := List.mem_map_of_mem hr
  refine ⟨fun _ => touches_of_changes, ?_, ?_, ?_⟩
  · intro s a s' hrun c hc
    rw [storeClient_run] at hrun
    split at hrun
    · cases hrun
    · cases hrun
      cases c with
      | client k =>
        have hne : k ≠ r.partKey position := by
          rintro rfl
          exact hc ⟨trivial, hkey⟩
        exact (Table.find?_insert_of_ne _ hne _).symm
      | _ => rfl
  · intro s a s' hrun k
    rw [storeClient_run] at hrun
    split at hrun
    · cases hrun
    · cases hrun
      exact (Bool.or_false _).symm
  · intro s s' hsame
    have hrow := hsame (.client (r.partKey position)) ⟨.inl trivial, hkey⟩
    rw [storeClient_run, storeClient_run, ← hrow.contains_client]
    split
    · exact .error _
    · refine .ok () fun c hc => ?_
      cases c with
      | client k =>
        by_cases hk : k = r.partKey position
        · rw [hk]
          exact (Table.find?_insert_self _ _ _).trans (Table.find?_insert_self _ _ _).symm
        · have hother : s.clients.find? k = s'.clients.find? k := hsame (.client k) hc
          exact (Table.find?_insert_of_ne _ hk _).trans
            (hother.trans (Table.find?_insert_of_ne _ hk _).symm)
      | _ => exact hsame _ hc

/-- A row about a server, next to which its clients are going to be stored. -/
def announce (s : Store) (r : MessageRef) (server : Server) : Store :=
  { s with
    announced := s.announced.insert r.key (.ofServer server s.arrivals)
    arrivals := s.arrivals + 1 }

theorem announce_frame (s : Store) (hr : r ∈ refs) (server : Server) {c : Cell}
    (hc : ¬ (replaceFootprint refs).changes c) : c.Same s (s.announce r server) := by
  cases c with
  | announced k =>
    have hne : k ≠ r.key := by
      rintro rfl
      exact hc ⟨trivial, List.mem_map_of_mem hr⟩
    exact congrArg (Option.map _) (Table.find?_insert_of_ne _ hne _).symm
  | _ => rfl

/-- Rows with the same contents are stored, whatever their numbers. -/
theorem announce_same (r : MessageRef) (server : Server) {c : Cell} (hc : c.Same s s') :
    c.Same (s.announce r server) (s'.announce r server) := by
  cases c with
  | announced k =>
    have hrow (s : Store) : (s.announce r server).announced.find? k =
        if k = r.key then some (.ofServer server s.arrivals) else s.announced.find? k :=
      Table.find?_insert _ _ _ _
    rw [Cell.Same, hrow, hrow]
    split
    · rfl
    · exact hc
  | _ => exact hc

theorem storeClients_within (hr : r ∈ refs) (clients : List (Int64 × Client)) :
    (storeClients r clients).Within (replaceFootprint refs) :=
  .forM (fun _ => touches_of_changes) (fun _ => rfl) fun _ _ => storeClient_within hr _ _

theorem storeServer_within (hr : r ∈ refs) (server : Server) :
    (storeServer r server).Within (replaceFootprint refs) := by
  have hclients := storeClients_within hr (numbered server.clients)
  have hkey : r.key ∈ refs.map MessageRef.key := List.mem_map_of_mem hr
  refine ⟨fun _ => touches_of_changes, ?_, ?_, ?_⟩
  · intro s a s' hrun c hc
    rw [storeServer_run] at hrun
    split at hrun
    · split at hrun
      · cases hrun
      · exact (announce_frame s hr server hc).trans (hclients.frame hrun c hc)
    · cases hrun
      exact .refl s c
  · intro s a s' hrun k
    rw [storeServer_run] at hrun
    split at hrun
    · split at hrun
      · cases hrun
      · exact hclients.joins hrun k
    · cases hrun
      exact (Bool.or_false _).symm
  · intro s s' hsame
    have htracking := hsame (.tracking r.key) ⟨.inr rfl, hkey⟩
    have hannounced := hsame (.announced r.key) ⟨.inl trivial, hkey⟩
    rw [storeServer_run, storeServer_run, ← htracking.contains_tracking,
      ← hannounced.contains_announced]
    split
    · split
      · exact .error _
      · exact hclients.alike fun c hc => announce_same r server (hsame c hc)
    · exact .ok () hsame

theorem storeServers_within {l : List (MessageRef × Server)} (hl : ∀ e ∈ l, e.1 ∈ refs) :
    (storeServers l).Within (replaceFootprint refs) :=
  .forM (fun _ => touches_of_changes) (fun _ => rfl) fun e he => storeServer_within (hl e he) e.2

theorem forgetAll_frame (s : Store) {gone : List MessageRef} (hgone : ∀ r ∈ gone, r ∈ refs)
    {c : Cell} (hc : ¬ (replaceFootprint refs).changes c) :
    c.Same s (gone.foldl (fun s r => s.forget r) s) := by
  induction gone generalizing s with
  | nil => exact .refl s c
  | cons r gone ih =>
    rw [List.forall_mem_cons] at hgone
    exact (forget_frame s hgone.1 hc).trans (ih (s.forget r) hgone.2)

theorem forgetAll_same (gone : List MessageRef) {c : Cell} (hc : c.Same s s') :
    c.Same (gone.foldl (fun s r => s.forget r) s) (gone.foldl (fun s r => s.forget r) s') := by
  induction gone generalizing s s' with
  | nil => exact hc
  | cons r gone ih => exact ih (forget_same r hc)

theorem channels_forgetAll (s : Store) (gone : List MessageRef) :
    (gone.foldl (fun s r => s.forget r) s).channels = s.channels := by
  induction gone generalizing s with
  | nil => rfl
  | cons r gone ih => exact ih (s.forget r)

theorem replace_within (gone : List MessageRef) (entries : Snapshot) :
    (replace gone entries).Within (replaceFootprint (gone ++ entries.refs)) := by
  have hentries : (storeServers entries.entries).Within (replaceFootprint (gone ++ entries.refs)) :=
    storeServers_within fun e he => List.mem_append_right _ (List.mem_map_of_mem he)
  have hgone (r : MessageRef) (hr : r ∈ gone) : r ∈ gone ++ entries.refs :=
    List.mem_append_left _ hr
  refine ⟨fun _ => touches_of_changes, ?_, ?_, ?_⟩
  · intro s a s' hrun c hc
    exact (forgetAll_frame s hgone hc).trans (hentries.frame hrun c hc)
  · intro s a s' hrun k
    rw [hentries.joins hrun, channels_forgetAll]
  · intro s s' hsame
    exact hentries.alike fun c hc => forgetAll_same gone (hsame c hc)

end Replace

/-! ### Independent writes -/

namespace Write

/-- What a write gives.  Only setting a threshold gives something: the one it replaces. -/
def result (s : Store) : Write → Except StoreError (Option Threshold)
  | ensureChannel c => ((Store.ensureChannel c).attempt s).1.map fun _ => none
  | removeChannel c => ((Store.removeChannel c).attempt s).1.map fun _ => none
  | track t => ((Store.track t).attempt s).1.map fun _ => none
  | untrack r => ((Store.untrack r).attempt s).1.map fun _ => none
  | setThreshold r user t => ((Store.setThreshold r user t).attempt s).1
  | removeSubscription r user t =>
    ((Store.removeSubscription r user t).attempt s).1.map fun _ => none
  | replace refs entries => ((Store.replace refs entries).attempt s).1.map fun _ => none

/-- The messages that a write is about, if it is not about a channel. -/
def messages? : Write → Option (List MessageRef)
  | ensureChannel _ | removeChannel _ => none
  | track t => some [t.ref]
  | untrack r | setThreshold r _ _ | removeSubscription r _ _ => some [r]
  | replace refs entries => some (refs ++ entries.refs)

/-- The user of a write to a subscription. -/
def subscriber? : Write → Option UInt64
  | setThreshold _ user _ | removeSubscription _ user _ => some user
  | _ => none

/-- Two writes that do not get in each other's way: they are about different messages, one is about
a subscription and the other one exchanges servers, or they are about subscriptions of different
users. -/
inductive Independent : Write → Write → Prop
  | messages {w w' : Write} {refs refs' : List MessageRef} (h : w.messages? = some refs)
    (h' : w'.messages? = some refs') (hdisjoint : refs.Disjoint refs') : Independent w w'
  | users {w w' : Write} {user user' : UInt64} (h : w.subscriber? = some user)
    (h' : w'.subscriber? = some user') (hne : user ≠ user') : Independent w w'
  | subscription_replace {w : Write} {user : UInt64} (h : w.subscriber? = some user)
    (refs : List MessageRef) (entries : Snapshot) : Independent w (.replace refs entries)
  | replace_subscription {w : Write} {user : UInt64} (refs : List MessageRef) (entries : Snapshot)
    (h : w.subscriber? = some user) : Independent (.replace refs entries) w

/-- A write that is carried out by a transaction within a footprint. -/
def KeepsTo (w : Write) (f : Footprint) : Prop :=
  ∃ (α : Type) (t : Transaction α) (give : α → Option Threshold), t.Within f ∧
    ∀ s, w.apply s = (t.attempt s).2 ∧ w.result s = (t.attempt s).1.map give

variable {w w' : Write} {f f' : Footprint} {refs refs' : List MessageRef}

theorem KeepsTo.touched (h : w.KeepsTo f) : ∀ c, f.changes c → f.touches c := by
  obtain ⟨α, t, give, ht, -⟩ := h
  exact ht.touched

theorem KeepsTo.commute (h : w.KeepsTo f) (h' : w'.KeepsTo f') (hapart : f.Apart f') (s : Store) :
    w'.result (w.apply s) = w'.result s ∧ w.result (w'.apply s) = w.result s ∧
      SameRows (w'.apply (w.apply s)) (w.apply (w'.apply s)) := by
  obtain ⟨α, t, give, ht, hw⟩ := h
  obtain ⟨α', t', give', ht', hw'⟩ := h'
  obtain ⟨hresult', hresult, hrows⟩ := ht.commute ht' hapart s
  refine ⟨?_, ?_, ?_⟩
  · rw [(hw s).1, (hw' _).2, (hw' s).2, hresult']
  · rw [(hw' s).1, (hw _).2, (hw s).2, hresult]
  · rw [(hw s).1, (hw' s).1, (hw _).1, (hw' _).1]
    exact hrows

theorem keepsTo_subscription {user : UInt64} (h : w.subscriber? = some user) :
    ∃ r, w.messages? = some [r] ∧ w.KeepsTo (subscriptionFootprint r user) := by
  cases w with
  | setThreshold r user' t =>
    cases h
    refine ⟨r, rfl, _, _, id, setThreshold_within r user t, fun s => ⟨rfl, ?_⟩⟩
    exact (congrFun Except.map_id _).symm
  | removeSubscription r user' t =>
    cases h
    exact ⟨r, rfl, _, _, _, removeSubscription_within r user t, fun s => ⟨rfl, rfl⟩⟩
  | _ => cases h

theorem keepsTo_replace (refs : List MessageRef) (entries : Snapshot) :
    (replace refs entries).KeepsTo (replaceFootprint (refs ++ entries.refs)) :=
  ⟨_, _, _, replace_within refs entries, fun _ => ⟨rfl, rfl⟩⟩

theorem owner_of_touches_subscription {r : MessageRef} {user : UInt64} {c : Cell}
    (h : (subscriptionFootprint r user).touches c) : c.owner ∈ [r].map MessageRef.key := by
  rcases h with rfl | rfl <;> exact List.mem_singleton_self _

/-- A write about some messages keeps to the cells that are about them. -/
theorem exists_keepsTo (h : w.messages? = some refs) :
    ∃ f, w.KeepsTo f ∧ ∀ c, f.touches c → c.owner ∈ refs.map MessageRef.key := by
  have hsubscription {user : UInt64} (hw : w.subscriber? = some user) :
      ∃ f, w.KeepsTo f ∧ ∀ c, f.touches c → c.owner ∈ refs.map MessageRef.key := by
    obtain ⟨r, hmessages, hkeeps⟩ := keepsTo_subscription hw
    obtain rfl : refs = [r] := Option.some.inj (h.symm.trans hmessages)
    exact ⟨_, hkeeps, fun c => owner_of_touches_subscription⟩
  cases w with
  | ensureChannel c => cases h
  | removeChannel c => cases h
  | track t =>
    cases h
    refine ⟨_, ⟨_, _, _, track_within t, fun _ => ⟨rfl, rfl⟩⟩, fun c hc => ?_⟩
    rw [hc]
    exact List.mem_singleton_self _
  | untrack r =>
    cases h
    exact ⟨_, ⟨_, _, _, untrack_within r, fun _ => ⟨rfl, rfl⟩⟩, fun c => List.mem_singleton.2⟩
  | setThreshold r user t => exact hsubscription rfl
  | removeSubscription r user t => exact hsubscription rfl
  | replace gone entries =>
    cases h
    exact ⟨_, keepsTo_replace gone entries, fun c hc => hc.2⟩

/-! ### Footprints that are apart -/

/-- Footprints about different messages are apart. -/
theorem apart_of_disjoint (hf : ∀ c, f.changes c → f.touches c)
    (hf' : ∀ c, f'.changes c → f'.touches c)
    (h : ∀ c, f.touches c → c.owner ∈ refs.map MessageRef.key)
    (h' : ∀ c, f'.touches c → c.owner ∈ refs'.map MessageRef.key)
    (hdisjoint : refs.Disjoint refs') : f.Apart f' := by
  have hnever (c : Cell) (hc : f.touches c) (hc' : f'.touches c) : False := by
    obtain ⟨r, hr, hkey⟩ := List.mem_map.1 (h c hc)
    obtain ⟨r', hr', hkey'⟩ := List.mem_map.1 (h' c hc')
    obtain rfl := MessageRef.key_inj.1 (hkey.trans hkey'.symm)
    exact hdisjoint hr hr'
  exact ⟨fun c hc hc' => hnever c (hf c hc) hc', fun c hc hc' => hnever c hc' (hf' c hc)⟩

theorem apart_users {r r' : MessageRef} {user user' : UInt64} (hne : user ≠ user') :
    (subscriptionFootprint r user).Apart (subscriptionFootprint r' user') := by
  have hkeys {r r' : MessageRef} {user user' : UInt64} (hne : user ≠ user') (c : Cell)
      (hc : (subscriptionFootprint r user).changes c) :
      ¬ (subscriptionFootprint r' user').touches c := by
    obtain rfl : c = .subscription (r.partKey user.toInt64) := hc
    rintro (htracking | hsubscription)
    · cases htracking
    · obtain ⟨-, huser⟩ := PartKey.mk.inj (Cell.subscription.inj hsubscription)
      exact hne (congrArg Int64.toUInt64 huser)
  exact ⟨hkeys hne, hkeys hne.symm⟩

/-- Exchanging servers leaves trackings and subscriptions alone and looks at no subscription. -/
theorem apart_subscription_replace (r : MessageRef) (user : UInt64) (refs : List MessageRef) :
    (subscriptionFootprint r user).Apart (replaceFootprint refs) where
  left c hc := by
    obtain rfl : c = .subscription (r.partKey user.toInt64) := hc
    rintro ⟨hannounced | htracking, -⟩
    · exact hannounced
    · cases htracking
  right c hc := by
    rintro (rfl | rfl)
    · exact hc.1
    · exact hc.1

end Write

open Write in
/-- Independent writes give the same and leave the same rows in either order, whatever is in the
store and whether or not they succeed. -/
theorem independent_writes_commute {w w' : Write} (h : Independent w w') (s : Store) :
    w'.result (w.apply s) = w'.result s ∧ w.result (w'.apply s) = w.result s ∧
      SameRows (w'.apply (w.apply s)) (w.apply (w'.apply s)) := by
  cases h with
  | messages h h' hdisjoint =>
    obtain ⟨f, hkeeps, howner⟩ := exists_keepsTo h
    obtain ⟨f', hkeeps', howner'⟩ := exists_keepsTo h'
    exact hkeeps.commute hkeeps'
      (apart_of_disjoint hkeeps.touched hkeeps'.touched howner howner' hdisjoint) s
  | users h h' hne =>
    obtain ⟨r, -, hkeeps⟩ := keepsTo_subscription h
    obtain ⟨r', -, hkeeps'⟩ := keepsTo_subscription h'
    exact hkeeps.commute hkeeps' (apart_users hne) s
  | subscription_replace h refs entries =>
    obtain ⟨r, -, hkeeps⟩ := keepsTo_subscription h
    exact hkeeps.commute (keepsTo_replace refs entries) (apart_subscription_replace _ _ _) s
  | replace_subscription refs entries h =>
    obtain ⟨r, -, hkeeps⟩ := keepsTo_subscription h
    exact (keepsTo_replace refs entries).commute hkeeps (apart_subscription_replace _ _ _).symm s

open Write in
/-- An exchange that fails, because its message shows a server already, and a subscription to the
same message. -/
theorem independent_writes_commute_conflict :
    let r : MessageRef := ⟨1, 2, 0x8000000000000003⟩
    let exchange : Write := .replace [] (Snapshot.empty.insert r default)
    let subscription : Write := .setThreshold r 7 ⟨10, by decide, by decide⟩
    let s := exchange.apply ((Write.track ⟨r, "1.2.3.4:8303"⟩).apply {})
    Independent subscription exchange ∧
      exchange.result (subscription.apply s) = .error (.duplicateKey .announced) ∧
      subscription.result (exchange.apply s) = .ok none ∧
      SameRows (exchange.apply (subscription.apply s)) (subscription.apply (exchange.apply s)) := by
  intro r exchange subscription s
  have hindependent : Independent subscription exchange := .subscription_replace rfl _ _
  obtain ⟨hexchange, hsubscription, hrows⟩ := independent_writes_commute hindependent s
  refine ⟨hindependent, hexchange.trans ?_, hsubscription.trans ?_, hrows⟩
  · decide +kernel
  · decide +kernel

end Store

end StatusBoard
