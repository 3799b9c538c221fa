import StatusBoard.Proofs.Json.RoundTrip
import StatusBoard.Store.Announced

/-!
# The invariant of the store

The tables of a sound store belong together: every row has the row above it, and the clients of a
message are the clients of one server in display order (`Store.Sound`).  The empty store is sound,
and every write to channels, trackings or subscriptions leaves a sound store sound.
-/

namespace StatusBoard.Store

/-- Whether a message is tracked. -/
def tracks (s : Store) (r : MessageRef) : Bool := s.trackings.contains r.key

/-! ### Clients at their positions -/

/-- The place in a list that a stored position stands for.  Positions are stored as signed numbers,
and their bits count the places from zero. -/
def placeOf (position : Int64) : Nat := position.toUInt64.toNat

theorem placeOf_lt (position : Int64) : placeOf position < 2 ^ 64 := position.toUInt64.toNat_lt

theorem placeOf_ofNat {n : Nat} (hn : n < 2 ^ 64) : placeOf (Int64.ofNat n) = n := by
  change (UInt64.ofNat n).toNat = n
  rw [UInt64.toNat_ofNat']
  exact Nat.mod_eq_of_lt hn

theorem ofNat_placeOf (position : Int64) : Int64.ofNat (placeOf position) = position := by
  change (UInt64.ofNat position.toUInt64.toNat).toInt64 = position
  rw [UInt64.ofNat_toNat]
  rfl

/-- The clients stored for a message are the members of a list, each at its place. -/
structure HoldsClients (s : Store) (r : MessageRef) (clients : List Client) : Prop where
  length_le : clients.length ≤ 2 ^ 64
  find? : ∀ p, s.clients.find? (r.partKey p) = clients[placeOf p]?

/-! ### The invariant -/

/-- The tables belong together. -/
structure Sound (s : Store) : Prop where
  channel_of_tracking : ∀ k, s.trackings.contains k → s.channels.contains k.inChannel
  tracking_of_announced : ∀ k, s.announced.contains k → s.trackings.contains k
  tracking_of_subscription : ∀ k, s.subscriptions.contains k → s.trackings.contains k.owner
  announced_of_client : ∀ k, s.clients.contains k → s.announced.contains k.owner
  /-- What is announced for a message is one server in canonical form. -/
  server_of_announced : ∀ r a, s.announced.find? r.key = some a →
    ∃ server, server.IsCanonical ∧ a = .ofServer server a.arrival ∧ s.HoldsClients r server.clients
  threshold_of_subscription : ∀ k n, s.subscriptions.find? k = some n →
    ∃ t : Threshold, n = Int64.ofNat t.clients

theorem sound_empty : Sound {} where
  channel_of_tracking _ h := nomatch h
  tracking_of_announced _ h := nomatch h
  tracking_of_subscription _ h := nomatch h
  announced_of_client _ h := nomatch h
  server_of_announced _ _ h := nomatch h
  threshold_of_subscription _ _ h := nomatch h

variable {s : Store}

/-- Only the rows about a message matter for its clients. -/
theorem HoldsClients.congr {s' : Store} {r : MessageRef} {clients : List Client}
    (h : s.HoldsClients r clients)
    (hsame : ∀ p, s'.clients.find? (r.partKey p) = s.clients.find? (r.partKey p)) :
    s'.HoldsClients r clients where
  length_le := h.length_le
  find? p := (hsame p).trans (h.find? p)

/-! ### Dropped trackings -/

section Drop

variable (s : Store) (p : MessageKey → Bool)

theorem trackings_dropTrackings (k : MessageKey) :
    (s.dropTrackings p).trackings.find? k = if p k then none else s.trackings.find? k := by
  simp only [dropTrackings, Table.find?_filter_key]
  cases hp : p k
  · simp
  · cases hfind : s.trackings.find? k <;> simp [Table.contains, hfind]

theorem tracks_dropTrackings (r : MessageRef) :
    (s.dropTrackings p).tracks r = (!p r.key && s.tracks r) := by
  rw [tracks, Table.contains, trackings_dropTrackings]
  cases p r.key <;> rfl

theorem announced_dropTrackings (hs : s.Sound) (k : MessageKey) :
    (s.dropTrackings p).announced.find? k = if p k then none else s.announced.find? k := by
  simp only [dropTrackings, Table.find?_filter_key]
  cases hp : p k
  · simp
  · cases hfind : s.announced.find? k with
    | none => simp
    | some a =>
      have hannounced : s.announced.contains k := by simp [Table.contains, hfind]
      simp [hannounced, hs.tracking_of_announced k hannounced]

theorem clients_dropTrackings (hs : s.Sound) (k : PartKey) :
    (s.dropTrackings p).clients.find? k = if p k.owner then none else s.clients.find? k := by
  simp only [dropTrackings, Table.find?_filter_key]
  cases hp : p k.owner
  · simp
  · cases hfind : s.clients.find? k with
    | none => simp
    | some c =>
      have hannounced := hs.announced_of_client k (by simp [Table.contains, hfind])
      simp [hannounced, hs.tracking_of_announced k.owner hannounced]

theorem subscriptions_dropTrackings (hs : s.Sound) (k : PartKey) :
    (s.dropTrackings p).subscriptions.find? k =
      if p k.owner then none else s.subscriptions.find? k := by
  simp only [dropTrackings, Table.find?_filter_key]
  cases hp : p k.owner
  · simp
  · cases hfind : s.subscriptions.find? k with
    | none => simp
    | some n => simp [hs.tracking_of_subscription k (by simp [Table.contains, hfind])]

end Drop

/-! ### Writes to channels, trackings and subscriptions -/

namespace Sound

/-- A write that leaves the announced servers alone and drops no tracking has to care for the
channels and the subscriptions only. -/
theorem of_same_servers {s' : Store} (hs : s.Sound) (hannounced : s'.announced = s.announced)
    (hclients : s'.clients = s.clients)
    (htracked : ∀ k, s.trackings.contains k → s'.trackings.contains k)
    (hchannel : ∀ k, s'.trackings.contains k → s'.channels.contains k.inChannel)
    (howner : ∀ k, s'.subscriptions.contains k → s'.trackings.contains k.owner)
    (hthreshold : ∀ k n, s'.subscriptions.find? k = some n →
      ∃ t : Threshold, n = Int64.ofNat t.clients) : s'.Sound where
  channel_of_tracking := hchannel
  tracking_of_announced k hk := htracked k (hs.tracking_of_announced k (hannounced ▸ hk))
  tracking_of_subscription := howner
  announced_of_client k hk := hannounced ▸ hs.announced_of_client k (hclients ▸ hk)
  server_of_announced r a ha := by
    rw [hannounced] at ha
    obtain ⟨server, hcanonical, hrow, hholds⟩ := hs.server_of_announced r a ha
    exact ⟨server, hcanonical, hrow, hholds.congr fun _ => by rw [hclients]⟩
  threshold_of_subscription := hthreshold

/-- Trackings that are dropped take every row about their messages with them. -/
theorem dropTrackings (hs : s.Sound) (p : MessageKey → Bool) : (s.dropTrackings p).Sound where
  channel_of_tracking k hk := by
    rw [Table.contains, trackings_dropTrackings] at hk
    cases hp : p k <;> simp only [hp] at hk
    · exact hs.channel_of_tracking k hk
    · cases hk
  tracking_of_announced k hk := by
    rw [Table.contains, announced_dropTrackings s p hs] at hk
    rw [Table.contains, trackings_dropTrackings]
    cases hp : p k <;> simp only [hp] at hk
    · exact hs.tracking_of_announced k hk
    · cases hk
  tracking_of_subscription k hk := by
    rw [Table.contains, subscriptions_dropTrackings s p hs] at hk
    rw [Table.contains, trackings_dropTrackings]
    cases hp : p k.owner <;> simp only [hp] at hk
    · exact hs.tracking_of_subscription k hk
    · cases hk
  announced_of_client k hk := by
    rw [Table.contains, clients_dropTrackings s p hs] at hk
    rw [Table.contains, announced_dropTrackings s p hs]
    cases hp : p k.owner <;> simp only [hp] at hk
    · exact hs.announced_of_client k hk
    · cases hk
  server_of_announced r a ha := by
    rw [announced_dropTrackings s p hs] at ha
    cases hp : p r.key <;> simp only [hp] at ha
    · obtain ⟨server, hcanonical, hrow, hclients⟩ := hs.server_of_announced r a ha
      refine ⟨server, hcanonical, hrow, hclients.congr fun position => ?_⟩
      rw [clients_dropTrackings s p hs]
      simp [MessageRef.partKey, hp]
    · cases ha
  threshold_of_subscription k n hn := by
    rw [subscriptions_dropTrackings s p hs] at hn
    cases hp : p k.owner <;> simp only [hp] at hn
    · exact hs.threshold_of_subscription k n hn
    · cases hn

end Sound

end StatusBoard.Store

namespace StatusBoard

open Store

variable {α : Type} {P : Store → Prop}

/-- A property of stores that every success of a transaction keeps. -/
def Transaction.Keeps (P : Store → Prop) (t : Transaction α) : Prop :=
  ∀ s a s', P s → t.run s = .ok (a, s') → P s'

/-- A property that is kept holds after an access, whether or not it succeeds. -/
theorem Transaction.Keeps.attempt {t : Transaction α} (ht : t.Keeps P) {s : Store} (hs : P s) :
    P (t.attempt s).2 := by
  cases h : t.run s with
  | ok result => rw [attempt_of_ok h]; exact ht s _ _ hs h
  | error e => rw [attempt_of_error h]; exact hs

namespace Store

theorem ensureChannel_keeps (c : ChannelRef) : (ensureChannel c).Keeps Sound := by
  intro s _ s' hs h
  rw [ensureChannel_run] at h
  cases h
  refine hs.of_same_servers rfl rfl (fun _ hk => hk) (fun k hk => ?_)
    hs.tracking_of_subscription hs.threshold_of_subscription
  rw [Table.contains_insert, hs.channel_of_tracking k hk, Bool.or_true]

theorem removeChannel_keeps (c : ChannelRef) : (removeChannel c).Keeps Sound := by
  intro s _ s' hs h
  rw [removeChannel_run] at h
  split at h
  · cases h
    have hdropped := hs.dropTrackings fun k => k.inChannel = c.key
    refine hdropped.of_same_servers rfl rfl (fun _ hk => hk) (fun k hk => ?_)
      hdropped.tracking_of_subscription hdropped.threshold_of_subscription
    have hchannel := hdropped.channel_of_tracking k hk
    have hne : k.inChannel ≠ c.key := by
      intro heq
      rw [Table.contains, trackings_dropTrackings] at hk
      simp [heq] at hk
    rw [Table.contains_erase, decide_eq_true hne]
    exact hchannel
  · cases h

theorem track_keeps (t : Tracking) : (track t).Keeps Sound := by
  intro s _ s' hs h
  rw [track_run] at h
  split at h
  · cases h
  · cases h
    have htracked (k : MessageKey) (hk : s.trackings.contains k) :
        (s.trackings.insert t.ref.key t.address).contains k := by
      rw [Table.contains_insert, hk, Bool.or_true]
    refine hs.of_same_servers rfl rfl htracked (fun k hk => ?_)
      (fun k hk => htracked k.owner (hs.tracking_of_subscription k hk)) hs.threshold_of_subscription
    rw [Table.contains_insert] at hk ⊢
    by_cases heq : k = t.ref.key
    · simp [heq, MessageRef.key, MessageKey.inChannel, ChannelRef.key, MessageRef.inChannel]
    · simp only [heq, decide_false, Bool.false_or] at hk
      rw [hs.channel_of_tracking k hk, Bool.or_true]

theorem untrack_keeps (r : MessageRef) : (untrack r).Keeps Sound := by
  intro s _ s' hs h
  rw [untrack_run] at h
  split at h
  · cases h
    exact hs.dropTrackings _
  · cases h

theorem setThreshold_keeps (r : MessageRef) (user : UInt64) (t : Threshold) :
    (setThreshold r user t).Keeps Sound := by
  intro s _ s' hs h
  rw [setThreshold_run] at h
  split at h
  · next htracked =>
    cases h
    refine hs.of_same_servers rfl rfl (fun _ hk => hk) hs.channel_of_tracking (fun k hk => ?_)
      fun k n hn => ?_
    · rw [Table.contains_insert] at hk
      by_cases heq : k = r.partKey user.toInt64
      · rw [heq]
        exact htracked
      · simp only [heq, decide_false, Bool.false_or] at hk
        exact hs.tracking_of_subscription k hk
    · rw [Table.find?_insert] at hn
      split at hn
      · cases hn
        exact ⟨t, rfl⟩
      · exact hs.threshold_of_subscription k n hn
  · cases h

theorem removeSubscription_keeps (r : MessageRef) (user : UInt64) (t : Threshold) :
    (removeSubscription r user t).Keeps Sound := by
  intro s _ s' hs h
  rw [removeSubscription_run] at h
  split at h
  · cases h
    refine hs.of_same_servers rfl rfl (fun _ hk => hk) hs.channel_of_tracking (fun k hk => ?_)
      fun k n hn => ?_
    · rw [Table.contains_erase] at hk
      exact hs.tracking_of_subscription k (by simp_all)
    · rw [Table.find?_erase] at hn
      split at hn
      · cases hn
      · exact hs.threshold_of_subscription k n hn
  · cases h

end Store

end StatusBoard
