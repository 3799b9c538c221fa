import StatusBoard.Proofs.Store.Reachable

/-!
# Subscriptions go with their trackings only

Apart from handling reactions the board never sets a threshold and never takes one back.  A user
loses a subscription only when the message is not tracked any more, and then every subscription to
the message is gone (`Store.Retains`).
-/

namespace StatusBoard

open Store

/-- Subscriptions to messages that are tracked stay as they were, and there are no others. -/
structure Store.Retains (s s' : Store) : Prop where
  sound : s'.Sound
  threshold? : ∀ r user, s'.threshold? r user = if s'.tracks r then s.threshold? r user else none

/-- The successes of a transaction retain the subscriptions of a sound store. -/
def Transaction.Retains {α : Type} (t : Transaction α) : Prop :=
  ∀ s a s', s.Sound → t.run s = .ok (a, s') → s.Retains s'

namespace Store

variable {s s' : Store} {r : MessageRef} {user : UInt64}

/-- Nobody is subscribed to a message that is not tracked. -/
theorem Sound.threshold?_eq_none (hs : s.Sound) (h : ¬ s.tracks r) (user : UInt64) :
    s.threshold? r user = none := by
  rw [Option.eq_none_iff_forall_ne_some]
  intro t ht
  have hrow : s.subscriptions.contains (r.partKey user.toInt64) := by
    rw [Table.contains, hs.threshold?_eq_some_iff.1 ht]
    rfl
  exact h (hs.tracking_of_subscription _ hrow)

theorem Retains.of_same (hs' : s'.Sound) (h : s'.subscriptions = s.subscriptions) :
    s.Retains s' where
  sound := hs'
  threshold? r user := by
    split
    · rw [Store.threshold?, h, ← Store.threshold?]
    · next hr => exact hs'.threshold?_eq_none hr user

theorem threshold?_dropTrackings (hs : s.Sound) (p : MessageKey → Bool) (r : MessageRef)
    (user : UInt64) :
    (s.dropTrackings p).threshold? r user = if p r.key then none else s.threshold? r user := by
  rw [threshold?, subscriptions_dropTrackings s p hs, MessageRef.partKey]
  split <;> rfl

theorem retains_dropTrackings (hs : s.Sound) (p : MessageKey → Bool) :
    s.Retains (s.dropTrackings p) where
  sound := hs.dropTrackings p
  threshold? r user := by
    rw [threshold?_dropTrackings hs, tracks_dropTrackings]
    cases p r.key with
    | true => rfl
    | false =>
      by_cases hr : s.tracks r
      · simp [hr]
      · simp [hr, hs.threshold?_eq_none hr]

theorem untrack_retains (r : MessageRef) : (untrack r).Retains := by
  intro s _ s' hs h
  rw [untrack_run] at h
  split at h
  · cases h
    exact retains_dropTrackings hs _
  · cases h

theorem removeChannel_retains (c : ChannelRef) : (removeChannel c).Retains := by
  intro s _ s' hs h
  have hs' := removeChannel_keeps c s _ s' hs h
  rw [removeChannel_run] at h
  split at h
  · cases h
    exact ⟨hs', (retains_dropTrackings hs fun k => k.inChannel = c.key).threshold?⟩
  · cases h

theorem track_retains (t : Tracking) : (track t).Retains := by
  intro s _ s' hs h
  refine .of_same (track_keeps t s _ s' hs h) ?_
  rw [track_run] at h
  split at h
  · cases h
  · cases h
    rfl

theorem Upkeep.retains {γ : Type} {t : Transaction γ} (h : Upkeep γ t) : t.Retains := by
  intro s a s' hs hrun
  have hs' := h.access.keeps s a s' hs hrun
  cases h with
  | removeChannel c => exact removeChannel_retains c s _ s' hs hrun
  | track t => exact track_retains t s _ s' hs hrun
  | untrack r => exact untrack_retains r s _ s' hs hrun
  | replace refs entries => exact .of_same hs' (replace_leaves hs hrun).2.subscriptions
  | listTrackings =>
    cases hrun
    exact .of_same hs' rfl
  | listChannelTrackings c =>
    cases hrun
    exact .of_same hs' rfl
  | listSubscriptions refs => exact .of_same hs' (by rw [listSubscriptions_reads hrun])
  | load => exact .of_same hs' (by rw [load_reads hrun])

end Store

theorem Transaction.Retains.attempt {α : Type} {t : Transaction α} (ht : t.Retains) {s : Store}
    (hs : s.Sound) : s.Retains (t.attempt s).2 := by
  cases h : t.run s with
  | ok result =>
    rw [attempt_of_ok h]
    exact ht s _ _ hs h
  | error e =>
    rw [attempt_of_error h]
    exact .of_same hs rfl

end StatusBoard
