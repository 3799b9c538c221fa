import StatusBoard.Proofs.Cycle.Interleaved
import StatusBoard.Proofs.Reaction.Handling

/-!
# What leaves messages alone

Most of what the board does gives no message a new text: it drops trackings, keeps subscriptions and
handles reactions.  The messages that are tracked after that were tracked before, at the same
address, and show the same (`Session.Undisturbed`).
-/

namespace StatusBoard

open Store

namespace Exchange

/-- The message that a post created. -/
def posted? : Exchange → Option MessageRef
  | ⟨.post c _, .ok id⟩ => some (c.toMessage id)
  | _ => none

/-- The text that a call was to give to a message, and whether it did. -/
def content? (r : MessageRef) : Exchange → Option (String × Bool)
  | ⟨.post c text, .ok id⟩ => if c.toMessage id = r then some (text, true) else none
  | ⟨.edit r' text, result⟩ => if r' = r then some (text, result.isOk) else none
  | _ => none

theorem content?_of_edit {e : Exchange} {r r' : MessageRef} {text : String}
    (h : e.call = .edit r' text) :
    e.content? r = if r' = r then some (text, e.accepted) else none := by
  obtain ⟨call, result⟩ := e
  cases h
  rfl

end Exchange

/-- The latest call about the text of a message: the text, and whether the call succeeded. -/
def lastContent? (log : List Exchange) (r : MessageRef) : Option (String × Bool) :=
  log.findSome? (Exchange.content? r)

theorem lastContent?_append (newer older : List Exchange) (r : MessageRef) :
    lastContent? (newer ++ older) r = (lastContent? newer r).or (lastContent? older r) :=
  List.findSome?_append

theorem lastContent?_singleton (e : Exchange) (r : MessageRef) :
    lastContent? [e] r = e.content? r := by
  rw [lastContent?, List.findSome?_cons]
  cases e.content? r <;> rfl

/-! ### Stores -/

/-- Fading that leaves the addresses of the trackings alone. -/
structure Store.Sheds (s s' : Store) : Prop where
  fades : s.Fades s'
  address : ∀ (r : MessageRef) address, s'.trackings.find? r.key = some address →
    s.trackings.find? r.key = some address

/-- The successes of a transaction let a sound store shed at most. -/
def Transaction.Sheds {α : Type} (t : Transaction α) : Prop :=
  ∀ s a s', s.Sound → t.run s = .ok (a, s') → s.Sheds s'

namespace Store

variable {s s' s'' : Store} {r : MessageRef}

theorem tracks_iff : s.tracks r ↔ ∃ address, s.trackings.find? r.key = some address :=
  Option.isSome_iff_exists

theorem trackings_of_track {t : Tracking} (h : (track t).run s = .ok ((), s')) (r : MessageRef) :
    s'.trackings.find? r.key =
      if r = t.ref then some t.address else s.trackings.find? r.key := by
  rw [track_run] at h
  split at h
  · cases h
  · obtain ⟨-, hstore⟩ := Prod.mk.inj (Except.ok.inj h)
    rw [← hstore, Table.find?_insert]
    simp only [MessageRef.key_inj]

theorem Sheds.refl (hs : s.Sound) : s.Sheds s := ⟨.refl hs, fun _ _ h => h⟩

theorem Sheds.trans (h : s.Sheds s') (h' : s'.Sheds s'') : s.Sheds s'' where
  fades := h.fades.trans h'.fades
  address r address hr := h.address r address (h'.address r address hr)

theorem untrack_sheds (r : MessageRef) : (untrack r).Sheds := by
  intro s a s' hs h
  refine ⟨untrack_fades r s a s' hs h, fun r' address hr' => ?_⟩
  rw [untrack_run] at h
  split at h
  · cases h
    rw [trackings_dropTrackings] at hr'
    split at hr'
    · cases hr'
    · exact hr'
  · cases h

theorem removeChannel_sheds (c : ChannelRef) : (removeChannel c).Sheds := by
  intro s a s' hs h
  refine ⟨removeChannel_fades c s a s' hs h, fun r address hr => ?_⟩
  rw [removeChannel_run] at h
  split at h
  · cases h
    have hr : (s.dropTrackings fun k => k.inChannel = c.key).trackings.find? r.key =
      some address := hr
    rw [trackings_dropTrackings] at hr
    split at hr
    · cases hr
    · exact hr
  · cases h

theorem setThreshold_sheds (r : MessageRef) (user : UInt64) (t : Threshold) :
    (setThreshold r user t).Sheds := by
  intro s a s' hs h
  refine ⟨setThreshold_fades r user t s a s' hs h, fun r' address hr' => ?_⟩
  rw [setThreshold_run] at h
  split at h
  · cases h
    exact hr'
  · cases h

theorem removeSubscription_sheds (r : MessageRef) (user : UInt64) (t : Threshold) :
    (removeSubscription r user t).Sheds := by
  intro s a s' hs h
  refine ⟨removeSubscription_fades r user t s a s' hs h, fun r' address hr' => ?_⟩
  rw [removeSubscription_run] at h
  split at h
  · cases h
    exact hr'
  · cases h

end Store

theorem Transaction.Sheds.attempt {α : Type} {t : Transaction α} (ht : t.Sheds) {s : Store}
    (hs : s.Sound) : s.Sheds (t.attempt s).2 := by
  cases h : t.run s with
  | ok result =>
    rw [attempt_of_ok h]
    exact ht s _ _ hs h
  | error e =>
    rw [attempt_of_error h]
    exact .refl hs

/-! ### Procedures -/

namespace Session

variable {α β γ : Type} {s s' s'' : Session}

/-- No message got a text meanwhile, and the tracked messages are as they were. -/
structure Undisturbed (s s' : Session) : Prop where
  sheds : s.store.Sheds s'.store
  log : ∃ exchanges, s'.log = exchanges ++ s.log ∧ ∀ r, lastContent? exchanges r = none

theorem Undisturbed.refl (hs : s.store.Sound) : s.Undisturbed s := ⟨.refl hs, [], rfl, fun _ => rfl⟩

theorem Undisturbed.trans (h : s.Undisturbed s') (h' : s'.Undisturbed s'') :
    s.Undisturbed s'' := by
  obtain ⟨exchanges, hlog, hquiet⟩ := h.log
  obtain ⟨exchanges', hlog', hquiet'⟩ := h'.log
  refine ⟨h.sheds.trans h'.sheds, exchanges' ++ exchanges, ?_, fun r => ?_⟩
  · rw [hlog', hlog, List.append_assoc]
  · rw [lastContent?_append, hquiet, hquiet']
    rfl

/-- A procedure that gives no message a text. -/
def Quiet (p : Procedure α) : Prop :=
  ∀ (chat : Platform) (s : Session), s.store.Sound → s.Undisturbed (s.perform chat p).2

theorem quiet_done (a : α) : Quiet (.done a) := fun _ _ hs => .refl hs

theorem quiet_transact {t : Transaction γ} {next : Except StoreError γ → Procedure α}
    (ht : t.Sheds) (h : ∀ result, Quiet (next result)) : Quiet (.transact t next) := by
  intro chat s hs
  have hsheds := ht.attempt hs
  have hstep : s.Undisturbed { s with store := (t.attempt s.store).2 } :=
    ⟨hsheds, [], rfl, fun _ => rfl⟩
  exact hstep.trans (h _ chat _ hsheds.fades.sound)

theorem quiet_call {c : ChatCall} {next : Except ChatError c.Reply → Procedure α}
    (hc : ∀ r result, Exchange.content? r ⟨c, result⟩ = none) (h : ∀ result, Quiet (next result)) :
    Quiet (.call c next) := by
  intro chat s hs
  let called : Session := { s with log := ⟨c, (chat s.log c).inTime⟩ :: s.log }
  have hstep : s.Undisturbed called := by
    refine ⟨.refl hs, [⟨c, (chat s.log c).inTime⟩], rfl, fun r => ?_⟩
    rw [lastContent?_singleton, hc]
  exact hstep.trans (h _ chat called hs)

theorem Quiet.bind {p : Procedure β} {f : β → Procedure α} (hp : Quiet p)
    (hf : ∀ b, Quiet (f b)) : Quiet (p >>= f) := by
  intro chat s hs
  rw [perform_bind]
  have hfirst := hp chat s hs
  exact hfirst.trans (hf _ chat _ hfirst.sheds.fades.sound)

end Session

/-! ### Occasions -/

namespace Tracking

open Session

theorem quiet_offerThresholds (r : MessageRef) (thresholds : List Threshold) :
    Quiet (offerThresholds r thresholds) := by
  induction thresholds with
  | nil => exact quiet_done _
  | cons t rest ih =>
    refine quiet_call (fun _ _ => rfl) fun result => ?_
    cases result with
    | ok _ => exact ih
    | error e => exact quiet_done _

theorem discard_run (r : MessageRef) : (discard r).run = .transact (untrack r) fun
    | .error e => .done (.error (.store e))
    | .ok () => .call (.delete r) fun _ => .done (.ok ()) := by
  refine congrArg (Procedure.transact _) (funext fun result => ?_)
  cases result <;> rfl

theorem quiet_discard (r : MessageRef) : Quiet (discard r).run := by
  rw [discard_run]
  refine quiet_transact (untrack_sheds r) fun result => ?_
  cases result with
  | error e => exact quiet_done _
  | ok _ => exact quiet_call (fun _ _ => rfl) fun _ => quiet_done _

theorem quiet_messageDeleted (r : MessageRef) : Quiet (messageDeleted r) :=
  quiet_transact (untrack_sheds r) fun _ => quiet_done _

theorem quiet_channelDeleted (c : ChannelRef) : Quiet (channelDeleted c) :=
  quiet_transact (removeChannel_sheds c) fun _ => quiet_done _

end Tracking

namespace Reaction

open Session

variable (board : UInt64) (e : Reaction)

theorem quiet_added : Quiet (added board e) := by
  cases h : e.threshold? board with
  | none =>
    unfold added subscribe
    rw [h]
    exact quiet_done _
  | some t =>
    rw [added_run h]
    refine quiet_transact (setThreshold_sheds _ _ _) fun result => ?_
    split
    · exact quiet_call (fun _ _ => rfl) fun _ => quiet_done _
    · exact quiet_done _

theorem quiet_removed : Quiet (removed board e) := by
  cases h : e.threshold? board with
  | none =>
    unfold removed unsubscribe
    rw [h]
    exact quiet_done _
  | some t =>
    rw [removed_run h]
    exact quiet_transact (removeSubscription_sheds _ _ _) fun _ => quiet_done _

end Reaction

end StatusBoard
