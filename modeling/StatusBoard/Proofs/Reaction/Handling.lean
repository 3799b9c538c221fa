import StatusBoard.Proofs.Store.Reachable

/-!
# What a reaction does to the store

Setting a threshold on a tracked message and removing a subscription touch the row of one user on
one message.  The handlers of reactions are one such access each, and the call that takes an older
reaction off the message.
-/

namespace StatusBoard

open Store

/-! ### One subscription -/

/-- A store in which one user has another threshold on one message, and nothing else about
trackings and subscriptions is different. -/
structure Store.Resubscribed (s : Store) (r : MessageRef) (user : UInt64) (t : Option Threshold)
    (s' : Store) : Prop where
  sound : s'.Sound
  tracks : ∀ r', s'.tracks r' = s.tracks r'
  threshold? : ∀ r' user', s'.threshold? r' user' =
    if r' = r ∧ user' = user then t else s.threshold? r' user'

namespace Store

variable {s : Store} {r : MessageRef} {user : UInt64} {t : Threshold}

theorem partKey_user_inj {r r' : MessageRef} {user user' : UInt64} :
    r'.partKey user'.toInt64 = r.partKey user.toInt64 ↔ r' = r ∧ user' = user := by
  rw [MessageRef.partKey, MessageRef.partKey, PartKey.mk.injEq, MessageRef.key_inj]
  exact and_congr_right fun _ => ⟨congrArg Int64.toUInt64, congrArg UInt64.toInt64⟩

/-- On a tracked message the threshold of a user can be set, and the one before is given. -/
theorem Sound.setThreshold_run (hs : s.Sound) (htracks : s.tracks r) (user : UInt64)
    (t : Threshold) : ∃ s', (setThreshold r user t).run s = .ok (s.threshold? r user, s') ∧
      s.Resubscribed r user (some t) s' := by
  have hrun := Store.setThreshold_run s r user t
  rw [Store.tracks] at htracks
  rw [if_pos htracks] at hrun
  refine ⟨_, hrun, setThreshold_keeps r user t s _ _ hs hrun, fun _ => rfl, fun r' user' => ?_⟩
  rw [Store.threshold?, Table.find?_insert]
  simp only [partKey_user_inj]
  split
  · exact thresholdOfRow?_ofNat t
  · rfl

/-- The subscription of a user can be removed if it has the threshold. -/
theorem Sound.removeSubscription_run (hs : s.Sound) (h : s.threshold? r user = some t) :
    ∃ s', (removeSubscription r user t).run s = .ok ((), s') ∧ s.Resubscribed r user none s' := by
  have hrun := Store.removeSubscription_run s r user t
  rw [if_pos (hs.threshold?_eq_some_iff.1 h)] at hrun
  refine ⟨_, hrun, removeSubscription_keeps r user t s _ _ hs hrun, fun _ => rfl,
    fun r' user' => ?_⟩
  rw [Store.threshold?, Table.find?_erase]
  simp only [partKey_user_inj]
  split <;> rfl

theorem Sound.removeSubscription_other (hs : s.Sound) (h : s.threshold? r user ≠ some t) :
    (removeSubscription r user t).run s = .error (.subscriptionNotFound r user t) := by
  rw [Store.removeSubscription_run, if_neg (h ∘ hs.threshold?_eq_some_iff.2)]

end Store

/-! ### The handlers -/

namespace Threshold

/-- The emoji of a threshold stands for it. -/
theorem ofEmoji?_emoji (t : Threshold) : ofEmoji? t.emoji = some t := by
  have hall : ∀ t ∈ all, ofEmoji? t.emoji = some t := by decide +kernel
  apply hall
  rw [all, List.mem_filterMap]
  have hone := t.one_le
  have hle := t.le_ten
  refine ⟨t.clients, List.mem_range'_1.2 (by omega), ?_⟩
  simp [ofNat?, hone, hle]

end Threshold

namespace Reaction

variable {board : UInt64} {e : Reaction} {t : Threshold}

theorem threshold?_of_ne (h : e.user ≠ board) :
    e.threshold? board = Threshold.ofEmoji? e.emoji := if_neg h

/-- A reaction that names a threshold is one access and, if the user switched, one call. -/
theorem added_run (h : e.threshold? board = some t) :
    added board e = .transact (setThreshold e.ref e.user t) fun result =>
      match orIgnored (result.map (ReactionOutcome.ofReplaced · t)) with
      | .ok (.updated previous current) => .call (.removeReaction e.ref e.user previous.emoji)
          fun _ => .done (.ok (.updated previous current))
      | outcome => .done outcome := by
  unfold added subscribe
  rw [h]
  refine congrArg (Procedure.transact _) (funext fun result => ?_)
  change Procedure.bind (.done (orIgnored (result.map (ReactionOutcome.ofReplaced · t)))) _ = _
  generalize orIgnored (result.map (ReactionOutcome.ofReplaced · t)) = outcome
  match outcome with
  | .error e => rfl
  | .ok outcome => cases outcome <;> rfl

theorem removed_run (h : e.threshold? board = some t) :
    removed board e = .transact (removeSubscription e.ref e.user t) fun result =>
      .done (orIgnored (result.map fun _ => .unsubscribed t)) := by
  unfold removed unsubscribe
  rw [h]
  rfl

end Reaction

end StatusBoard
