import StatusBoard.Proofs.Reaction.Handling

/-!
# The effect of one reaction

Handling a reaction cannot fail, changes at most the subscription of one user to one message, and
reports exactly this change.  The only call is the one that takes a superseded reaction off
(`ReactionEvent.Handled`).
-/

namespace StatusBoard

open Store

/-- A reaction that was added to a message or removed from it. -/
structure ReactionEvent where
  added : Bool
  reaction : Reaction
deriving DecidableEq

/-- Two stores that differ at most in the subscription of one user to one message. -/
structure Store.SameExcept (r : MessageRef) (user : UInt64) (s s' : Store) : Prop where
  tables : s' = { s with subscriptions := s'.subscriptions }
  subscriptions : ∀ k, k ≠ r.partKey user.toInt64 →
    s'.subscriptions.find? k = s.subscriptions.find? k

namespace ReactionOutcome

/-- What an outcome says about the threshold of a user before and after it. -/
def Tells (before after : Option Threshold) : ReactionOutcome → Prop
  | ignored => after = before
  | subscribed t => before = none ∧ after = some t
  | updated previous current => before = some previous ∧ after = some current ∧ previous ≠ current
  | unchanged t => before = some t ∧ after = some t
  | unsubscribed t => before = some t ∧ after = none

/-- The calls that an outcome asks for. -/
def calls (r : MessageRef) (user : UInt64) : ReactionOutcome → List ChatCall
  | updated previous _ => [.removeReaction r user previous.emoji]
  | _ => []

theorem tells_ofReplaced (before : Option Threshold) (t : Threshold) :
    (ofReplaced before t).Tells before (some t) := by
  cases before with
  | none => exact ⟨rfl, rfl⟩
  | some previous =>
    by_cases h : previous = t
    · rw [ofReplaced, if_pos h, h]
      exact ⟨rfl, rfl⟩
    · rw [ofReplaced, if_neg h]
      exact ⟨rfl, rfl, h⟩

theorem ofReplaced_ne_ignored (before : Option Threshold) (t : Threshold) :
    ofReplaced before t ≠ ignored := by
  cases before with
  | none => exact nofun
  | some previous =>
    unfold ofReplaced
    dsimp only
    split <;> exact nofun

end ReactionOutcome

namespace Store

variable {s s' : Store} {r : MessageRef} {user : UInt64} {t : Threshold}

theorem setThreshold_sameExcept {replaced : Option Threshold}
    (h : (setThreshold r user t).run s = .ok (replaced, s')) : s.SameExcept r user s' := by
  rw [Store.setThreshold_run] at h
  split at h
  · cases h
    exact ⟨rfl, fun k hk => (Table.find?_insert _ _ _ _).trans (if_neg hk)⟩
  · cases h

theorem removeSubscription_sameExcept (h : (removeSubscription r user t).run s = .ok ((), s')) :
    s.SameExcept r user s' := by
  rw [Store.removeSubscription_run] at h
  split at h
  · cases h
    exact ⟨rfl, fun k hk => (Table.find?_erase _ _ _).trans (if_neg hk)⟩
  · cases h

theorem SameExcept.tracks (h : s.SameExcept r user s') (r' : MessageRef) :
    s'.tracks r' = s.tracks r' := by rw [h.tables, Store.tracks, Store.tracks]

theorem SameExcept.threshold? (h : s.SameExcept r user s') {r' : MessageRef} {user' : UInt64}
    (hne : ¬ (r' = r ∧ user' = user)) : s'.threshold? r' user' = s.threshold? r' user' := by
  rw [Store.threshold?, h.subscriptions _ fun heq => hne (partKey_user_inj.1 heq),
    ← Store.threshold?]

/-- On a message that is not tracked no threshold can be set. -/
theorem setThreshold_untracked (huntracked : ¬ s.tracks r) (user : UInt64) (t : Threshold) :
    (setThreshold r user t).run s = .error (.trackingNotFound r) := by
  rw [Store.tracks] at huntracked
  rw [Store.setThreshold_run, if_neg huntracked]

end Store

namespace ReactionEvent

/-- What the board does when it is told of the reaction. -/
def procedure (board : UInt64) (x : ReactionEvent) :
    Procedure (Except StoreError ReactionOutcome) :=
  if x.added then Reaction.added board x.reaction else Reaction.removed board x.reaction

/-- The threshold that a reaction sets or takes back.  Without effect are the board's own reactions,
those without a threshold's emoji, reactions that are added to a message that is not tracked, and
the removal of another threshold than the user's present one. -/
def effect? (board : UInt64) (s : Store) (x : ReactionEvent) : Option Threshold :=
  (x.reaction.threshold? board).filter fun t =>
    if x.added then s.tracks x.reaction.ref
    else s.threshold? x.reaction.ref x.reaction.user = some t

/-- What handling a reaction does to a session. -/
structure Handled (board : UInt64) (x : ReactionEvent) (s : Session) (outcome : ReactionOutcome)
    (s' : Session) : Prop where
  /-- At most one row is different. -/
  row : s.store.SameExcept x.reaction.ref x.reaction.user s'.store
  /-- An effect sets the threshold of the user, or removes it. -/
  threshold_eq : s'.store.threshold? x.reaction.ref x.reaction.user =
    match x.effect? board s.store with
    | none => s.store.threshold? x.reaction.ref x.reaction.user
    | some t => if x.added then some t else none
  ignored_iff : outcome = .ignored ↔ x.effect? board s.store = none
  /-- The outcome is the change of the row. -/
  tells : outcome.Tells (s.store.threshold? x.reaction.ref x.reaction.user)
    (s'.store.threshold? x.reaction.ref x.reaction.user)
  /-- A superseded reaction is taken off, and nothing else is called for. -/
  calls : ∃ exchanges, s'.log = exchanges ++ s.log ∧
    exchanges.map Exchange.call = outcome.calls x.reaction.ref x.reaction.user

variable {board : UInt64} {x : ReactionEvent} {s : Session} {t : Threshold}

theorem handled_ignored (h : x.effect? board s.store = none) : Handled board x s .ignored s where
  row := ⟨rfl, fun _ _ => rfl⟩
  threshold_eq := by rw [h]
  ignored_iff := iff_of_true rfl h
  tells := rfl
  calls := ⟨[], rfl, rfl⟩

/-! ### A reaction was added -/

/-- After its access to the store the handler makes the calls of the outcome. -/
theorem perform_calls (chat : Platform) (s : Session) (r : MessageRef) (user : UInt64)
    (outcome : ReactionOutcome) : ∃ exchanges, s.perform chat
        (match (.ok outcome : Except StoreError ReactionOutcome) with
        | .ok (.updated previous current) => .call (.removeReaction r user previous.emoji)
            fun _ => .done (.ok (.updated previous current))
        | outcome => .done outcome) = (.ok outcome, { s with log := exchanges ++ s.log }) ∧
      exchanges.map Exchange.call = outcome.calls r user := by
  cases outcome with
  | updated previous current => exact ⟨[_], rfl, rfl⟩
  | _ => exact ⟨[], rfl, rfl⟩

/-- A user reacts to a tracked message. -/
theorem perform_added (chat : Platform) (hs : s.store.Sound) (hadded : x.added = true)
    (ht : x.reaction.threshold? board = some t) (htracks : s.store.tracks x.reaction.ref) :
    ∃ outcome s', s.perform chat (Reaction.added board x.reaction) = (.ok outcome, s') ∧
      s'.store.Sound ∧ Handled board x s outcome s' := by
  let before := s.store.threshold? x.reaction.ref x.reaction.user
  obtain ⟨store, hrun, hstore⟩ := hs.setThreshold_run htracks x.reaction.user t
  obtain ⟨exchanges, hperform, hcalls⟩ := perform_calls chat { s with store := store }
    x.reaction.ref x.reaction.user (.ofReplaced before t)
  have heffect : x.effect? board s.store = some t := by
    rw [effect?, ht, hadded, Option.filter_some, if_pos (by simpa using htracks)]
  have hafter : store.threshold? x.reaction.ref x.reaction.user = some t := by
    rw [hstore.threshold?, if_pos ⟨rfl, rfl⟩]
  refine ⟨.ofReplaced before t, { s with store := store, log := exchanges ++ s.log }, ?_,
    hstore.sound, setThreshold_sameExcept hrun, ?_, ?_, ?_, exchanges, rfl, hcalls⟩
  · rw [Reaction.added_run ht, Session.perform_transact_ok chat s hrun]
    exact hperform
  · rw [heffect, hadded]
    exact hafter
  · exact iff_of_false (ReactionOutcome.ofReplaced_ne_ignored before t) (by simp [heffect])
  · rw [hafter]
    exact ReactionOutcome.tells_ofReplaced before t

/-- A reaction to a message that is not tracked is ignored. -/
theorem perform_added_untracked (chat : Platform) (ht : x.reaction.threshold? board = some t)
    (huntracked : ¬ s.store.tracks x.reaction.ref) :
    s.perform chat (Reaction.added board x.reaction) = (.ok .ignored, s) := by
  have hrun := setThreshold_untracked huntracked x.reaction.user t
  rw [Reaction.added_run ht, Session.perform_transact, Transaction.attempt_of_error hrun]
  rfl

/-! ### A reaction was removed -/

/-- A user takes back the reaction of the present threshold. -/
theorem perform_removed (chat : Platform) (hs : s.store.Sound) (hremoved : x.added = false)
    (ht : x.reaction.threshold? board = some t)
    (hbefore : s.store.threshold? x.reaction.ref x.reaction.user = some t) :
    ∃ s', s.perform chat (Reaction.removed board x.reaction) = (.ok (.unsubscribed t), s') ∧
      s'.store.Sound ∧ Handled board x s (.unsubscribed t) s' := by
  obtain ⟨store, hrun, hstore⟩ := hs.removeSubscription_run hbefore
  have heffect : x.effect? board s.store = some t := by
    rw [effect?, ht, hremoved, Option.filter_some, if_pos (by simpa using hbefore)]
  have hthreshold : store.threshold? x.reaction.ref x.reaction.user = none := by
    rw [hstore.threshold?, if_pos ⟨rfl, rfl⟩]
  refine ⟨{ s with store := store }, ?_, hstore.sound, removeSubscription_sameExcept hrun, ?_,
    iff_of_false nofun (by simp [heffect]), ⟨hbefore, hthreshold⟩, [], rfl, rfl⟩
  · rw [Reaction.removed_run ht, Session.perform_transact_ok chat s hrun]
    rfl
  · rw [heffect, hremoved]
    exact hthreshold

/-- The removal of any other reaction is ignored. -/
theorem perform_removed_other (chat : Platform) (hs : s.store.Sound)
    (ht : x.reaction.threshold? board = some t)
    (hother : s.store.threshold? x.reaction.ref x.reaction.user ≠ some t) :
    s.perform chat (Reaction.removed board x.reaction) = (.ok .ignored, s) := by
  have hrun := hs.removeSubscription_other hother
  rw [Reaction.removed_run ht, Session.perform_transact, Transaction.attempt_of_error hrun]
  rfl

/-! ### Any reaction -/

/-- A reaction that names no threshold is ignored. -/
theorem procedure_of_none (h : x.reaction.threshold? board = none) :
    x.procedure board = .done (.ok .ignored) := by
  unfold procedure Reaction.added Reaction.removed Reaction.subscribe Reaction.unsubscribe
  rw [h]
  split <;> rfl

theorem perform_procedure (chat : Platform) (hs : s.store.Sound) (board : UInt64)
    (x : ReactionEvent) : ∃ outcome s', s.perform chat (x.procedure board) = (.ok outcome, s') ∧
      s'.store.Sound ∧ Handled board x s outcome s' := by
  have hignored (hrun : s.perform chat (x.procedure board) = (.ok .ignored, s))
      (heffect : x.effect? board s.store = none) :
      ∃ outcome s', s.perform chat (x.procedure board) = (.ok outcome, s') ∧
        s'.store.Sound ∧ Handled board x s outcome s' :=
    ⟨.ignored, s, hrun, hs, handled_ignored heffect⟩
  cases ht : x.reaction.threshold? board with
  | none =>
    refine hignored ?_ ?_
    · rw [procedure_of_none ht, Session.perform_done]
    · rw [effect?, ht, Option.filter_none]
  | some t =>
    cases hadded : x.added with
    | true =>
      have hprocedure : x.procedure board = Reaction.added board x.reaction := if_pos hadded
      rw [hprocedure] at hignored ⊢
      by_cases htracks : s.store.tracks x.reaction.ref
      · exact perform_added chat hs hadded ht htracks
      · refine hignored (perform_added_untracked chat ht htracks) ?_
        rw [effect?, ht, hadded, Option.filter_some, if_neg (by simpa using htracks)]
    | false =>
      have hprocedure : x.procedure board = Reaction.removed board x.reaction :=
        if_neg (by simp [hadded])
      rw [hprocedure] at hignored ⊢
      by_cases hbefore : s.store.threshold? x.reaction.ref x.reaction.user = some t
      · exact ⟨_, perform_removed chat hs hadded ht hbefore⟩
      · refine hignored (perform_removed_other chat hs ht hbefore) ?_
        rw [effect?, ht, hadded, Option.filter_some, if_neg (by simpa using hbefore)]

end ReactionEvent

end StatusBoard
