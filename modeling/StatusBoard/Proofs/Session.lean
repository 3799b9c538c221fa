import StatusBoard.Cycle
import StatusBoard.Proofs.Procedure
import StatusBoard.Proofs.Store.Invariant
import StatusBoard.Reaction
import StatusBoard.Tracking.Lifecycle

/-!
# Sessions

A session is a run of the board on its own: nobody else writes to the store, and the chat platform
and the master list answer as they like.  Everything that the board does for someone else is an
`Occasion`.
-/

namespace StatusBoard

/-- A call and what became of it. -/
structure Exchange where
  call : ChatCall
  result : Except ChatError call.Reply

/-- How a chat platform answers, which may depend on all that it was asked and answered before. -/
abbrev Platform := List Exchange → (c : ChatCall) → Response c.Reply

/-- The store, the exchanges so far, latest first, and the answers that polls are going to get. -/
structure Session where
  store : Store := {}
  log : List Exchange := []
  polls : Nat → PollAnswer

namespace Session

variable {α : Type}

/-- What each kind of step does to a session. -/
def surroundings (chat : Platform) : Surroundings Session where
  transact t s := ((t.attempt s.store).1, { s with store := (t.attempt s.store).2 })
  call c s :=
    let response := chat s.log c
    (response, { s with log := ⟨c, response.inTime⟩ :: s.log })
  poll s := (s.polls 0, { s with polls := fun n => s.polls (n + 1) })

/-- Carry out a procedure. -/
def perform (chat : Platform) (p : Procedure α) (s : Session) : α × Session :=
  p.run (surroundings chat) s

section Steps

variable {β γ : Type} (chat : Platform) (s : Session)

theorem perform_done (a : α) : s.perform chat (.done a) = (a, s) := rfl

theorem perform_transact (t : Transaction γ) (next : Except StoreError γ → Procedure α) :
    s.perform chat (.transact t next) =
      Session.perform chat (next (t.attempt s.store).1) { s with store := (t.attempt s.store).2 } :=
  rfl

theorem transact_ok {t : Transaction γ} {a : γ} {store : Store}
    (h : t.run s.store = .ok (a, store)) :
    (surroundings chat).transact t s = (.ok a, { s with store := store }) := by
  simp only [surroundings, Transaction.attempt_of_ok h]

/-- A transaction that succeeds goes on with its result. -/
theorem perform_transact_ok {t : Transaction γ} {a : γ} {store : Store}
    (h : t.run s.store = .ok (a, store)) (next : Except StoreError γ → Procedure α) :
    s.perform chat (.transact t next) =
      Session.perform chat (next (.ok a)) { s with store := store } :=
  Procedure.run_transact (transact_ok chat s h) next

/-- A transaction that only reads changes nothing. -/
theorem perform_transact_read {t : Transaction γ} {a : γ} (h : t.run s.store = .ok (a, s.store))
    (next : Except StoreError γ → Procedure α) :
    s.perform chat (.transact t next) = s.perform chat (next (.ok a)) :=
  perform_transact_ok chat s h next

theorem perform_call (c : ChatCall) (next : Except ChatError c.Reply → Procedure α) :
    s.perform chat (.call c next) = Session.perform chat (next (chat s.log c).inTime)
      { s with log := ⟨c, (chat s.log c).inTime⟩ :: s.log } := rfl

theorem perform_poll (next : PollAnswer → Procedure α) :
    s.perform chat (.poll next) =
      Session.perform chat (next (s.polls 0)) { s with polls := fun n => s.polls (n + 1) } := rfl

theorem perform_bind (p : Procedure β) (f : β → Procedure α) :
    s.perform chat (p >>= f) = (s.perform chat p).2.perform chat (f (s.perform chat p).1) :=
  Procedure.run_bind _ p f s

/-- A procedure that succeeds goes on with its result. -/
theorem perform_run_bind_ok {ε : Type} {s s' : Session} {p : ExceptT ε Procedure β} {b : β}
    (h : s.perform chat p.run = (.ok b, s')) (f : β → ExceptT ε Procedure α) :
    s.perform chat (p >>= f).run = s'.perform chat (f b).run := by
  rw [ExceptT.run_bind, perform_bind, h]

/-- A procedure that fails does not go on. -/
theorem perform_run_bind_error {ε : Type} {s s' : Session} {p : ExceptT ε Procedure β} {e : ε}
    (h : s.perform chat p.run = (.error e, s')) (f : β → ExceptT ε Procedure α) :
    s.perform chat (p >>= f).run = (.error e, s') := by
  rw [ExceptT.run_bind, perform_bind, h]
  rfl

/-- Ignoring the result of a procedure makes no difference to the session. -/
theorem perform_ignore (p : Procedure β) :
    (s.perform chat (p >>= fun _ => (pure () : Procedure Unit))).2 = (s.perform chat p).2 := by
  rw [perform_bind]
  rfl

end Steps

/-- What every success of a procedure's transactions keeps holds after the procedure. -/
theorem perform_keeps {P : Store → Prop} (chat : Platform) {p : Procedure α}
    (hp : p.Only (fun _ t => t.Keeps P)) {s : Session} (hs : P s.store) :
    P (s.perform chat p).2.store := by
  refine Procedure.run_induction (I := fun s : Session => P s.store) ?_ ?_ ?_ hp hs
  · intro γ t s ht hs
    exact ht.attempt hs
  · intro c s hs
    exact hs
  · intro s hs
    exact hs

/-- What holds of all answers that polls are going to get goes on to hold. -/
theorem perform_polls {P : PollAnswer → Prop} (chat : Platform) (p : Procedure α) {s : Session}
    (hs : ∀ n, P (s.polls n)) : ∀ n, P ((s.perform chat p).2.polls n) := by
  induction p generalizing s with
  | done a => exact hs
  | transact t next ih => exact ih _ hs
  | call c next ih => exact ih _ hs
  | poll next ih => exact ih _ fun n => hs (n + 1)

/-- What holds of all calls so far and of those of a procedure holds of all calls after it. -/
theorem perform_log {Q : ChatCall → Prop} (chat : Platform) {p : Procedure α} (hp : p.Calls Q)
    {s : Session} (hs : ∀ e ∈ s.log, Q e.call) : ∀ e ∈ (s.perform chat p).2.log, Q e.call := by
  induction hp generalizing s with
  | done a => exact hs
  | transact _ ih => exact ih _ hs
  | call hc _ ih => exact ih _ (List.forall_mem_cons.2 ⟨hc, hs⟩)
  | poll _ ih => exact ih _ hs

/-- What holds of every call with the platform's answer holds of all exchanges of a procedure. -/
theorem perform_exchanges {Q : Exchange → Prop} (chat : Platform)
    (hchat : ∀ log c, Q ⟨c, (chat log c).inTime⟩) (p : Procedure α) {s : Session}
    (hs : ∀ e ∈ s.log, Q e) : ∀ e ∈ (s.perform chat p).2.log, Q e := by
  induction p generalizing s with
  | done a => exact hs
  | transact t next ih => exact ih _ hs
  | call c next ih => exact ih _ (List.forall_mem_cons.2 ⟨hchat s.log c, hs⟩)
  | poll next ih => exact ih _ hs

/-- One step of a procedure leaves the store as it is or is one of its transactions. -/
theorem step_store {P : (γ : Type) → Transaction γ → Prop} (chat : Platform) {p : Procedure α}
    (hp : p.Only P) (s : Session) : (p.step (surroundings chat) s).2.store = s.store ∨
      ∃ γ t, P γ t ∧ (p.step (surroundings chat) s).2.store = (t.attempt s.store).2 := by
  cases hp with
  | done a => exact .inl rfl
  | transact ht _ => exact .inr ⟨_, _, ht, rfl⟩
  | call _ => exact .inl rfl
  | poll _ => exact .inl rfl

end Session

/-- The transactions of which everything is made that the board does. -/
inductive Store.Access : (γ : Type) → Transaction γ → Prop
  | removeChannel (c : ChannelRef) : Access _ (removeChannel c)
  | track (t : Tracking) : Access _ (track t)
  | untrack (r : MessageRef) : Access _ (untrack r)
  | listTrackings : Access _ listTrackings
  | listChannelTrackings (c : ChannelRef) : Access _ (listChannelTrackings c)
  | setThreshold (r : MessageRef) (user : UInt64) (t : Threshold) : Access _ (setThreshold r user t)
  | removeSubscription (r : MessageRef) (user : UInt64) (t : Threshold) :
    Access _ (removeSubscription r user t)
  | listSubscriptions (refs : List MessageRef) : Access _ (listSubscriptions refs)
  | load : Access _ load
  | replace (refs : List MessageRef) (entries : Snapshot) : Access _ (replace refs entries)

/-- The transactions of everything that the board does apart from handling reactions. -/
inductive Store.Upkeep : (γ : Type) → Transaction γ → Prop
  | removeChannel (c : ChannelRef) : Upkeep _ (removeChannel c)
  | track (t : Tracking) : Upkeep _ (track t)
  | untrack (r : MessageRef) : Upkeep _ (untrack r)
  | listTrackings : Upkeep _ listTrackings
  | listChannelTrackings (c : ChannelRef) : Upkeep _ (listChannelTrackings c)
  | listSubscriptions (refs : List MessageRef) : Upkeep _ (listSubscriptions refs)
  | load : Upkeep _ load
  | replace (refs : List MessageRef) (entries : Snapshot) : Upkeep _ (replace refs entries)

/-- The transactions of everything that the board does apart from creating trackings and handling
reactions. -/
inductive Store.Routine : (γ : Type) → Transaction γ → Prop
  | removeChannel (c : ChannelRef) : Routine _ (removeChannel c)
  | untrack (r : MessageRef) : Routine _ (untrack r)
  | listTrackings : Routine _ listTrackings
  | listSubscriptions (refs : List MessageRef) : Routine _ (listSubscriptions refs)
  | load : Routine _ load
  | replace (refs : List MessageRef) (entries : Snapshot) : Routine _ (replace refs entries)

theorem Store.Routine.upkeep {γ : Type} {t : Transaction γ} (h : Routine γ t) : Upkeep γ t := by
  cases h with
  | removeChannel c => exact .removeChannel c
  | untrack r => exact .untrack r
  | listTrackings => exact .listTrackings
  | listSubscriptions refs => exact .listSubscriptions refs
  | load => exact .load
  | replace refs entries => exact .replace refs entries

theorem Store.Upkeep.access {γ : Type} {t : Transaction γ} (h : Upkeep γ t) : Access γ t := by
  cases h with
  | removeChannel c => exact .removeChannel c
  | track t => exact .track t
  | untrack r => exact .untrack r
  | listTrackings => exact .listTrackings
  | listChannelTrackings c => exact .listChannelTrackings c
  | listSubscriptions refs => exact .listSubscriptions refs
  | load => exact .load
  | replace refs entries => exact .replace refs entries

theorem Store.Routine.access {γ : Type} {t : Transaction γ} (h : Routine γ t) : Access γ t :=
  h.upkeep.access

/-- What the board is asked to do.  Reactions come with the id of the board's own user. -/
inductive Occasion
  | create (channel : ChannelRef) (raw : String)
  | ensure (channel : ChannelRef) (raw : String)
  | discard (r : MessageRef)
  | messageDeleted (r : MessageRef)
  | channelDeleted (c : ChannelRef)
  | reactionAdded (board : UInt64) (e : Reaction)
  | reactionRemoved (board : UInt64) (e : Reaction)
  | cycle

/-- Whether somebody reacted. -/
def Occasion.isReaction : Occasion → Bool
  | reactionAdded .. | reactionRemoved .. => true
  | _ => false

/-- Whether a tracking may be created. -/
def Occasion.creates : Occasion → Bool
  | create .. | ensure .. => true
  | _ => false

/-- What the board does then. -/
def Occasion.procedure : Occasion → Procedure Unit
  | create channel raw => do let _ ← (Tracking.create channel raw).run
  | ensure channel raw => do let _ ← (Tracking.ensure channel raw).run
  | discard r => do let _ ← (Tracking.discard r).run
  | messageDeleted r => do let _ ← Tracking.messageDeleted r
  | channelDeleted c => do let _ ← Tracking.channelDeleted c
  | reactionAdded board e => do let _ ← Reaction.added board e
  | reactionRemoved board e => do let _ ← Reaction.removed board e
  | cycle => do let _ ← Cycle.once.run

/-! ### What procedures are made of -/

namespace Procedure

open Store

variable {P : (γ : Type) → Transaction γ → Prop}

theorem only_offerThresholds (r : MessageRef) (thresholds : List Threshold) :
    (Tracking.offerThresholds r thresholds).Only P := by
  induction thresholds with
  | nil => exact only_pure ()
  | cons t rest ih =>
    apply (only_ask _).bind
    intro result
    cases result with
    | ok _ => exact ih
    | error e => exact only_pure ()

theorem only_checkedAddress (raw : String) :
    (liftM (Tracking.checkedAddress raw) : ExceptT TrackingError Procedure String).run.Only P := by
  cases Tracking.checkedAddress raw <;> exact only_pure _

theorem only_create (channel : ChannelRef) (raw : String) :
    (Tracking.create channel raw).run.Only Upkeep := by
  unfold Tracking.create
  apply (only_checkedAddress raw).run_bind
  intro address
  apply ((only_ask _).run_adapt _).run_bind
  intro id
  apply (only_access (.track _)).run_lift.run_bind
  intro result
  cases result with
  | ok _ =>
    apply (only_offerThresholds _ _).run_lift.run_bind
    intro _
    exact only_run_pure _
  | error e =>
    apply (only_ask _).run_lift.run_bind
    intro _
    exact only_run_throw _

theorem only_ensure (channel : ChannelRef) (raw : String) :
    (Tracking.ensure channel raw).run.Only Upkeep := by
  unfold Tracking.ensure
  apply (only_checkedAddress raw).run_bind
  intro address
  apply ((only_access (.listChannelTrackings channel)).run_adapt _).run_bind
  intro existing
  split
  · exact only_run_pure _
  · exact only_create channel address

theorem only_discard (r : MessageRef) : (Tracking.discard r).run.Only Routine := by
  apply ((only_access (.untrack r)).run_adapt _).run_bind
  intro _
  apply (only_ask _).run_lift.run_bind
  intro _
  exact only_run_pure _

theorem only_subscribe (h : ∀ r user t, P _ (setThreshold r user t)) (board : UInt64)
    (e : Reaction) : (Reaction.subscribe board e).Only P := by
  rw [Reaction.subscribe]
  split
  · exact only_pure _
  · apply (only_access (h _ _ _)).bind
    intro _
    exact only_pure _

theorem only_added (h : ∀ r user t, P _ (setThreshold r user t)) (board : UInt64) (e : Reaction) :
    (Reaction.added board e).Only P := by
  apply (only_subscribe h board e).bind
  intro outcome
  split
  · apply (only_ask _).bind
    intro _
    exact only_pure _
  · exact only_pure _

theorem only_unsubscribe (h : ∀ r user t, P _ (removeSubscription r user t)) (board : UInt64)
    (e : Reaction) : (Reaction.unsubscribe board e).Only P := by
  rw [Reaction.unsubscribe]
  split
  · exact only_pure _
  · apply (only_access (h _ _ _)).bind
    intro _
    exact only_pure _

theorem only_deliver (c : Change) : (Cycle.deliver c).run.Only P := by
  unfold Cycle.deliver
  split
  · exact only_run_throw _
  · split
    · exact only_run_pure _
    · exact (only_ask _).run_lift

theorem only_announce (huntrack : ∀ r, P _ (untrack r)) (report : CycleReport) (c : Change) :
    (Cycle.announce report c).run.Only P := by
  apply (only_deliver c).run_bind
  intro result
  split
  · exact only_run_pure _
  · apply Only.run_bind
    · apply Only.run_lift
      apply (only_access (huntrack c.ref)).bind
      intro dropped
      cases dropped <;> exact only_pure _
    · intro _
      exact only_run_pure _
  · exact only_run_pure _

theorem only_announceAll (huntrack : ∀ r, P _ (untrack r)) (changes : List Change)
    (report : CycleReport) : (changes.foldlM Cycle.announce report).run.Only P := by
  induction changes generalizing report with
  | nil => exact only_run_pure _
  | cons c rest ih =>
    rw [List.foldlM_cons]
    exact (only_announce huntrack report c).run_bind ih

theorem only_carryOut (changes : List Change) : (Cycle.carryOut changes).run.Only Routine := by
  by_cases h : changes = []
  · rw [h, Cycle.carryOut_nil]
    exact .done _
  · rw [Cycle.carryOut_run h]
    refine .transact (.listSubscriptions _) fun listed => ?_
    cases listed with
    | error e => exact .done _
    | ok subscriptions =>
      apply (only_announceAll .untrack _ _).bind
      intro announced
      cases announced with
      | error stop => exact .done _
      | ok report =>
        refine .transact (.replace _ _) fun replaced => ?_
        cases replaced <;> exact .done _

theorem only_once : Cycle.once.run.Only Routine := by
  rw [Cycle.once_run]
  refine .poll fun answer => ?_
  cases answer with
  | error e => exact .done _
  | ok entries =>
    refine .transact .listTrackings fun listed => ?_
    cases listed with
    | error e => exact .done _
    | ok trackings =>
      refine .transact .load fun loaded => ?_
      cases loaded with
      | error e => exact .done _
      | ok announced => exact only_carryOut _

theorem Only.ignore {α : Type} {p : Procedure α} (hp : p.Only P) :
    (p >>= fun _ => (pure () : Procedure Unit)).Only P := hp.bind fun _ => only_pure ()

theorem only_routine {o : Occasion} (hcreates : o.creates = false) (h : o.isReaction = false) :
    o.procedure.Only Routine := by
  cases o with
  | create channel raw => cases hcreates
  | ensure channel raw => cases hcreates
  | discard r => exact (only_discard r).ignore
  | messageDeleted r => exact ((only_access (.untrack r)).bind fun _ => only_pure _).ignore
  | channelDeleted c => exact ((only_access (.removeChannel c)).bind fun _ => only_pure _).ignore
  | reactionAdded board e => cases h
  | reactionRemoved board e => cases h
  | cycle => exact only_once.ignore

theorem only_upkeep {o : Occasion} (h : o.isReaction = false) : o.procedure.Only Upkeep := by
  cases hcreates : o.creates with
  | false => exact (only_routine hcreates h).imp fun _ _ => Routine.upkeep
  | true =>
    cases o with
    | create channel raw => exact (only_create channel raw).ignore
    | ensure channel raw => exact (only_ensure channel raw).ignore
    | _ => cases hcreates

/-- The board touches the store by the listed transactions only. -/
theorem only_occasion (o : Occasion) : o.procedure.Only Access := by
  cases h : o.isReaction with
  | false => exact (only_upkeep h).imp fun _ _ => Upkeep.access
  | true =>
    cases o with
    | reactionAdded board e => exact (only_added .setThreshold board e).ignore
    | reactionRemoved board e => exact (only_unsubscribe .removeSubscription board e).ignore
    | _ => cases h

end Procedure

end StatusBoard
