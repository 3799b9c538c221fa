import StatusBoard.Proofs.Reaction.Effect
import StatusBoard.Proofs.Store.Retained

/-!
# What a history of reactions means

The board works on several occasions at once, and its tasks go on step by step in any order
(`Work`).  At every moment a user is subscribed to a message exactly if the message is tracked and a
reaction of the user stands: of the reactions that the board was told of since the message is
tracked, the last one that was added names the threshold, and it was not removed later.
-/

namespace StatusBoard

open Store

/-! ### Reactions that stand -/

namespace ReactionEvent

/-- Whether the reaction is one of a user to a message, with the emoji of a threshold. -/
def names (x : ReactionEvent) (r : MessageRef) (user : UInt64) (t : Threshold) : Prop :=
  x.reaction.ref = r ∧ x.reaction.user = user ∧ Threshold.ofEmoji? x.reaction.emoji = some t

/-- Whether a user added the reaction with a threshold. -/
def adds (x : ReactionEvent) (r : MessageRef) (user : UInt64) (t : Threshold) : Prop :=
  x.added = true ∧ x.names r user t

/-- Whether the reaction of a user with a threshold was removed. -/
def removes (x : ReactionEvent) (r : MessageRef) (user : UInt64) (t : Threshold) : Prop :=
  x.added = false ∧ x.names r user t

end ReactionEvent

/-- Among these reactions, latest first, the last one with a threshold that a user added to a
message names this threshold, and none with this threshold was removed later. -/
def Stands (r : MessageRef) (user : UInt64) (t : Threshold) (events : List ReactionEvent) : Prop :=
  ∃ later x earlier, events = later ++ x :: earlier ∧ x.adds r user t ∧
    ∀ y ∈ later, (∀ t', ¬ y.adds r user t') ∧ ¬ y.removes r user t

section Stands

variable {r : MessageRef} {user : UInt64} {t : Threshold} {x : ReactionEvent}
variable {events : List ReactionEvent}

theorem not_stands_nil : ¬ Stands r user t [] := by
  rintro ⟨later, x, earlier, heq, -⟩
  exact List.append_ne_nil_of_right_ne_nil later (List.cons_ne_nil x earlier) heq.symm

/-- What the latest reaction does to what stands. -/
theorem stands_cons : Stands r user t (x :: events) ↔ x.adds r user t ∨
    (∀ t', ¬ x.adds r user t') ∧ ¬ x.removes r user t ∧ Stands r user t events := by
  constructor
  · rintro ⟨later, x', earlier, heq, hadds, hlater⟩
    cases later with
    | nil =>
      cases heq
      exact .inl hadds
    | cons y later =>
      cases heq
      rw [List.forall_mem_cons] at hlater
      exact .inr ⟨hlater.1.1, hlater.1.2, later, x', earlier, rfl, hadds, hlater.2⟩
  · rintro (hadds | ⟨hadds, hremoves, later, x', earlier, rfl, hadds', hlater⟩)
    · exact ⟨[], x, events, rfl, hadds, by simp⟩
    · exact ⟨x :: later, x', earlier, rfl, hadds',
        List.forall_mem_cons.2 ⟨⟨hadds, hremoves⟩, hlater⟩⟩

end Stands

namespace ReactionEvent

variable {board : UInt64} {x : ReactionEvent} {s s' : Session} {outcome : ReactionOutcome}
variable {r : MessageRef} {user : UInt64} {t : Threshold}

theorem effect?_of_ne (h : x.reaction.user ≠ board) (htracks : s.store.tracks x.reaction.ref) :
    x.effect? board s.store = (Threshold.ofEmoji? x.reaction.emoji).filter fun t =>
      x.added || s.store.threshold? x.reaction.ref x.reaction.user = some t := by
  rw [effect?, Reaction.threshold?_of_ne h]
  congr 1
  funext t
  cases x.added <;> simp [htracks]

/-- Handling a reaction changes the thresholds on a tracked message as it changes what stands. -/
theorem Handled.threshold_iff (h : Handled board x s outcome s') (htracks : s.store.tracks r)
    (huser : user ≠ board) : s'.store.threshold? r user = some t ↔ x.adds r user t ∨
      (∀ t', ¬ x.adds r user t') ∧ ¬ x.removes r user t ∧ s.store.threshold? r user = some t := by
  by_cases hown : r = x.reaction.ref ∧ user = x.reaction.user
  · obtain ⟨rfl, rfl⟩ := hown
    have heffect := effect?_of_ne huser htracks
    have hthreshold := h.threshold_eq
    simp only [adds, removes, names, true_and]
    cases hemoji : Threshold.ofEmoji? x.reaction.emoji with
    | none =>
      rw [hemoji, Option.filter_none] at heffect
      rw [hthreshold, heffect]
      simp
    | some t' =>
      rw [hemoji, Option.filter_some] at heffect
      cases hadded : x.added with
      | true =>
        rw [hadded, Bool.true_or, if_pos rfl] at heffect
        rw [hthreshold, heffect, hadded]
        simp
      | false =>
        rw [hadded, Bool.false_or] at heffect
        by_cases hcurrent : s.store.threshold? x.reaction.ref x.reaction.user = some t'
        · rw [if_pos (decide_eq_true hcurrent)] at heffect
          rw [hthreshold, heffect, hadded, hcurrent]
          simp
        · rw [if_neg (by simpa using hcurrent)] at heffect
          rw [hthreshold, heffect]
          have hother (heq : s.store.threshold? x.reaction.ref x.reaction.user = some t) :
              t' ≠ t := by
            rintro rfl
            exact hcurrent heq
          simpa using hother
  · rw [h.row.threshold? hown]
    have hnames (t' : Threshold) : ¬ x.names r user t' := by
      rintro ⟨rfl, rfl, -⟩
      exact hown ⟨rfl, rfl⟩
    simp [adds, removes, hnames]

/-! ### The steps of a handler -/

/-- After its first step a handler does not touch the store any more. -/
theorem only_after_step {P : (γ : Type) → Transaction γ → Prop} (chat : Platform) (board : UInt64)
    (x : ReactionEvent) (s : Session) :
    ((x.procedure board).step (Session.surroundings chat) s).1.Only P := by
  cases ht : x.reaction.threshold? board with
  | none =>
    rw [procedure_of_none ht]
    exact .done _
  | some t =>
    unfold procedure
    split
    · rw [Reaction.added_run ht, Procedure.step]
      dsimp only
      split
      · exact .call fun _ => .done _
      · exact .done _
    · rw [Reaction.removed_run ht]
      exact .done _

/-- The first step of a handler leads to the store to which the handler leads. -/
theorem store_after_step (chat : Platform) (board : UInt64) (x : ReactionEvent) (s : Session) :
    ((x.procedure board).step (Session.surroundings chat) s).2.store =
      (s.perform chat (x.procedure board)).2.store := by
  have hrest := only_after_step (P := fun _ _ => False) chat board x s
  have hkeeps := Session.perform_keeps chat (hrest.imp fun _ _ => False.elim)
    (P := (· = ((x.procedure board).step (Session.surroundings chat) s).2.store)) rfl
  rw [Session.perform, Procedure.run_step] at hkeeps
  exact hkeeps.symm

end ReactionEvent

/-! ### Many tasks -/

/-- A session, and the tasks of the board that are not done yet. -/
structure Work where
  session : Session
  tasks : List (Procedure Unit) := []

/-- What can happen next. -/
inductive Moment
  /-- The board is asked for something. -/
  | occasion (o : Occasion) (ho : o.isReaction = false)
  /-- The board handles a reaction, up to the call that it may ask for. -/
  | reaction (x : ReactionEvent)
  /-- One of the tasks goes on by a step. -/
  | step (i : Nat)

/-- The reaction that is handled at a moment. -/
def Moment.event? : Moment → Option ReactionEvent
  | reaction x => some x
  | _ => none

namespace Work

variable (chat : Platform) (board : UInt64)

/-- The work after one more moment. -/
def next (w : Work) : Moment → Work
  | .occasion o _ => { w with tasks := w.tasks ++ [o.procedure] }
  | .reaction x =>
    let (rest, session) := (x.procedure board).step (Session.surroundings chat) w.session
    ⟨session, w.tasks ++ [do let _ ← rest]⟩
  | .step i =>
    match w.tasks[i]? with
    | none => w
    | some p =>
      let (rest, session) := p.step (Session.surroundings chat) w.session
      ⟨session, w.tasks.set i rest⟩

/-- The work after some moments, latest first, from the empty store on. -/
def after (polls : Nat → PollAnswer) : List Moment → Work
  | [] => { session := { polls := polls } }
  | m :: earlier => (after polls earlier).next chat board m

/-- The reactions that were handled since a message is tracked, latest first. -/
def sinceTracked (polls : Nat → PollAnswer) (r : MessageRef) : List Moment → List ReactionEvent
  | [] => []
  | m :: earlier =>
    let before := after chat board polls earlier
    if before.session.store.tracks r && (before.next chat board m).session.store.tracks r then
      m.event?.toList ++ sinceTracked polls r earlier
    else []

/-! ### What a moment does to the store -/

/-- The store is sound, and the tasks leave handling reactions to the handlers. -/
structure Orderly (w : Work) : Prop where
  sound : w.session.store.Sound
  tasks : ∀ p ∈ w.tasks, p.Only Upkeep

variable {chat board} {w : Work}

/-- A moment at which no reaction is handled. -/
theorem Orderly.retains (h : w.Orderly) {m : Moment} (hm : m.event? = none) :
    w.session.store.Retains (w.next chat board m).session.store := by
  cases m with
  | occasion o ho => exact .of_same h.sound rfl
  | reaction x => cases hm
  | step i =>
    unfold next
    dsimp only
    split
    · exact .of_same h.sound rfl
    · next p hp =>
      rcases Session.step_store chat (h.tasks p (List.mem_of_getElem? hp)) w.session with
        hstore | ⟨γ, t, ht, hstore⟩
      · rw [hstore]
        exact .of_same h.sound rfl
      · rw [hstore]
        exact ht.retains.attempt h.sound

/-- A moment at which a reaction is handled. -/
theorem Orderly.handled (h : w.Orderly) (x : ReactionEvent) : ∃ outcome s',
    w.session.perform chat (x.procedure board) = (.ok outcome, s') ∧
      (w.next chat board (.reaction x)).session.store = s'.store ∧ s'.store.Sound ∧
      x.Handled board w.session outcome s' := by
  obtain ⟨outcome, s', hrun, hsound, hhandled⟩ := x.perform_procedure chat h.sound board
  refine ⟨outcome, s', hrun, ?_, hsound, hhandled⟩
  exact (x.store_after_step chat board w.session).trans (by rw [hrun])

theorem Orderly.next (h : w.Orderly) (m : Moment) : (w.next chat board m).Orderly := by
  constructor
  · cases hm : m.event? with
    | none => exact (h.retains hm).sound
    | some x =>
      cases m with
      | reaction x =>
        obtain ⟨outcome, s', -, hstore, hsound, -⟩ := @Orderly.handled chat board w h x
        exact hstore ▸ hsound
      | _ => cases hm
  · cases m with
    | occasion o ho =>
      have ho := Procedure.only_upkeep ho
      exact List.forall_mem_append.2 ⟨h.tasks, List.forall_mem_singleton.2 ho⟩
    | reaction x =>
      have hrest := x.only_after_step (P := Upkeep) chat board w.session
      exact List.forall_mem_append.2 ⟨h.tasks, List.forall_mem_singleton.2 hrest.ignore⟩
    | step i =>
      unfold Work.next
      dsimp only
      split
      · exact h.tasks
      · next p hp =>
        intro q hq
        rcases List.mem_or_eq_of_mem_set hq with hq | rfl
        · exact h.tasks q hq
        · exact (h.tasks p (List.mem_of_getElem? hp)).step _ _

/-! ### What holds at every moment -/

theorem orderly_after (polls : Nat → PollAnswer) (history : List Moment) :
    (after chat board polls history).Orderly := by
  induction history with
  | nil => exact ⟨sound_empty, by simp [after]⟩
  | cons m earlier ih => exact ih.next m

/-- The thresholds of everybody but the board are the ones that stand. -/
def Explained (board : UInt64) (s : Store) (events : MessageRef → List ReactionEvent) : Prop :=
  ∀ r user t, user ≠ board →
    (s.threshold? r user = some t ↔ s.tracks r ∧ Stands r user t (events r))

variable {events : MessageRef → List ReactionEvent}

theorem Explained.retains {s s' : Store} (h : Explained board s events) (hs : s.Sound)
    (hretains : s.Retains s') :
    Explained board s' fun r => if s.tracks r && s'.tracks r then events r else [] := by
  intro r user t huser
  rw [hretains.threshold?]
  by_cases htracks' : s'.tracks r
  · by_cases htracks : s.tracks r
    · simp [htracks, htracks', h r user t huser]
    · simp [htracks, htracks', hs.threshold?_eq_none htracks, not_stands_nil]
  · simp [htracks']

theorem Explained.handled {s s' : Session} {x : ReactionEvent} {outcome : ReactionOutcome}
    (h : Explained board s.store events) (hs' : s'.store.Sound)
    (hhandled : x.Handled board s outcome s') : Explained board s'.store fun r =>
      if s.store.tracks r && s'.store.tracks r then x :: events r else [] := by
  intro r user t huser
  have hsame := hhandled.row.tracks r
  by_cases htracks : s.store.tracks r
  · simp [hsame, htracks, hhandled.threshold_iff htracks huser, stands_cons, h r user t huser]
  · have hnone := hs'.threshold?_eq_none (r := r) (by rwa [hsame]) user
    simp [hsame, htracks, hnone]

theorem explained_after (polls : Nat → PollAnswer) (history : List Moment) :
    Explained board (after chat board polls history).session.store
      fun r => sinceTracked chat board polls r history := by
  induction history with
  | nil =>
    intro r user t _
    have hnone : (after chat board polls []).session.store.threshold? r user = none := rfl
    simp [hnone, sinceTracked, not_stands_nil]
  | cons m earlier ih =>
    have horderly : (after chat board polls earlier).Orderly := orderly_after polls earlier
    cases m with
    | reaction x =>
      obtain ⟨outcome, s', -, hstore, hsound, hhandled⟩ := horderly.handled x
      have hexplained := ih.handled hsound hhandled
      rw [← hstore] at hexplained
      exact hexplained
    | occasion o ho => exact ih.retains horderly.sound (horderly.retains rfl)
    | step i => exact ih.retains horderly.sound (horderly.retains rfl)

/-- Whatever the board was asked for and told of, and in whichever order its tasks went on, a user
other than the board is subscribed to a message exactly if the message is tracked and a reaction of
the user stands.  Whichever reaction comes next changes at most one subscription, its outcome is
this change, and it asks for a call exactly if the user switched: the older reaction is taken
off. -/
theorem subscribed_iff_stands (chat : Platform) (board : UInt64) (polls : Nat → PollAnswer)
    (history : List Moment) :
    let s := (after chat board polls history).session
    (∀ r, ∃ found, (listSubscriptions [r]).run s.store = .ok (found, s.store) ∧
      ∀ user t, user ≠ board → (⟨r, user, t⟩ ∈ found ↔
        s.store.tracks r ∧ Stands r user t (sinceTracked chat board polls r history))) ∧
    ∀ x : ReactionEvent, ∃ outcome s', s.perform chat (x.procedure board) = (.ok outcome, s') ∧
      (after chat board polls (.reaction x :: history)).session.store = s'.store ∧
      x.Handled board s outcome s' := by
  intro s
  have horderly : (after chat board polls history).Orderly := orderly_after polls history
  constructor
  · intro r
    obtain ⟨found, hfound, hmem⟩ := horderly.sound.listSubscriptions_run [r]
    refine ⟨found, hfound, fun user t huser => ?_⟩
    rw [hmem, List.mem_singleton, eq_self, true_and]
    exact explained_after polls history r user t huser
  · intro x
    obtain ⟨outcome, s', hrun, hstore, -, hhandled⟩ := horderly.handled x
    exact ⟨outcome, s', hrun, hstore, hhandled⟩

/-- A user switches from three to five while the board still offers the emoji, and then takes three
back.  The subscription at five stands. -/
theorem subscribed_iff_stands_switch :
    let channel : ChannelRef := ⟨1, 2⟩
    let r := channel.toMessage 3
    let three : Threshold := ⟨3, by decide, by decide⟩
    let five : Threshold := ⟨5, by decide, by decide⟩
    let chat : Platform := fun _ c => match c with
      | .post _ _ => .answer (.ok 3)
      | _ => .silence
    let history : List Moment := [.reaction ⟨false, r, 7, three.emoji⟩, .step 0,
      .reaction ⟨true, r, 7, five.emoji⟩, .reaction ⟨true, r, 7, three.emoji⟩, .step 0, .step 0,
      .occasion (.create channel "1.2.3.4:8303") rfl]
    let s := (after chat 1 (fun _ => .ok []) history).session
    ∃ found, (listSubscriptions [r]).run s.store = .ok (found, s.store) ∧
      ⟨r, 7, five⟩ ∈ found := by
  intro channel r three five chat history s
  obtain ⟨hsubscribed, -⟩ := subscribed_iff_stands chat 1 (fun _ => .ok []) history
  obtain ⟨found, hfound, hmem⟩ := hsubscribed r
  have hevents : sinceTracked chat 1 (fun _ => .ok []) r history =
      [⟨false, r, 7, three.emoji⟩, ⟨true, r, 7, five.emoji⟩, ⟨true, r, 7, three.emoji⟩] := by
    decide +kernel
  refine ⟨found, hfound, (hmem 7 five (by decide)).2 ⟨by decide +kernel, ?_⟩⟩
  rw [hevents]
  refine ⟨[⟨false, r, 7, three.emoji⟩], ⟨true, r, 7, five.emoji⟩, [⟨true, r, 7, three.emoji⟩], rfl,
    ⟨rfl, rfl, rfl, five.ofEmoji?_emoji⟩, ?_⟩
  rw [List.forall_mem_singleton]
  constructor
  · rintro t ⟨hadded, -⟩
    cases hadded
  · rintro ⟨-, -, -, hemoji⟩
    rw [three.ofEmoji?_emoji] at hemoji
    exact absurd hemoji (by decide)

end Work

end StatusBoard
