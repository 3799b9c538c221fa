import Mathlib.Data.Finset.Insert
import Mathlib.Data.Finset.Erase
import StatusBoard.Proofs.Reaction.Handling

/-!
# The users around a message

Users put threshold reactions on a tracked message and take them off at any time.  The platform
reports each change, and the board handles the reports one after the other, oldest first.  When the
board takes a reaction off, the platform reports that as well.  So the board decides on what it was
told so far, while the reactions on the message may have changed since.

When all reports are handled, subscriptions and reactions agree.  On the way there a user may be
unsubscribed by the report of a removal that the board made itself: this takes a reaction that the
user has put on again before the board took it off.
-/

namespace StatusBoard

open Store

/-- A threshold's emoji in one of its spellings. -/
structure ThresholdEmoji where
  text : String
  threshold : Threshold
  spelled : Threshold.ofEmoji? text = some threshold
deriving DecidableEq

/-- The spelling that the board uses. -/
def Threshold.spelling (t : Threshold) : ThresholdEmoji := ⟨t.emoji, t, t.ofEmoji?_emoji⟩

/-- A reaction to a message was added or removed.  A removal may be the board's own. -/
structure ReactionReport where
  added : Bool
  user : UInt64
  emoji : ThresholdEmoji
  byBoard : Bool := false
deriving DecidableEq

namespace ReactionReport

def toReaction (r : MessageRef) (x : ReactionReport) : Reaction := ⟨r, x.user, x.emoji.text⟩

/-- Whether a user took the reaction with a threshold off, or the board did for the user. -/
def removes (x : ReactionReport) (user : UInt64) (t : Threshold) : Prop :=
  x.added = false ∧ x.user = user ∧ x.emoji.threshold = t

/-- Whether a user put the reaction with a threshold on. -/
def adds (x : ReactionReport) (user : UInt64) (t : Threshold) : Prop :=
  x.added = true ∧ x.user = user ∧ x.emoji.threshold = t

/-- The reactions of a user after a report, for one who knows them from reports only. -/
def told (user : UInt64) (known : Finset Threshold) (x : ReactionReport) : Finset Threshold :=
  if x.user = user then
    if x.added then insert x.emoji.threshold known else known.erase x.emoji.threshold
  else known

/-- A reaction that was known and is not there any more is reported to be removed. -/
theorem exists_removes {user : UInt64} {t : Threshold} {reports : List ReactionReport}
    {known : Finset Threshold} (ht : t ∈ known) (hgone : t ∉ reports.foldl (told user) known) :
    ∃ x ∈ reports, x.removes user t := by
  induction reports generalizing known with
  | nil => exact absurd ht hgone
  | cons x rest ih =>
    by_cases hx : x.removes user t
    · exact ⟨x, List.mem_cons_self, hx⟩
    · have hkept : t ∈ told user known x := by
        unfold told
        split
        · next huser =>
          split
          · exact Finset.mem_insert_of_mem ht
          · next hadded =>
            refine Finset.mem_erase.2 ⟨fun heq => hx ⟨?_, huser, heq.symm⟩, ht⟩
            simpa using hadded
        · exact ht
      obtain ⟨y, hy, hremoves⟩ := ih hkept hgone
      exact ⟨y, List.mem_cons_of_mem x hy, hremoves⟩

end ReactionReport

/-- The store, the threshold reactions of the users on a message, and the reports that the board has
not handled yet, oldest first. -/
structure Audience where
  store : Store
  held : UInt64 → Finset Threshold := fun _ => ∅
  reports : List ReactionReport := []

namespace Audience

/-- A user puts a reaction on, unless it is there. -/
def putOn (user : UInt64) (emoji : ThresholdEmoji) (a : Audience) : Audience :=
  if emoji.threshold ∈ a.held user then a
  else { a with
    held := Function.update a.held user (insert emoji.threshold (a.held user))
    reports := a.reports ++ [{ added := true, user, emoji }] }

/-- A reaction of a user is taken off, if it is there. -/
def takeOff (byBoard : Bool) (user : UInt64) (emoji : ThresholdEmoji) (a : Audience) : Audience :=
  if emoji.threshold ∈ a.held user then { a with
    held := Function.update a.held user ((a.held user).erase emoji.threshold)
    reports := a.reports ++ [{ added := false, user, emoji, byBoard }] }
  else a

/-- What the steps of the board do.  Reactions are taken off on demand, and calls always succeed. -/
def surroundings (r : MessageRef) : Surroundings Audience where
  transact t a := ((t.attempt a.store).1, { a with store := (t.attempt a.store).2 })
  call c a :=
    match c with
    | .removeReaction r' user text =>
      match h : Threshold.ofEmoji? text with
      | some t => (.answer (.ok ()), if r' = r then a.takeOff true user ⟨text, t, h⟩ else a)
      | none => (.answer (.ok ()), a)
    | .edit .. | .delete .. | .addReaction .. => (.answer (.ok ()), a)
    | .post .. => (.silence, a)
  poll a := (.ok [], a)

/-- The board handles a report. -/
def handle (board : UInt64) (r : MessageRef) (x : ReactionReport) (a : Audience) :
    Except StoreError ReactionOutcome × Audience :=
  (if x.added then Reaction.added board (x.toReaction r)
    else Reaction.removed board (x.toReaction r)).run (surroundings r) a

/-- What may happen next. -/
inductive Turn
  | putOn (user : UInt64) (emoji : ThresholdEmoji)
  | takeOff (user : UInt64) (emoji : ThresholdEmoji)
  /-- The board handles the oldest report. -/
  | handle
deriving DecidableEq

/-- One turn.  The board itself is no user, and without reports it has nothing to handle. -/
def next (board : UInt64) (r : MessageRef) (a : Audience) : Turn → Audience
  | .putOn user emoji => if user = board then a else a.putOn user emoji
  | .takeOff user emoji => if user = board then a else a.takeOff false user emoji
  | .handle =>
    match a.reports with
    | [] => a
    | x :: rest => (handle board r x { a with reports := rest }).2

/-- Turns in any order. -/
def run (board : UInt64) (r : MessageRef) (a : Audience) (turns : List Turn) : Audience :=
  turns.foldl (next board r) a

variable {board : UInt64} {r : MessageRef} {a : Audience}

/-! ### Reports lead to what is on the message -/

/-- The reactions of a user change on the message, and the change is reported. -/
structure Grows (user : UInt64) (a a' : Audience) : Prop where
  store : a'.store = a.store
  reports : ∃ new, a'.reports = a.reports ++ new ∧ ∀ x ∈ new, x.user = user
  held : ∀ user' known, a.reports.foldl (ReactionReport.told user') known = a.held user' →
    a'.reports.foldl (ReactionReport.told user') known = a'.held user'

theorem grows_putOn (user : UInt64) (emoji : ThresholdEmoji) :
    Grows user a (a.putOn user emoji) := by
  unfold putOn
  split
  · exact ⟨rfl, ⟨[], by simp⟩, fun _ _ h => h⟩
  · refine ⟨rfl, ⟨_, rfl, by simp⟩, fun user' known h => ?_⟩
    rw [List.foldl_append, h, List.foldl_cons, List.foldl_nil, ReactionReport.told]
    by_cases huser : user = user'
    · simp [huser]
    · simp [huser, Function.update_of_ne (Ne.symm huser)]

theorem grows_takeOff (byBoard : Bool) (user : UInt64) (emoji : ThresholdEmoji) :
    Grows user a (a.takeOff byBoard user emoji) := by
  unfold takeOff
  split
  · refine ⟨rfl, ⟨_, rfl, by simp⟩, fun user' known h => ?_⟩
    rw [List.foldl_append, h, List.foldl_cons, List.foldl_nil, ReactionReport.told]
    by_cases huser : user = user'
    · simp [huser]
    · simp [huser, Function.update_of_ne (Ne.symm huser)]
  · exact ⟨rfl, ⟨[], by simp⟩, fun _ _ h => h⟩

/-- A known reaction that is taken off is about to be reported as removed, if not by this removal
then by an earlier one. -/
theorem exists_removes_takeOff {user : UInt64} {known : Finset Threshold}
    (h : a.reports.foldl (ReactionReport.told user) known = a.held user) (byBoard : Bool)
    (emoji : ThresholdEmoji) (hknown : emoji.threshold ∈ known) :
    ∃ x ∈ (a.takeOff byBoard user emoji).reports, x.removes user emoji.threshold := by
  apply ReactionReport.exists_removes hknown
  rw [(grows_takeOff byBoard user emoji).held user known h, takeOff]
  split
  · simp
  · next hgone => exact hgone

/-! ### Handling a report -/

theorem call_removeReaction (user : UInt64) (t : Threshold) :
    (surroundings r).call (.removeReaction r user t.emoji) a =
      (.answer (.ok ()), a.takeOff true user t.spelling) := by
  have hread := t.ofEmoji?_emoji
  unfold surroundings
  dsimp only
  split
  · next t' ht' =>
    rw [hread, Option.some.injEq] at ht'
    subst ht'
    rw [if_pos rfl]
    rfl
  · next hnone =>
    rw [hread] at hnone
    cases hnone

variable {x : ReactionReport}

theorem threshold?_toReaction (h : x.user ≠ board) :
    (x.toReaction r).threshold? board = some x.emoji.threshold :=
  (Reaction.threshold?_of_ne h).trans x.emoji.spelled

section Steps

variable {α γ : Type} {t : Transaction γ} (next : Except StoreError γ → Procedure α)

theorem run_transact_ok {result : γ} {s' : Store} (h : t.run a.store = .ok (result, s')) :
    (Procedure.transact t next).run (surroundings r) a =
      (next (.ok result)).run (surroundings r) { a with store := s' } := by
  change (next (t.attempt a.store).1).run _ { a with store := (t.attempt a.store).2 } = _
  rw [Transaction.attempt_of_ok h]

theorem run_transact_error {e : StoreError} (h : t.run a.store = .error e) :
    (Procedure.transact t next).run (surroundings r) a =
      (next (.error e)).run (surroundings r) a := by
  change (next (t.attempt a.store).1).run _ { a with store := (t.attempt a.store).2 } = _
  rw [Transaction.attempt_of_error h]

end Steps

/-- The board subscribes a user who put a reaction on, and takes off the one before. -/
theorem handle_added (hs : a.store.Sound) (htracks : a.store.tracks r) (hx : x.user ≠ board)
    (hadded : x.added = true) :
    ∃ s', a.store.Resubscribed r x.user (some x.emoji.threshold) s' ∧ handle board r x a =
      (.ok (.ofReplaced (a.store.threshold? r x.user) x.emoji.threshold),
        match a.store.threshold? r x.user with
        | none => { a with store := s' }
        | some t => if t = x.emoji.threshold then { a with store := s' }
          else Audience.takeOff true x.user t.spelling { a with store := s' }) := by
  obtain ⟨s', hrun, hs'⟩ := hs.setThreshold_run htracks x.user x.emoji.threshold
  refine ⟨s', hs', ?_⟩
  unfold handle
  rw [if_pos hadded, Reaction.added_run (threshold?_toReaction hx)]
  refine (run_transact_ok _ hrun).trans ?_
  cases a.store.threshold? r x.user with
  | none => rfl
  | some t =>
    by_cases ht : t = x.emoji.threshold
    · simp [Except.map, ReactionOutcome.ofReplaced, Reaction.orIgnored, Procedure.run, ht]
    · simp only [Except.map, ReactionOutcome.ofReplaced, Reaction.orIgnored, if_neg ht,
        Procedure.run]
      exact congrArg (Prod.mk _) (congrArg Prod.snd (call_removeReaction x.user t))

/-- The board unsubscribes a user who took the reaction of the present threshold off. -/
theorem handle_removed (hs : a.store.Sound) (hx : x.user ≠ board) (hremoved : x.added = false)
    (h : a.store.threshold? r x.user = some x.emoji.threshold) :
    ∃ s', a.store.Resubscribed r x.user none s' ∧
      handle board r x a = (.ok (.unsubscribed x.emoji.threshold), { a with store := s' }) := by
  obtain ⟨s', hrun, hs'⟩ := hs.removeSubscription_run h
  refine ⟨s', hs', ?_⟩
  unfold handle
  rw [if_neg (by simp [hremoved]), Reaction.removed_run (threshold?_toReaction hx)]
  exact run_transact_ok _ hrun

/-- Any other removal is ignored. -/
theorem handle_removed_other (hs : a.store.Sound) (hx : x.user ≠ board) (hremoved : x.added = false)
    (h : a.store.threshold? r x.user ≠ some x.emoji.threshold) :
    handle board r x a = (.ok .ignored, a) := by
  unfold handle
  rw [if_neg (by simp [hremoved]), Reaction.removed_run (threshold?_toReaction hx)]
  exact run_transact_error _ (hs.removeSubscription_other h)

/-- The threshold of a user after a report. -/
def decided (x : ReactionReport) (before : Option Threshold) : Option Threshold :=
  if x.added then some x.emoji.threshold
  else if before = some x.emoji.threshold then none
  else before

/-- All that handling a report can do. -/
theorem handle_cases (hs : a.store.Sound) (htracks : a.store.tracks r) (hx : x.user ≠ board) :
    ∃ s', a.store.Resubscribed r x.user (decided x (a.store.threshold? r x.user)) s' ∧
      ((handle board r x a).2 = { a with store := s' } ∧
          (x.added → ∀ t, a.store.threshold? r x.user = some t → t = x.emoji.threshold) ∨
        ∃ t, a.store.threshold? r x.user = some t ∧ t ≠ x.emoji.threshold ∧ x.added ∧
          (handle board r x a).2 =
            Audience.takeOff true x.user t.spelling { a with store := s' }) := by
  unfold decided
  cases hadded : x.added with
  | true =>
    obtain ⟨s', hs', hrun⟩ := handle_added hs htracks hx hadded
    refine ⟨s', by simpa using hs', ?_⟩
    rw [hrun]
    cases a.store.threshold? r x.user with
    | none => exact .inl ⟨rfl, by simp⟩
    | some t =>
      by_cases ht : t = x.emoji.threshold
      · exact .inl ⟨by simp [ht], by simp [ht]⟩
      · exact .inr ⟨t, rfl, ht, rfl, by simp [ht]⟩
  | false =>
    by_cases h : a.store.threshold? r x.user = some x.emoji.threshold
    · obtain ⟨s', hs', hrun⟩ := handle_removed hs hx hadded h
      refine ⟨s', by simpa [h] using hs', .inl ⟨?_, by simp⟩⟩
      rw [hrun]
    · refine ⟨a.store, ⟨hs, fun _ => rfl, fun r' user' => ?_⟩, .inl ⟨?_, by simp⟩⟩
      · simp only [Bool.false_eq_true, if_false, if_neg h]
        split
        · next heq => rw [heq.1, heq.2]
        · rfl
      · rw [handle_removed_other hs hx hadded h]

/-! ### What every turn keeps -/

/-- The message is tracked, and all reports are about users. -/
structure Proper (board : UInt64) (r : MessageRef) (a : Audience) : Prop where
  sound : a.store.Sound
  tracks : a.store.tracks r
  user_ne : ∀ x ∈ a.reports, x.user ≠ board

theorem Proper.grow {user : UInt64} {a' : Audience} (h : Proper board r a) (huser : user ≠ board)
    (hgrows : Grows user a a') : Proper board r a' := by
  obtain ⟨new, hreports, hnew⟩ := hgrows.reports
  refine ⟨hgrows.store ▸ h.sound, hgrows.store ▸ h.tracks, fun x hx => ?_⟩
  rw [hreports, List.mem_append] at hx
  rcases hx with hx | hx
  · exact h.user_ne x hx
  · exact hnew x hx ▸ huser

/-- The report that is handled next. -/
theorem Proper.head {rest : List ReactionReport} (h : Proper board r a)
    (hreports : a.reports = x :: rest) :
    x.user ≠ board ∧ Proper board r { a with reports := rest } :=
  ⟨h.user_ne x (hreports ▸ List.mem_cons_self), h.sound, h.tracks,
    fun y hy => h.user_ne y (hreports ▸ List.mem_cons_of_mem x hy)⟩

theorem Proper.handle (h : Proper board r a) (hx : x.user ≠ board) :
    Proper board r (handle board r x a).2 := by
  obtain ⟨s', hs', hcases⟩ := handle_cases h.sound h.tracks hx
  have hstored : Proper board r { a with store := s' } :=
    ⟨hs'.sound, (hs'.tracks r).trans h.tracks, h.user_ne⟩
  rcases hcases with ⟨hrun, -⟩ | ⟨t, -, -, -, hrun⟩
  · rw [hrun]
    exact hstored
  · rw [hrun]
    exact hstored.grow hx (grows_takeOff true x.user t.spelling)

theorem Proper.next (h : Proper board r a) (turn : Turn) :
    Proper board r (a.next board r turn) := by
  cases turn with
  | putOn user emoji =>
    by_cases huser : user = board
    · rwa [Audience.next, if_pos huser]
    · rw [Audience.next, if_neg huser]
      exact h.grow huser (grows_putOn user emoji)
  | takeOff user emoji =>
    by_cases huser : user = board
    · rwa [Audience.next, if_pos huser]
    · rw [Audience.next, if_neg huser]
      exact h.grow huser (grows_takeOff false user emoji)
  | handle =>
    rw [Audience.next]
    split
    · exact h
    · next x rest hreports =>
      obtain ⟨hx, hrest⟩ := h.head hreports
      exact hrest.handle hx

theorem Proper.run (h : Proper board r a) (turns : List Turn) :
    Proper board r (a.run board r turns) := by
  unfold Audience.run
  induction turns generalizing a with
  | nil => exact h
  | cons turn turns ih => exact ih (h.next turn)

end Audience

end StatusBoard
