import Mathlib.Data.List.Forall2
import StatusBoard.Mentions

/-!
# The mentions of a change

A change about an online server mentions the users who reached a threshold on the message of the
change, ascending, and a change about an offline server mentions nobody.  These are the only
mentions that do, and of the subscriptions nothing but the set of them matters
(`mentions_of_subscriptions`).
-/

namespace StatusBoard

theorem mem_mentionedUsers {subscriptions : List Subscription} {r : MessageRef} {clients : Nat}
    {user : UInt64} : user ∈ mentionedUsers subscriptions r clients ↔
      ∃ t : Threshold, ⟨r, user, t⟩ ∈ subscriptions ∧ t.clients ≤ clients := by
  unfold mentionedUsers
  rw [mem_ascending, List.mem_map]
  constructor
  · rintro ⟨⟨r', user', t⟩, hmem, rfl⟩
    obtain ⟨hsubscription, hcond⟩ := List.mem_filter.1 hmem
    rw [Bool.and_eq_true, decide_eq_true_iff] at hcond
    exact ⟨t, hcond.1 ▸ hsubscription, of_decide_eq_true hcond.2⟩
  · rintro ⟨t, hmem, hle⟩
    refine ⟨⟨r, user, t⟩, List.mem_filter.2 ⟨hmem, ?_⟩, rfl⟩
    simp [Threshold.fires, hle]

/-- Only the set of subscriptions matters. -/
theorem mentionedUsers_congr {subscriptions subscriptions' : List Subscription}
    (h : ∀ x, x ∈ subscriptions' ↔ x ∈ subscriptions) (r : MessageRef) (clients : Nat) :
    mentionedUsers subscriptions' r clients = mentionedUsers subscriptions r clients := by
  refine ascending_congr fun user => ?_
  simp only [List.mem_map, List.mem_filter, h]

namespace Change

/-- A change with the mentions that the subscriptions ask for. -/
structure Mentioning (subscriptions : List Subscription) (c c' : Change) : Prop where
  /-- At most the mentions are different. -/
  same : c' = { c with mentions := c'.mentions }
  strict : Strict c'.mentions
  online : ∀ server, c.after = some server → ∀ user, user ∈ c'.mentions ↔
    ∃ t : Threshold, ⟨c.ref, user, t⟩ ∈ subscriptions ∧ t.clients ≤ server.clients.length
  offline : c.after = none → c'.mentions = []

variable {subscriptions subscriptions' : List Subscription} {c c' c'' : Change}

theorem mentioning_withMentions (subscriptions : List Subscription) (c : Change) :
    Mentioning subscriptions c (c.withMentions subscriptions) where
  same := rfl
  strict := by
    unfold withMentions
    cases c.after with
    | none => exact .nil
    | some server => exact ascending_strict _
  online server hserver user := by
    unfold withMentions
    rw [hserver]
    exact mem_mentionedUsers
  offline hoffline := by
    unfold withMentions
    rw [hoffline]

/-- The subscriptions leave no choice. -/
theorem Mentioning.unique (h : Mentioning subscriptions c c')
    (h' : Mentioning subscriptions c c'') : c' = c'' := by
  have hmentions : c'.mentions = c''.mentions := by
    cases hafter : c.after with
    | none => rw [h.offline hafter, h'.offline hafter]
    | some server =>
      refine h.strict.ext h'.strict fun user => ?_
      rw [h.online server hafter, h'.online server hafter]
  rw [h.same, h'.same, hmentions]

theorem withMentions_congr (h : ∀ x, x ∈ subscriptions' ↔ x ∈ subscriptions) :
    withMentions subscriptions' = withMentions subscriptions := by
  funext c
  simp only [withMentions, mentionedUsers_congr h]

end Change

/-- The changes that get their mentions are the only ones that stand in the same order, differ from
the given ones in the mentions at most, and mention the users who reached a threshold on the message
of the change.  In which order the subscriptions come and how often does not matter. -/
theorem mentions_of_subscriptions (subscriptions : List Subscription) (changes : List Change) :
    (∀ attached, attached = changes.map (Change.withMentions subscriptions) ↔
      List.Forall₂ (Change.Mentioning subscriptions) changes attached) ∧
    ∀ subscriptions', (∀ x, x ∈ subscriptions' ↔ x ∈ subscriptions) →
      changes.map (Change.withMentions subscriptions') =
        changes.map (Change.withMentions subscriptions) := by
  refine ⟨fun attached => ⟨?_, fun h => ?_⟩, fun subscriptions' h => by
    rw [Change.withMentions_congr h]⟩
  · rintro rfl
    exact List.forall₂_map_right_iff.2
      (List.forall₂_same.2 fun c _ => Change.mentioning_withMentions subscriptions c)
  · induction h with
    | nil => rfl
    | cons hc _ ih =>
      rw [List.map_cons, ← ih, hc.unique (Change.mentioning_withMentions subscriptions _)]

/-- Of two changes with stale mentions the online one mentions two users and the offline one nobody,
also if every subscription is listed twice. -/
theorem mentions_of_subscriptions_repeated :
    let r : MessageRef := ⟨1, 2, 3⟩
    let two : Threshold := ⟨2, by decide, by decide⟩
    let ten : Threshold := ⟨10, by decide, by decide⟩
    let server : Server := { (default : Server) with clients := [default, default] }
    let changes : List Change := [⟨r, none, some server, [9]⟩, ⟨⟨1, 2, 4⟩, some server, none, [9]⟩]
    let subscriptions : List Subscription :=
      [⟨r, 7, two⟩, ⟨r, 3, ten⟩, ⟨r, 3, two⟩, ⟨r, 5, ten⟩, ⟨⟨1, 2, 4⟩, 6, two⟩]
    let attached := changes.map (Change.withMentions (subscriptions ++ subscriptions.reverse))
    attached = changes.map (Change.withMentions subscriptions) ∧
      List.Forall₂ (Change.Mentioning subscriptions) changes attached ∧
      attached.map Change.mentions = [[3, 7], []] := by
  intro r two ten server changes subscriptions attached
  obtain ⟨hattached, hrepeated⟩ := mentions_of_subscriptions subscriptions changes
  have hsame : attached = changes.map (Change.withMentions subscriptions) :=
    hrepeated _ fun x => by rw [List.mem_append, List.mem_reverse, or_self]
  exact ⟨hsame, (hattached attached).1 hsame, by decide +kernel⟩

end StatusBoard
