import StatusBoard.Proofs.Reaction.Audience

/-!
# Reactions and subscriptions agree

Of a user the board knows the reactions that it was told of.  The present threshold of the user is
among them, and every other one of them is about to be reported as removed.  When nothing is left to
report, the board knows what is on the message, and so nothing but the present threshold is.
-/

namespace StatusBoard.Audience

open Store

variable {board : UInt64} {r : MessageRef} {a : Audience} {user : UInt64} {known : Finset Threshold}

/-- What the board knows of a user, and what it is about to be told. -/
structure Follows (r : MessageRef) (a : Audience) (user : UInt64) (known : Finset Threshold) :
    Prop where
  held : a.reports.foldl (ReactionReport.told user) known = a.held user
  mem_known : ∀ t, a.store.threshold? r user = some t → t ∈ known
  pending : ∀ t ∈ known, a.store.threshold? r user ≠ some t → ∃ x ∈ a.reports, x.removes user t

theorem Follows.grow {user' : UInt64} {a' : Audience} (h : Follows r a user known)
    (hgrows : Grows user' a a') : Follows r a' user known where
  held := hgrows.held user known h.held
  mem_known := by
    rw [hgrows.store]
    exact h.mem_known
  pending t ht hne := by
    rw [hgrows.store] at hne
    obtain ⟨new, hreports, -⟩ := hgrows.reports
    obtain ⟨x, hx, hremoves⟩ := h.pending t ht hne
    exact ⟨x, hreports ▸ List.mem_append_left new hx, hremoves⟩

variable {x : ReactionReport} {rest : List ReactionReport}

/-- A report that is not the removal leaves the removal to come. -/
theorem removes_of_ne {t : Threshold} (h : ∃ y ∈ x :: rest, y.removes user t)
    (hx : ¬ x.removes user t) : ∃ y ∈ rest, y.removes user t := by
  obtain ⟨y, hy, hremoves⟩ := h
  rcases List.mem_cons.1 hy with rfl | hy
  · exact absurd hremoves hx
  · exact ⟨y, hy, hremoves⟩

/-- Handling a report about somebody else. -/
theorem Follows.handle_other (h : Follows r a user known) (hreports : a.reports = x :: rest)
    (huser : x.user ≠ user) {s' : Store} {t : Option Threshold}
    (hs' : a.store.Resubscribed r x.user t s') :
    Follows r { a with store := s', reports := rest } user (x.told user known) := by
  have htold : x.told user known = known := if_neg huser
  have hthreshold : s'.threshold? r user = a.store.threshold? r user := by
    rw [hs'.threshold?, if_neg fun heq => huser heq.2.symm]
  rw [htold]
  refine ⟨?_, ?_, ?_⟩
  · have hheld := h.held
    rwa [hreports, List.foldl_cons, htold] at hheld
  · rw [hthreshold]
    exact h.mem_known
  · intro t ht hne
    rw [hthreshold] at hne
    exact removes_of_ne (hreports ▸ h.pending t ht hne) fun hx => huser hx.2.1

/-- Handling a report about the user.  Only the threshold that was given up may be left without a
removal to come. -/
theorem Follows.handle_own (h : Follows r a user known) (hreports : a.reports = x :: rest)
    (huser : x.user = user) {s' : Store}
    (hs' : a.store.Resubscribed r user (decided x (a.store.threshold? r user)) s') :
    rest.foldl (ReactionReport.told user) (x.told user known) = a.held user ∧
      (∀ t, s'.threshold? r user = some t → t ∈ x.told user known) ∧
      ∀ t ∈ x.told user known, s'.threshold? r user ≠ some t →
        (x.added → a.store.threshold? r user ≠ some t) → ∃ y ∈ rest, y.removes user t := by
  have hheld := h.held
  rw [hreports, List.foldl_cons] at hheld
  have hthreshold : s'.threshold? r user = decided x (a.store.threshold? r user) := by
    rw [hs'.threshold?, if_pos ⟨rfl, rfl⟩]
  refine ⟨hheld, ?_, ?_⟩
  · intro t ht
    rw [hthreshold, decided] at ht
    rw [ReactionReport.told, if_pos huser]
    cases hadded : x.added with
    | true =>
      simp only [hadded, if_true, Option.some.injEq] at ht
      simp [ht]
    | false =>
      simp only [hadded, Bool.false_eq_true, if_false] at ht ⊢
      split at ht
      · cases ht
      · next hne =>
        refine Finset.mem_erase.2 ⟨?_, h.mem_known t ht⟩
        rintro rfl
        exact hne ht
  · intro t ht hne hgiven
    rw [hthreshold, decided] at hne
    rw [ReactionReport.told, if_pos huser] at ht
    cases hadded : x.added with
    | true =>
      simp only [hadded, if_true, ne_eq, Option.some.injEq] at hne ht
      have hmem : t ∈ known := (Finset.mem_insert.1 ht).resolve_left fun heq => hne heq.symm
      refine removes_of_ne (hreports ▸ h.pending t hmem (hgiven hadded)) fun hx => ?_
      rw [hx.1] at hadded
      cases hadded
    | false =>
      simp only [hadded, Bool.false_eq_true, if_false] at hne ht
      obtain ⟨hdifferent, hmem⟩ := Finset.mem_erase.1 ht
      have hbefore : a.store.threshold? r user ≠ some t := by
        intro heq
        rw [heq, if_neg (by simpa using hdifferent)] at hne
        exact hne rfl
      exact removes_of_ne (hreports ▸ h.pending t hmem hbefore) fun hx => hdifferent hx.2.2.symm

/-- The board goes on following a user when it handles a report. -/
theorem Follows.handle (h : Follows r a user known) (hproper : Proper board r a)
    (hreports : a.reports = x :: rest) :
    Follows r (handle board r x { a with reports := rest }).2 user (x.told user known) := by
  obtain ⟨hx, hrest⟩ := hproper.head hreports
  obtain ⟨s', hs', hcases⟩ := handle_cases hrest.sound hrest.tracks hx
  by_cases huser : x.user = user
  · subst huser
    obtain ⟨hheld, hmem, hpending⟩ := h.handle_own hreports rfl hs'
    rcases hcases with ⟨hrun, hsame⟩ | ⟨t, ht, hne, hadded, hrun⟩
    · rw [hrun]
      refine ⟨hheld, hmem, fun t ht hne => hpending t ht hne fun hadded heq => hne ?_⟩
      have hthreshold := hs'.threshold? r x.user
      rw [if_pos ⟨rfl, rfl⟩, decided, if_pos hadded, ← hsame hadded t heq] at hthreshold
      exact hthreshold
    · -- The switch: the threshold before is taken off.
      rw [hrun]
      have hgrows := grows_takeOff (a := { a with store := s', reports := rest }) true x.user
        t.spelling
      refine ⟨hgrows.held _ _ hheld, ?_, fun t' ht' hne' => ?_⟩
      · rw [hgrows.store]
        exact hmem
      · rw [hgrows.store] at hne'
        by_cases heq : t' = t
        · subst heq
          exact exists_removes_takeOff hheld true t'.spelling ht'
        · have hgiven : a.store.threshold? r x.user ≠ some t' := by
            intro heq'
            exact heq (Option.some.inj (heq'.symm.trans ht))
          obtain ⟨y, hy, hremoves⟩ := hpending t' ht' hne' fun _ => hgiven
          obtain ⟨new, hnew, -⟩ := hgrows.reports
          exact ⟨y, hnew ▸ List.mem_append_left new hy, hremoves⟩
  · have hother := h.handle_other hreports huser hs'
    rcases hcases with ⟨hrun, -⟩ | ⟨t, -, -, -, hrun⟩
    · rw [hrun]
      exact hother
    · rw [hrun]
      exact hother.grow (grows_takeOff true x.user t.spelling)

theorem Follows.next (h : Follows r a user known) (hproper : Proper board r a) (turn : Turn) :
    ∃ known', Follows r (a.next board r turn) user known' := by
  cases turn with
  | putOn user' emoji =>
    refine ⟨known, ?_⟩
    rw [Audience.next]
    split
    · exact h
    · exact h.grow (grows_putOn user' emoji)
  | takeOff user' emoji =>
    refine ⟨known, ?_⟩
    rw [Audience.next]
    split
    · exact h
    · exact h.grow (grows_takeOff false user' emoji)
  | handle =>
    rw [Audience.next]
    split
    · exact ⟨known, h⟩
    · next x rest hreports => exact ⟨_, h.handle hproper hreports⟩

theorem Follows.run (h : Follows r a user known) (hproper : Proper board r a) (turns : List Turn) :
    ∃ known', Follows r (a.run board r turns) user known' := by
  unfold Audience.run
  induction turns generalizing a known with
  | nil => exact ⟨known, h⟩
  | cons turn turns ih =>
    obtain ⟨known', hnext⟩ := h.next hproper turn
    exact ih hnext (hproper.next turn)

/-- Without reports to come, the present threshold is the only reaction of the user. -/
theorem Follows.held_eq (h : Follows r a user known) (hquiet : a.reports = []) :
    a.held user = (a.store.threshold? r user).elim ∅ fun t => {t} := by
  have hheld := h.held
  rw [hquiet, List.foldl_nil] at hheld
  have honly (t : Threshold) (ht : t ∈ known) : a.store.threshold? r user = some t := by
    refine Decidable.byContradiction fun hne => ?_
    obtain ⟨x, hx, -⟩ := h.pending t ht hne
    rw [hquiet] at hx
    cases hx
  rw [← hheld]
  ext t
  cases hthreshold : a.store.threshold? r user with
  | none =>
    refine iff_of_false (fun ht => ?_) (Finset.notMem_empty t)
    rw [honly t ht] at hthreshold
    cases hthreshold
  | some current =>
    rw [Option.elim_some, Finset.mem_singleton]
    constructor
    · intro ht
      exact Option.some.inj ((honly t ht).symm.trans hthreshold)
    · rintro rfl
      exact h.mem_known t hthreshold

/-- Whatever users did to a message and in whichever order the reports were handled meanwhile, once
all of them are handled the subscriptions to the message are the reactions on it: a user has a
subscription exactly if one reaction is left, and then with the threshold of this reaction. -/
theorem subscribed_iff_held {s : Store} (h : Reachable s) (htracks : s.tracks r)
    (hnone : ∀ user, s.threshold? r user = none) (turns : List Turn)
    (hquiet : (run board r { store := s } turns).reports = []) :
    ∃ found, (listSubscriptions [r]).run (run board r { store := s } turns).store =
        .ok (found, (run board r { store := s } turns).store) ∧
      ∀ user,
        (∀ t, ⟨r, user, t⟩ ∈ found ↔ (run board r { store := s } turns).held user = {t}) ∧
        ((∀ t, ⟨r, user, t⟩ ∉ found) ↔ (run board r { store := s } turns).held user = ∅) := by
  have hstart : Proper board r { store := s } := ⟨h.sound, htracks, by simp⟩
  have hnobody (user : UInt64) : Follows r { store := s } user ∅ :=
    ⟨rfl, fun t ht => by simp [hnone user] at ht, by simp⟩
  obtain ⟨found, hfound, hmem⟩ := (hstart.run turns).sound.listSubscriptions_run [r]
  refine ⟨found, hfound, fun user => ?_⟩
  obtain ⟨known, hfollows⟩ := (hnobody user).run hstart turns
  have hheld := hfollows.held_eq hquiet
  simp only [hmem, List.mem_singleton, true_and, hheld]
  cases (run board r { store := s } turns).store.threshold? r user with
  | none => simp
  | some current => simp

/-- A user puts a second reaction on before the first is handled.  It is the one that stays. -/
theorem subscribed_iff_held_switch :
    let r : MessageRef := ⟨1, 10, 100⟩
    let three : Threshold := ⟨3, by decide, by decide⟩
    let five : Threshold := ⟨5, by decide, by decide⟩
    let a := run 1 r { store := Write.apply {} (.track ⟨r, "1.2.3.4:8303"⟩) }
      [.putOn 7 three.spelling, .putOn 7 five.spelling, .handle, .handle, .handle]
    a.reports = [] ∧ a.held 7 = {five} ∧
      ∃ found, (listSubscriptions [r]).run a.store = .ok (found, a.store) ∧
        ⟨r, 7, five⟩ ∈ found := by
  intro r three five a
  have hquiet : a.reports = [] := by decide +kernel
  have hheld : a.held 7 = {five} := by decide +kernel
  obtain ⟨found, hfound, hagree⟩ := subscribed_iff_held (.write _ .fresh) (by decide +kernel)
    (fun _ => rfl) _ hquiet
  exact ⟨hquiet, hheld, found, hfound, ((hagree 7).1 five).2 hheld⟩

end StatusBoard.Audience
