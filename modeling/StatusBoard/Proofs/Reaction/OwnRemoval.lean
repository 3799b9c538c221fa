import StatusBoard.Proofs.Reaction.Audience

/-!
# The report of the board's own removal

When a user switches thresholds, the board takes the older reaction off, and the platform reports
this removal like any other.  Until then the board handles the reports that were waiting when it
took the reaction off, and no others.  If these bring the older threshold back, which takes that the
user had put the reaction on again before it was taken off, then the report of the board's own
removal unsubscribes the user.  If not, it is ignored.
-/

namespace StatusBoard.Audience

open Store

variable {board : UInt64} {r : MessageRef} {a : Audience} {user : UInt64} {t : Threshold}

/-- The threshold of a user after a report about anybody. -/
def settled (user : UInt64) (before : Option Threshold) (x : ReactionReport) : Option Threshold :=
  if x.user = user then decided x before else before

/-- Only a user who puts a reaction on gets its threshold. -/
theorem exists_adds {reports : List ReactionReport} {before : Option Threshold}
    (hbefore : before ≠ some t) (h : reports.foldl (settled user) before = some t) :
    ∃ x ∈ reports, x.adds user t := by
  induction reports generalizing before with
  | nil => exact absurd h hbefore
  | cons x rest ih =>
    by_cases hx : x.adds user t
    · exact ⟨x, List.mem_cons_self, hx⟩
    · have hne : settled user before x ≠ some t := by
        unfold settled decided
        split
        · next huser =>
          split
          · next hadded => exact fun heq => hx ⟨hadded, huser, Option.some.inj heq⟩
          · split
            · simp
            · exact hbefore
        · exact hbefore
      obtain ⟨y, hy, hadds⟩ := ih hne h
      exact ⟨y, List.mem_cons_of_mem x hy, hadds⟩

/-- After so many reports comes the one that the board took a reaction off, and the threshold of the
user will be `kept` by then. -/
structure Awaits (r : MessageRef) (user : UInt64) (t : Threshold) (kept : Option Threshold)
    (n : Nat) (a : Audience) : Prop where
  removal : ∃ x, a.reports[n]? = some x ∧ x.byBoard = true ∧ x.removes user t
  kept : (a.reports.take n).foldl (settled user) (a.store.threshold? r user) = kept

variable {kept : Option Threshold} {n : Nat}

theorem Awaits.grow {user' : UInt64} {a' : Audience} (h : Awaits r user t kept n a)
    (hgrows : Grows user' a a') : Awaits r user t kept n a' := by
  obtain ⟨new, hreports, -⟩ := hgrows.reports
  obtain ⟨x, hx, hremoval⟩ := h.removal
  have hn : n < a.reports.length := (List.getElem?_eq_some_iff.1 hx).1
  refine ⟨⟨x, ?_, hremoval⟩, ?_⟩
  · rw [hreports, List.getElem?_append_left hn, hx]
  · rw [hreports, List.take_append_of_le_length hn.le, hgrows.store]
    exact h.kept

theorem Awaits.handle (h : Awaits r user t kept (n + 1) a) (hproper : Proper board r a)
    {x : ReactionReport} {rest : List ReactionReport} (hreports : a.reports = x :: rest) :
    Awaits r user t kept n (handle board r x { a with reports := rest }).2 := by
  obtain ⟨hx, hrest⟩ := hproper.head hreports
  obtain ⟨s', hs', hcases⟩ := handle_cases hrest.sound hrest.tracks hx
  have hthreshold : s'.threshold? r user = settled user (a.store.threshold? r user) x := by
    rw [hs'.threshold?, settled]
    by_cases huser : x.user = user
    · rw [if_pos ⟨rfl, huser.symm⟩, if_pos huser, huser]
    · rw [if_neg fun heq => huser heq.2.symm, if_neg huser]
  have hstored : Awaits r user t kept n { a with store := s', reports := rest } := by
    have hremoval := h.removal
    have hkept := h.kept
    rw [hreports] at hremoval
    rw [hreports, List.take_succ_cons, List.foldl_cons, ← hthreshold] at hkept
    exact ⟨hremoval, hkept⟩
  rcases hcases with ⟨hrun, -⟩ | ⟨t', -, -, -, hrun⟩
  · rw [hrun]
    exact hstored
  · rw [hrun]
    exact hstored.grow (grows_takeOff true x.user t'.spelling)

/-- The report comes closer with each report that is handled, and what users do comes after it. -/
theorem Awaits.run {turns : List Turn} (h : Awaits r user t kept (turns.count .handle) a)
    (hproper : Proper board r a) : Awaits r user t kept 0 (run board r a turns) := by
  unfold Audience.run
  induction turns generalizing a with
  | nil => exact h
  | cons turn turns ih =>
    refine ih ?_ (hproper.next turn)
    cases turn with
    | putOn user' emoji =>
      rw [List.count_cons_of_ne (by simp)] at h
      rw [Audience.next]
      split
      · exact h
      · exact h.grow (grows_putOn user' emoji)
    | takeOff user' emoji =>
      rw [List.count_cons_of_ne (by simp)] at h
      rw [Audience.next]
      split
      · exact h
      · exact h.grow (grows_takeOff false user' emoji)
    | handle =>
      rw [List.count_cons_self] at h
      rw [Audience.next]
      split
      · next hnone =>
        obtain ⟨x, hx, -⟩ := h.removal
        rw [hnone] at hx
        cases hx
      · next x rest hreports => exact h.handle hproper hreports

/-- What the board did if a report made a user switch from one threshold to another. -/
theorem of_handle_updated (hproper : Proper board r a) {x : ReactionReport} (hx : x.user ≠ board)
    {current : Threshold} {after : Audience}
    (h : handle board r x a = (.ok (.updated t current), after)) :
    t ≠ current ∧ ∃ s', a.store.Resubscribed r x.user (some current) s' ∧
      after = Audience.takeOff true x.user t.spelling { a with store := s' } := by
  cases hadded : x.added with
  | true =>
    obtain ⟨s', hs', hrun⟩ := handle_added hproper.sound hproper.tracks hx hadded
    rw [hrun, Prod.mk.injEq, Except.ok.injEq] at h
    obtain ⟨houtcome, hafter⟩ := h
    unfold ReactionOutcome.ofReplaced at houtcome
    split at houtcome
    · cases houtcome
    · next previous hprevious =>
      split at houtcome
      · cases houtcome
      · next hne =>
        cases houtcome
        rw [hprevious] at hafter
        simp only [if_neg hne] at hafter
        exact ⟨hne, s', hs', hafter.symm⟩
  | false =>
    by_cases hpresent : a.store.threshold? r x.user = some x.emoji.threshold
    · obtain ⟨s', -, hrun⟩ := handle_removed hproper.sound hx hadded hpresent
      rw [hrun] at h
      cases h
    · rw [handle_removed_other hproper.sound hx hadded hpresent] at h
      cases h

/-- The board took the older reaction of a user off who switched thresholds, while some reports were
waiting.  Whatever users do meanwhile, when the turn of the board's own removal has come it
unsubscribes the user exactly if the waiting reports brought the older threshold back, and changes
nothing otherwise.  They can do so only if one of them says that the reaction was put on again. -/
theorem own_removal_outcome {s : Store} (h : Reachable s) (htracks : s.tracks r)
    (turns later : List Turn) {x : ReactionReport} {rest : List ReactionReport}
    (hreports : (run board r { store := s } turns).reports = x :: rest) {current : Threshold}
    {after : Audience}
    (hswitch : handle board r x { run board r { store := s } turns with reports := rest } =
      (.ok (.updated t current), after))
    (hheld : t ∈ (run board r { store := s } turns).held x.user)
    (hlater : later.count .handle = rest.length) :
    ∃ y waiting, (run board r after later).reports = y :: waiting ∧
      y.byBoard = true ∧ y.removes x.user t ∧
      (rest.foldl (settled x.user) (some current) = some t →
        (handle board r y { run board r after later with reports := waiting }).1 =
          .ok (.unsubscribed t) ∧ ∃ z ∈ rest, z.adds x.user t) ∧
      (rest.foldl (settled x.user) (some current) ≠ some t →
        handle board r y { run board r after later with reports := waiting } =
          (.ok .ignored, { run board r after later with reports := waiting })) := by
  have hstart : Proper board r { store := s } := ⟨h.sound, htracks, by simp⟩
  obtain ⟨hx, hrest⟩ := (hstart.run turns).head hreports
  obtain ⟨hne, s', hs', rfl⟩ := of_handle_updated hrest hx hswitch
  have hafter := hrest.handle hx
  rw [hswitch] at hafter
  have hawaits : Awaits r x.user t (rest.foldl (settled x.user) (some current))
      (later.count .handle) (Audience.takeOff true x.user t.spelling
        { run board r { store := s } turns with store := s', reports := rest }) := by
    rw [hlater]
    unfold Audience.takeOff
    split
    · refine ⟨⟨_, List.getElem?_concat_length, rfl, rfl, rfl, rfl⟩, ?_⟩
      rw [List.take_append_of_le_length (Nat.le_refl _), List.take_length, hs'.threshold?,
        if_pos ⟨rfl, rfl⟩]
    · next hgone => exact absurd hheld hgone
  have hturn := hawaits.run hafter
  have hlast := hafter.run later
  have hkept := hturn.kept
  rw [List.take_zero, List.foldl_nil] at hkept
  obtain ⟨y, hy, hown, hremoves⟩ := hturn.removal
  cases hwaiting : (run board r _ later).reports with
  | nil =>
    rw [hwaiting] at hy
    cases hy
  | cons y' waiting =>
    rw [hwaiting] at hy
    obtain rfl : y' = y := Option.some.inj hy
    obtain ⟨huser, hwait⟩ := hlast.head hwaiting
    refine ⟨y', waiting, rfl, hown, hremoves, fun hback => ⟨?_, ?_⟩, fun hother => ?_⟩
    · obtain ⟨s'', -, hrun⟩ := handle_removed (r := r) hwait.sound huser hremoves.1 (by
        rw [hremoves.2.1, hremoves.2.2]
        exact hkept.trans hback)
      rw [hrun, hremoves.2.2]
    · exact exists_adds (by simpa using hne.symm) hback
    · apply handle_removed_other hwait.sound huser hremoves.1
      rw [hremoves.2.1, hremoves.2.2]
      exact hkept.trans_ne hother

/-- A user switches from three to five and puts three on again after the board took it off. -/
theorem own_removal_outcome_switch :
    let r : MessageRef := ⟨1, 10, 100⟩
    let three : Threshold := ⟨3, by decide, by decide⟩
    let five : Threshold := ⟨5, by decide, by decide⟩
    let a := run 1 r { store := Write.apply {} (.track ⟨r, "1.2.3.4:8303"⟩) }
      [.putOn 7 three.spelling, .putOn 7 five.spelling, .handle]
    let after := (handle 1 r ⟨true, 7, five.spelling, false⟩ { a with reports := [] }).2
    let later := run 1 r after [.putOn 7 three.spelling]
    ∃ y waiting, later.reports = y :: waiting ∧ y.byBoard = true ∧ y.removes 7 three ∧
      handle 1 r y { later with reports := waiting } =
        (.ok .ignored, { later with reports := waiting }) := by
  intro r three five a after later
  have hreports : a.reports = [⟨true, 7, five.spelling, false⟩] := by decide +kernel
  have houtcome : (handle 1 r ⟨true, 7, five.spelling, false⟩ { a with reports := [] }).1 =
      .ok (.updated three five) := by decide +kernel
  obtain ⟨y, waiting, hnext, hown, hremoves, -, hother⟩ := own_removal_outcome (.write _ .fresh)
    (by decide +kernel) _ [.putOn 7 three.spelling] hreports (Prod.ext houtcome rfl)
    (by decide +kernel) (by decide)
  exact ⟨y, waiting, hnext, hown, hremoves, hother (by decide)⟩

/-- The report of the board's own removal may unsubscribe a user.  The user switches from three to
five, takes three off and puts it on again before the board handles the switch.  The board takes
three off, is then told that three is the present threshold again, and then of its own removal. -/
theorem own_removal_unsubscribes :
    let r : MessageRef := ⟨1, 10, 100⟩
    let three : Threshold := ⟨3, by decide, by decide⟩
    let five : Threshold := ⟨5, by decide, by decide⟩
    let a := run 1 r { store := Write.apply {} (.track ⟨r, "1.2.3.4:8303"⟩) }
      [.putOn 7 three.spelling, .putOn 7 five.spelling, .takeOff 7 three.spelling,
        .putOn 7 three.spelling, .handle, .handle, .handle, .handle]
    ∃ y waiting, a.reports = y :: waiting ∧ y.byBoard = true ∧ y.added = false ∧
      a.store.threshold? r 7 = some three ∧
      (handle 1 r y { a with reports := waiting }).1 = .ok (.unsubscribed three) ∧
      (handle 1 r y { a with reports := waiting }).2.store.threshold? r 7 = none := by
  intro r three five a
  have hreports : a.reports =
      [⟨false, 7, three.spelling, true⟩, ⟨false, 7, five.spelling, true⟩] := by
    decide +kernel
  exact ⟨_, _, hreports, rfl, rfl, by decide +kernel, by decide +kernel, by decide +kernel⟩

end StatusBoard.Audience
