import StatusBoard.Proofs.Store.Reachable

/-!
# Announcing changes

While nobody else writes to the store, announcing some changes edits their messages one after the
other and loses the trackings of those that are missing (`Cycle.Told`).  What becomes of an edit
does not matter to the later ones, but a content that cannot be formatted ends everything before its
message is edited.
-/

namespace StatusBoard

open Store

/-! ### Lost trackings -/

/-- Some messages are not tracked any more, and the rows about them are gone. -/
structure Store.Lost (gone : List MessageRef) (s s' : Store) : Prop where
  sound : s'.Sound
  channels : s'.channels = s.channels
  trackings : ∀ r, s'.trackings.find? r.key = if r ∈ gone then none else s.trackings.find? r.key
  threshold? : ∀ r user,
    s'.threshold? r user = if r ∈ gone then none else s.threshold? r user
  shown? : ∀ r, s'.shown? r = if r ∈ gone then none else s.shown? r

namespace Store.Lost

variable {s s' s'' : Store} {gone gone' : List MessageRef} {r : MessageRef}

theorem refl (hs : s.Sound) : Lost [] s s where
  sound := hs
  channels := rfl
  trackings _ := rfl
  threshold? _ _ := rfl
  shown? _ := rfl

theorem trans (h : Lost gone s s') (h' : Lost gone' s' s'') : Lost (gone' ++ gone) s s'' where
  sound := h'.sound
  channels := h'.channels.trans h.channels
  trackings r := by
    rw [h'.trackings, h.trackings]
    by_cases hr : r ∈ gone' <;> simp [hr]
  threshold? r user := by
    rw [h'.threshold?, h.threshold?]
    by_cases hr : r ∈ gone' <;> simp [hr]
  shown? r := by
    rw [h'.shown?, h.shown?]
    by_cases hr : r ∈ gone' <;> simp [hr]

theorem tracks_of_notMem (h : Lost gone s s') (hr : r ∉ gone) : s'.tracks r = s.tracks r := by
  rw [Store.tracks, Store.tracks, Table.contains, Table.contains, h.trackings, if_neg hr]

theorem not_tracks_of_mem (h : Lost gone s s') (hr : r ∈ gone) : ¬ s'.tracks r := by
  rw [Store.tracks, Table.contains, h.trackings, if_pos hr]
  exact Bool.false_ne_true

end Store.Lost

/-- A tracked message can be untracked, and nothing else is lost. -/
theorem Store.Sound.untrack_run {s : Store} (hs : s.Sound) {r : MessageRef} (h : s.tracks r) :
    ∃ s', (untrack r).run s = .ok ((), s') ∧ Lost [r] s s' := by
  have hkey (r' : MessageRef) : (r'.key = r.key) = (r' ∈ [r]) := by
    rw [MessageRef.key_inj, List.mem_singleton]
  refine ⟨s.dropTrackings (· = r.key), ?_, hs.dropTrackings _, rfl, ?_, ?_, ?_⟩
  · rw [Store.untrack_run, ← Store.tracks, if_pos h]
  · intro r'
    rw [trackings_dropTrackings]
    simp only [decide_eq_true_eq, hkey]
  · intro r' user
    rw [Store.threshold?, Store.threshold?, subscriptions_dropTrackings _ _ hs]
    simp only [MessageRef.partKey, decide_eq_true_eq, hkey]
    split <;> rfl
  · intro r'
    rw [hs.shown?_dropTrackings]
    simp only [decide_eq_true_eq, hkey]

/-! ### Announcing -/

/-- The call that gives a message a text, if the platform would take the text. -/
def ChatCall.edit? (r : MessageRef) (text : String) : Option ChatCall :=
  if (Message.check text).isOk then some (.edit r text) else none

theorem ChatCall.edit?_eq_some_iff {r : MessageRef} {text : String} {call : ChatCall} :
    ChatCall.edit? r text = some call ↔ (Message.check text).isOk ∧ .edit r text = call := by
  rw [edit?, Option.ite_none_right_eq_some, Option.some_inj]

namespace Change

/-- Whether the new content of a message can be formatted. -/
def isFormatted (c : Change) : Bool := c.content.isSome

/-- The call that a change leads to. -/
def edit? (c : Change) : Option ChatCall := c.content.bind (ChatCall.edit? c.ref)

theorem edit_of_edit? {c : Change} {call : ChatCall} (h : c.edit? = some call) :
    ∃ text, call = .edit c.ref text := by
  obtain ⟨text, -, h⟩ := Option.bind_eq_some_iff.1 h
  exact ⟨text, (ChatCall.edit?_eq_some_iff.1 h).2.symm⟩

end Change

namespace Exchange

/-- Whether a call succeeded. -/
def accepted (e : Exchange) : Bool := e.result.isOk

/-- The message of an edit that was answered with its absence. -/
def missing? : Exchange → Option MessageRef
  | ⟨.edit r _, .error .notFound⟩ => some r
  | _ => none

theorem edit_of_missing? {e : Exchange} {r : MessageRef} (h : e.missing? = some r) :
    ∃ text, e.call = .edit r text := by
  unfold missing? at h
  split at h
  · cases h
    exact ⟨_, rfl⟩
  · cases h

end Exchange

namespace Cycle

/-- A content that cannot be formatted ends everything. -/
theorem announce_panic {c : Change} (h : c.content = none) (report : CycleReport) :
    (announce report c).run = .done (.error .panic) := by
  unfold announce deliver
  rw [h]
  rfl

/-- A content that the platform would refuse is not sent. -/
theorem announce_refused {c : Change} {content : String} (h : c.content = some content)
    (hcheck : ¬ (Message.check content).isOk) (report : CycleReport) :
    (announce report c).run = .done (.ok { report with failed := report.failed + 1 }) := by
  unfold announce deliver
  rw [h]
  dsimp only
  cases hresult : Message.check content with
  | ok _ =>
    rw [hresult] at hcheck
    exact absurd rfl hcheck
  | error e => rfl

theorem announce_sent {c : Change} {content : String} (h : c.content = some content)
    (hcheck : (Message.check content).isOk) (report : CycleReport) :
    (announce report c).run = .call (.edit c.ref content) fun
      | .ok () => .done (.ok { report with delivered := report.delivered + 1 })
      | .error .notFound => .transact (untrack c.ref) fun
        | .ok () => .done
          (.ok { report with failed := report.failed + 1, removed := report.removed + 1 })
        | .error _ => .done (.ok { report with failed := report.failed + 1 })
      | .error _ => .done (.ok { report with failed := report.failed + 1 }) := by
  unfold announce deliver
  rw [h]
  dsimp only
  cases hresult : Message.check content with
  | error e =>
    rw [hresult] at hcheck
    cases hcheck
  | ok _ =>
    refine congrArg (Procedure.call _) (funext fun result => ?_)
    match result with
    | .ok () => rfl
    | .error .notFound =>
      refine congrArg (Procedure.transact _) (funext fun dropped => ?_)
      cases dropped <;> rfl
    | .error .timeout => rfl
    | .error (.platform _) => rfl

/-- In any surroundings a change is announced or its content cannot be formatted. -/
theorem announce_result {σ : Type} (env : Surroundings σ) (report : CycleReport) (c : Change)
    (x : σ) : (∃ report', ((announce report c).run.run env x).1 = .ok report') ∨
      ((announce report c).run.run env x).1 = .error .panic ∧ c.content = none := by
  cases hcontent : c.content with
  | none => exact .inr ⟨by rw [announce_panic hcontent]; rfl, rfl⟩
  | some content =>
    left
    by_cases hcheck : (Message.check content).isOk
    · rw [announce_sent hcontent hcheck, Procedure.run]
      dsimp only
      split
      · exact ⟨_, rfl⟩
      · rw [Procedure.run]
        dsimp only
        split <;> exact ⟨_, rfl⟩
      · exact ⟨_, rfl⟩
    · rw [announce_refused hcontent hcheck]
      exact ⟨_, rfl⟩

theorem announceAll_result {σ : Type} (env : Surroundings σ) (cs : List Change)
    (report : CycleReport) (x : σ) :
    (∃ report', ((cs.foldlM announce report).run.run env x).1 = .ok report') ∨
      ((cs.foldlM announce report).run.run env x).1 = .error .panic ∧
        ∃ c ∈ cs, c.content = none := by
  induction cs generalizing report x with
  | nil => exact .inl ⟨report, rfl⟩
  | cons c cs ih =>
    rw [List.foldlM_cons, ExceptT.run_bind, Procedure.run_bind]
    rcases announce_result env report c x with ⟨report', hok⟩ | ⟨hpanic, hnone⟩
    · rw [hok]
      refine (ih report' _).imp_right fun ⟨hpanic, c', hc', hnone⟩ => ⟨hpanic, c', ?_, hnone⟩
      exact List.mem_cons_of_mem c hc'
    · rw [hpanic]
      exact .inr ⟨rfl, c, List.mem_cons_self, hnone⟩

/-- What came of announcing some changes in a session. -/
structure Told (cs : List Change) (report report' : CycleReport) (s s' : Session)
    (exchanges : List Exchange) : Prop where
  log : s'.log = exchanges ++ s.log
  calls : exchanges.reverse.map Exchange.call = cs.filterMap Change.edit?
  kinds : report'.new = report.new ∧ report'.changed = report.changed ∧
    report'.offline = report.offline
  total : report'.delivered + report'.failed = report.delivered + report.failed + cs.length
  delivered : report'.delivered = report.delivered + (exchanges.filter Exchange.accepted).length
  removed : report'.removed = report.removed + (exchanges.filterMap Exchange.missing?).length
  lost : Lost (exchanges.filterMap Exchange.missing?) s.store s'.store

theorem Told.nil {report : CycleReport} {s : Session} (hs : s.store.Sound) :
    Told [] report report s s [] where
  log := rfl
  calls := rfl
  kinds := ⟨rfl, rfl, rfl⟩
  total := rfl
  delivered := rfl
  removed := rfl
  lost := .refl hs

/-- What came of some changes after another one. -/
theorem Told.cons {c : Change} {cs : List Change} {report report' report'' : CycleReport}
    {s s' s'' : Session} {exchanges exchanges' : List Exchange}
    (h : Told [c] report report' s s' exchanges)
    (h' : Told cs report' report'' s' s'' exchanges') :
    Told (c :: cs) report report'' s s'' (exchanges' ++ exchanges) where
  log := by rw [h'.log, h.log, List.append_assoc]
  calls := by
    rw [List.reverse_append, List.map_append, h.calls, h'.calls, ← List.filterMap_append]
    rfl
  kinds := ⟨h'.kinds.1.trans h.kinds.1, h'.kinds.2.1.trans h.kinds.2.1,
    h'.kinds.2.2.trans h.kinds.2.2⟩
  total := by
    rw [h'.total, h.total, List.length_singleton, List.length_cons]
    omega
  delivered := by
    rw [h'.delivered, h.delivered, List.filter_append, List.length_append]
    omega
  removed := by
    rw [h'.removed, h.removed, List.filterMap_append, List.length_append]
    omega
  lost := by
    rw [List.filterMap_append]
    exact h.lost.trans h'.lost

/-- Only messages of the changes can be missing. -/
theorem Told.missing_mem {cs : List Change} {report report' : CycleReport} {s s' : Session}
    {exchanges : List Exchange} (h : Told cs report report' s s' exchanges) {r : MessageRef}
    (hr : r ∈ exchanges.filterMap Exchange.missing?) : r ∈ Changes.refs cs := by
  obtain ⟨e, he, hmissing⟩ := List.mem_filterMap.1 hr
  have hcall : e.call ∈ exchanges.reverse.map Exchange.call :=
    List.mem_map_of_mem (List.mem_reverse.2 he)
  rw [h.calls] at hcall
  obtain ⟨c, hc, hedit⟩ := List.mem_filterMap.1 hcall
  obtain ⟨text, hedit⟩ := Change.edit_of_edit? hedit
  obtain ⟨text', hmissing⟩ := Exchange.edit_of_missing? hmissing
  rw [hmissing] at hedit
  cases hedit
  exact List.mem_map_of_mem hc

/-- Announcing the change of a tracked message, if its content can be formatted. -/
theorem announce_run (chat : Platform) (report : CycleReport) {c : Change} {s : Session}
    (hs : s.store.Sound) (htracks : s.store.tracks c.ref) (hformatted : c.isFormatted) :
    ∃ report' s' exchanges, s.perform chat (announce report c).run = (.ok report', s') ∧
      Told [c] report report' s s' exchanges := by
  obtain ⟨content, hcontent⟩ := Option.isSome_iff_exists.1 hformatted
  have hcalls : [c].filterMap Change.edit? = (ChatCall.edit? c.ref content).toList := by
    have hedit : c.edit? = ChatCall.edit? c.ref content := by rw [Change.edit?, hcontent]; rfl
    cases h : ChatCall.edit? c.ref content <;> simp [hedit, h]
  by_cases hcheck : (Message.check content).isOk
  · rw [ChatCall.edit?, if_pos hcheck] at hcalls
    rw [announce_sent hcontent hcheck, Session.perform_call]
    cases (chat s.log (.edit c.ref content)).inTime with
    | ok _ =>
      exact ⟨_, _, [⟨.edit c.ref content, .ok ()⟩], rfl, rfl, hcalls.symm, ⟨rfl, rfl, rfl⟩,
        Nat.add_right_comm report.delivered 1 report.failed, rfl, rfl, .refl hs⟩
    | error e =>
      cases e with
      | notFound =>
        obtain ⟨lost, hrun, hlost⟩ := hs.untrack_run htracks
        let asked : Session :=
          { s with log := ⟨.edit c.ref content, .error .notFound⟩ :: s.log }
        have hdrop (next : Except StoreError Unit → Procedure (Except CycleStop CycleReport)) :=
          asked.perform_transact_ok chat hrun next
        dsimp only
        rw [hdrop]
        exact ⟨_, _, [⟨.edit c.ref content, .error .notFound⟩], rfl, rfl, hcalls.symm,
          ⟨rfl, rfl, rfl⟩, rfl, rfl, rfl, hlost⟩
      | timeout =>
        exact ⟨_, _, [⟨.edit c.ref content, .error .timeout⟩], rfl, rfl, hcalls.symm,
          ⟨rfl, rfl, rfl⟩, rfl, rfl, rfl, .refl hs⟩
      | platform reason =>
        exact ⟨_, _, [⟨.edit c.ref content, .error (.platform reason)⟩], rfl, rfl, hcalls.symm,
          ⟨rfl, rfl, rfl⟩, rfl, rfl, rfl, .refl hs⟩
  · rw [ChatCall.edit?, if_neg hcheck] at hcalls
    rw [announce_refused hcontent hcheck]
    exact ⟨_, s, [], rfl, rfl, hcalls.symm, ⟨rfl, rfl, rfl⟩, rfl, rfl, rfl, .refl hs⟩

/-- Announcing the changes of different tracked messages goes on up to the first content that cannot
be formatted. -/
theorem announceAll_run (chat : Platform) {cs : List Change} (report : CycleReport) {s : Session}
    (hs : s.store.Sound) (hrefs : (Changes.refs cs).Nodup)
    (htracks : ∀ r ∈ Changes.refs cs, s.store.tracks r) :
    ∃ report' s' exchanges, s.perform chat (cs.foldlM announce report).run =
        (if cs.all Change.isFormatted then .ok report' else .error .panic, s') ∧
      Told (cs.takeWhile Change.isFormatted) report report' s s' exchanges := by
  induction cs generalizing report s with
  | nil => exact ⟨report, s, [], rfl, .nil hs⟩
  | cons c cs ih =>
    have hcons : Changes.refs (c :: cs) = c.ref :: Changes.refs cs := rfl
    rw [hcons, List.nodup_cons] at hrefs
    rw [hcons, List.forall_mem_cons] at htracks
    rw [List.foldlM_cons, List.all_cons]
    by_cases hformatted : c.isFormatted
    · obtain ⟨report', s', exchanges, hrun, htold⟩ :=
        announce_run chat report hs htracks.1 hformatted
      -- Losing the first message leaves the other messages tracked.
      have hrest (r : MessageRef) (hr : r ∈ Changes.refs cs) : s'.store.tracks r := by
        rw [htold.lost.tracks_of_notMem]
        · exact htracks.2 r hr
        · intro hmissing
          obtain rfl := List.mem_singleton.1 (htold.missing_mem hmissing)
          exact hrefs.1 hr
      obtain ⟨report'', s'', exchanges', hrun', htold'⟩ := ih report' htold.lost.sound hrefs.2 hrest
      refine ⟨report'', s'', exchanges' ++ exchanges, ?_, ?_⟩
      · rw [Session.perform_run_bind_ok chat hrun, hrun', hformatted, Bool.true_and]
      · rw [List.takeWhile_cons_of_pos hformatted]
        exact htold.cons htold'
    · have hnone : c.content = none := Option.not_isSome_iff_eq_none.1 hformatted
      have hpanic : s.perform chat (announce report c).run = (.error .panic, s) := by
        rw [announce_panic hnone, Session.perform_done]
      refine ⟨report, s, [], ?_, ?_⟩
      · rw [Session.perform_run_bind_error chat hpanic, Bool.eq_false_iff.2 hformatted]
        rfl
      · rw [List.takeWhile_cons_of_neg hformatted]
        exact .nil hs

end Cycle

end StatusBoard
