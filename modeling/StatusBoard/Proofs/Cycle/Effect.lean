import Mathlib.Data.List.TakeWhile
import StatusBoard.Proofs.Cycle.Announce
import StatusBoard.Proofs.MasterList.Folding
import StatusBoard.Proofs.Mentions
import StatusBoard.Proofs.Message.Columns

/-!
# What a cycle does on its own

While nobody else writes to the store, a cycle edits each message whose server differs from the
stored one, once and in ascending order, and stores the current servers.  The edits depend on the
store and the polled list only, and not on what becomes of earlier edits.  A content that cannot be
formatted ends the cycle before its message is edited, and nothing is stored then.
-/

namespace StatusBoard

open Store

/-- No client of the entry has a name or a clan that is longer than a column can be wide. -/
def ListEntry.Narrow (e : ListEntry) : Prop := ∀ c ∈ e.info.clients, c.Narrow

instance (e : ListEntry) : Decidable e.Narrow := List.decidableBAll _ e.info.clients

/-! ### Storing -/

/-- The write of a cycle stores the current server of each changed message that is still tracked. -/
theorem Store.Sound.replacement_run {s : Store} (hs : s.Sound) (stored : Snapshot)
    {current : Snapshot}
    (hroom : ∀ r server, current.get? r = some server → server.clients.length ≤ 2 ^ 64) :
    ∃ s', (replace (Changes.refs (stored.changes current))
        (Changes.current (stored.changes current))).run s = .ok ((), s') ∧
      s'.Sound ∧ SameTrackings s s' ∧ ∀ r, s'.shown? r =
        if s.tracks r then
          if stored.get? r = current.get? r then s.shown? r else current.get? r
        else none := by
  have hentry (r : MessageRef) (server : Server)
      (hr : (Changes.current (stored.changes current)).get? r = some server) :
      stored.get? r ≠ current.get? r ∧ current.get? r = some server := by
    rw [get?_current_changes] at hr
    split at hr
    · cases hr
    · next hne => exact ⟨hne, hr⟩
  rcases hs.replace_run (Changes.refs (stored.changes current))
      fun r server hr => hroom r server (hentry r server hr).2 with
    ⟨⟨r, hr, hnotin, -⟩, -⟩ | ⟨-, s', hok, hsound, hsame, hshown⟩
  · -- Every message that is stored is forgotten first.
    obtain ⟨server, hserver⟩ := Option.isSome_iff_exists.1 (Snapshot.mem_refs.1 hr)
    rw [refs_changes, mem_changedRefs] at hnotin
    exact absurd (hentry r server hserver).1 hnotin
  · refine ⟨s', hok, hsound, hsame, fun r => ?_⟩
    rw [hshown, get?_current_changes, refs_changes]
    by_cases heq : stored.get? r = current.get? r
    · have hnotin : r ∉ stored.changedRefs current := fun hr => mem_changedRefs.1 hr heq
      rw [if_pos heq, if_pos heq, if_neg hnotin, Option.none_or]
    · rw [if_neg heq, if_neg heq, if_pos (mem_changedRefs.2 heq), Option.or_none]

namespace Cycle

/-! ### Contents -/

/-- What a message has to show when the current snapshot differs from the stored one: the current
server with everyone whose threshold is reached, if that can be formatted, or that the stored server
went offline. -/
def Announces (s : Store) (stored current : Snapshot) (r : MessageRef) (content : Option String) :
    Prop :=
  match current.get? r, stored.get? r with
  | some server, _ => ∃ mentions : List UInt64, Strict mentions ∧
      (∀ user, user ∈ mentions ↔
        ∃ t, s.threshold? r user = some t ∧ t.clients ≤ server.clientCount) ∧
      content = Message.online server mentions
  | none, some server => content = some (Message.offline server)
  | none, none => False

/-- Only a current server with a client that is too wide cannot be shown. -/
theorem Announces.eq_none_iff {s : Store} {stored current : Snapshot} {r : MessageRef}
    {content : Option String} (h : Announces s stored current r content) :
    content = none ↔ ∃ server, current.get? r = some server ∧ ¬ server.Narrow := by
  unfold Announces at h
  cases hcurrent : current.get? r with
  | some server =>
    rw [hcurrent] at h
    obtain ⟨mentions, -, -, rfl⟩ := h
    simp [Message.online_eq_none_iff]
  | none =>
    cases hstored : stored.get? r with
    | some server =>
      rw [hcurrent, hstored] at h
      simp [h]
    | none =>
      rw [hcurrent, hstored] at h
      exact h.elim

/-- The content that a change gives to a message, with the mentions that the subscriptions ask
for. -/
def contentOf (subscriptions : List Subscription) (before after : Snapshot) (r : MessageRef) :
    Option String :=
  ((before.change after r).withMentions subscriptions).content

theorem announces_contentOf {s : Store} {found : List Subscription} {stored current : Snapshot}
    (hfound : ∀ r user t, ⟨r, user, t⟩ ∈ found ↔
      r ∈ stored.changedRefs current ∧ s.threshold? r user = some t)
    {r : MessageRef} (hr : r ∈ stored.changedRefs current) :
    Announces s stored current r (contentOf found stored current r) := by
  have hne := mem_changedRefs.1 hr
  unfold Announces contentOf Change.content Change.withMentions Snapshot.change
  cases hcurrent : current.get? r with
  | some server =>
    refine ⟨mentionedUsers found r server.clientCount, ascending_strict _, fun user => ?_, rfl⟩
    simp only [mem_mentionedUsers, hfound, hr, true_and]
  | none =>
    cases hstored : stored.get? r with
    | some old => rfl
    | none =>
      rw [hcurrent, hstored] at hne
      exact hne rfl

/-! ### How a cycle ends -/

/-- What a cycle has done to the chat and the store that had to give these messages their contents
and left this snapshot in the store. -/
structure Edits (s : Session) (shown : Snapshot) (targets : List MessageRef)
    (content : MessageRef → Option String) (final : Session) (exchanges : List Exchange) :
    Prop where
  log : final.log = exchanges ++ s.log
  /-- The messages are edited in order; texts that the platform would refuse are not sent. -/
  calls : exchanges.reverse.map Exchange.call =
    targets.filterMap fun r => (content r).bind (ChatCall.edit? r)
  channels : final.store.channels = s.store.channels
  /-- Exactly the missing messages are not tracked any more. -/
  trackings : ∀ r, final.store.trackings.find? r.key =
    if r ∈ exchanges.filterMap Exchange.missing? then none else s.store.trackings.find? r.key
  subscriptions : ∀ r user, final.store.threshold? r user =
    if r ∈ exchanges.filterMap Exchange.missing? then none else s.store.threshold? r user
  /-- The snapshot is stored, without the missing messages. -/
  stored : ∃ after, load.run final.store = .ok (after, final.store) ∧ ∀ r, after.get? r =
    if r ∈ exchanges.filterMap Exchange.missing? then none else shown.get? r

/-- Only messages that were to be edited can be missing. -/
theorem Edits.missing_mem {s final : Session} {shown : Snapshot} {targets : List MessageRef}
    {content : MessageRef → Option String} {exchanges : List Exchange}
    (h : Edits s shown targets content final exchanges) {r : MessageRef}
    (hr : r ∈ exchanges.filterMap Exchange.missing?) : r ∈ targets := by
  obtain ⟨e, he, hmissing⟩ := List.mem_filterMap.1 hr
  have hcall : e.call ∈ exchanges.reverse.map Exchange.call :=
    List.mem_map_of_mem (List.mem_reverse.2 he)
  rw [h.calls] at hcall
  obtain ⟨r', hr', hedit⟩ := List.mem_filterMap.1 hcall
  obtain ⟨text, -, hedit⟩ := Option.bind_eq_some_iff.1 hedit
  obtain ⟨text', hmissing⟩ := Exchange.edit_of_missing? hmissing
  rw [hmissing] at hedit
  cases (ChatCall.edit?_eq_some_iff.1 hedit).2
  exact hr'

/-- What a cycle has done that could give these messages their contents. -/
structure Effect (s : Session) (current : Snapshot) (targets : List MessageRef)
    (content : MessageRef → Option String) (report : CycleReport) (final : Session)
    (exchanges : List Exchange) : Prop extends
    Edits s current targets content final exchanges where
  formatted : ∀ r ∈ targets, (content r).isSome
  kinds : report.new + report.changed + report.offline = targets.length
  total : report.delivered + report.failed = targets.length
  delivered : report.delivered = (exchanges.filter Exchange.accepted).length
  removed : report.removed = (exchanges.filterMap Exchange.missing?).length

/-- How a cycle ends that has to give these messages their contents. -/
inductive Outcome (s : Session) (stored current : Snapshot) (targets : List MessageRef)
    (content : MessageRef → Option String) :
    Except CycleStop CycleReport → Session → List Exchange → Prop
  | finished {report : CycleReport} {final : Session} {exchanges : List Exchange}
    (h : Effect s current targets content report final exchanges) :
    Outcome s stored current targets content (.ok report) final exchanges
  /-- The messages before the first content that cannot be formatted are edited, and the stored
  snapshot stays. -/
  | broken {final : Session} {exchanges : List Exchange} (hbroken : ∃ r ∈ targets, content r = none)
    (h : Edits s stored (targets.takeWhile fun r => (content r).isSome) content final exchanges) :
    Outcome s stored current targets content (.error .panic) final exchanges

/-- How polls are going to be answered does not matter to what a cycle does. -/
theorem Outcome.of_polls {s final : Session} {stored current : Snapshot}
    {targets : List MessageRef} {content : MessageRef → Option String}
    {result : Except CycleStop CycleReport} {exchanges : List Exchange}
    {polls : Nat → PollAnswer}
    (h : Outcome { s with polls := polls } stored current targets content result final exchanges) :
    Outcome s stored current targets content result final exchanges := by
  cases h with
  | finished h =>
    exact .finished ⟨⟨h.log, h.calls, h.channels, h.trackings, h.subscriptions, h.stored⟩,
      h.formatted, h.kinds, h.total, h.delivered, h.removed⟩
  | broken hbroken h =>
    exact .broken hbroken ⟨h.log, h.calls, h.channels, h.trackings, h.subscriptions, h.stored⟩

/-! ### Carrying out changes -/

/-- Changed messages are tracked, since they show a server or get one. -/
theorem tracks_of_mem_changedRefs {s : Store} (hs : s.Sound) {stored current : Snapshot}
    (hstored : ∀ r, stored.get? r = s.shown? r)
    (htracked : ∀ r server, current.get? r = some server → s.tracks r) {r : MessageRef}
    (hr : r ∈ stored.changedRefs current) : s.tracks r := by
  rw [mem_changedRefs, hstored] at hr
  cases hshown : s.shown? r with
  | some old => exact hs.tracks_of_shown? hshown
  | none =>
    cases hcurrent : current.get? r with
    | some server => exact htracked r server hcurrent
    | none =>
      rw [hshown, hcurrent] at hr
      exact absurd rfl hr

/-- Announcing changes and then leaving the trackings alone has done these edits. -/
theorem Told.edits {s told : Session} {cs : List Change} {report report' : CycleReport}
    {exchanges : List Exchange} (h : Told cs report report' s told exchanges)
    {targets : List MessageRef} {content : MessageRef → Option String}
    (hcalls : cs.filterMap Change.edit? =
      targets.filterMap fun r => (content r).bind (ChatCall.edit? r))
    {s' : Store} (hsound : s'.Sound) (hsame : SameTrackings told.store s') {shown : Snapshot}
    (hshown : ∀ r, s'.shown? r =
      if r ∈ exchanges.filterMap Exchange.missing? then none else shown.get? r) :
    Edits s shown targets content { told with store := s' } exchanges where
  log := h.log
  calls := h.calls.trans hcalls
  channels := hsame.channels.trans h.lost.channels
  trackings r := by
    rw [hsame.trackings]
    exact h.lost.trackings r
  subscriptions r user := by
    rw [Store.threshold?, hsame.subscriptions]
    exact h.lost.threshold? r user
  stored := by
    obtain ⟨after, hafter, hget⟩ := hsound.load_run
    exact ⟨after, hafter, fun r => (hget r).trans (hshown r)⟩

/-- The edits of all changes, with the report of what came of them, are the effect of a cycle. -/
theorem Told.effect {s told final : Session} {stored current : Snapshot}
    {found : List Subscription} {report' : CycleReport} {exchanges : List Exchange}
    (h : Told ((stored.changedRefs current).map fun r =>
      (stored.change current r).withMentions found) (report (stored.changes current)) report' s told
      exchanges)
    {content : MessageRef → Option String}
    (hformatted : ∀ r ∈ stored.changedRefs current, (content r).isSome)
    (hedits : Edits s current (stored.changedRefs current) content final exchanges) :
    Effect s current (stored.changedRefs current) content report' final exchanges where
  toEdits := hedits
  formatted := hformatted
  kinds := by
    obtain ⟨hnew, hchanged, hoffline⟩ := h.kinds
    rw [hnew, hchanged, hoffline, ← refs_changes, Changes.refs, List.length_map]
    exact count_kinds (stored.changes current)
  total := by
    rw [h.total, List.length_map]
    exact Nat.zero_add _
  delivered := h.delivered.trans (Nat.zero_add _)
  removed := h.removed.trans (Nat.zero_add _)

/-- Storing the current snapshot after some messages were lost. -/
theorem shown?_of_replacement {s told s' : Store} {gone : List MessageRef}
    (hlost : Lost gone s told) {stored current : Snapshot}
    (hstored : ∀ r, stored.get? r = s.shown? r)
    (htracked : ∀ r server, current.get? r = some server → s.tracks r)
    (hshown : ∀ r, s'.shown? r = if told.tracks r then
      if stored.get? r = current.get? r then told.shown? r else current.get? r else none)
    (r : MessageRef) : s'.shown? r = if r ∈ gone then none else current.get? r := by
  rw [hshown, hlost.shown?, ← hstored]
  by_cases hgone : r ∈ gone
  · rw [if_pos hgone, if_pos hgone, if_neg (hlost.not_tracks_of_mem hgone)]
  · rw [if_neg hgone, if_neg hgone, hlost.tracks_of_notMem hgone]
    split
    · split
      · assumption
      · rfl
    · next huntracked =>
      cases hcurrent : current.get? r with
      | none => rfl
      | some server => exact absurd (htracked r server hcurrent) huntracked

theorem effect_of_no_changes {s : Session} (hs : s.store.Sound) {stored current : Snapshot}
    (hstored : ∀ r, stored.get? r = s.store.shown? r) (hnil : stored.changes current = [])
    (content : MessageRef → Option String) :
    Effect s current (stored.changedRefs current) content (report []) s [] := by
  have htargets : stored.changedRefs current = [] := by
    rw [← refs_changes, hnil]
    rfl
  obtain ⟨after, hafter, hget⟩ := hs.load_run
  rw [htargets]
  refine ⟨⟨rfl, rfl, rfl, fun _ => rfl, fun _ _ => rfl, after, hafter, fun r => ?_⟩,
    fun r hr => absurd hr List.not_mem_nil, rfl, rfl, rfl, rfl⟩
  rw [hget, ← hstored, get?_eq_of_changes_eq_nil hnil]
  rfl

section CarryOut

variable (chat : Platform) {s : Session} {stored current : Snapshot} {found : List Subscription}

/-- The changes with their mentions are those of the changed messages. -/
theorem changes_withMentions (found : List Subscription) (stored current : Snapshot) :
    (stored.changes current).map (Change.withMentions found) =
      (stored.changedRefs current).map fun r => (stored.change current r).withMentions found := by
  rw [changes_eq, List.map_map]
  rfl

/-- Announcing the changes between two snapshots goes on up to the first content that cannot be
formatted. -/
theorem announceChanges_run (hs : s.store.Sound) (hstored : ∀ r, stored.get? r = s.store.shown? r)
    (htracked : ∀ r server, current.get? r = some server → s.store.tracks r)
    (found : List Subscription) :
    let targets := stored.changedRefs current
    let content := contentOf found stored current
    ∃ report' told exchanges,
      s.perform chat (((stored.changes current).map (Change.withMentions found)).foldlM announce
        (report (stored.changes current))).run =
        (if ∀ r ∈ targets, (content r).isSome then .ok report' else .error .panic, told) ∧
      Told ((targets.takeWhile fun r => (content r).isSome).map fun r =>
        (stored.change current r).withMentions found) (report (stored.changes current)) report' s
        told exchanges := by
  intro targets content
  have hrefs : Changes.refs ((stored.changes current).map (Change.withMentions found)) =
      targets := by
    rw [refs_withMentions, refs_changes]
  have hnodup : targets.Nodup := (strict_changedRefs stored current).nodup
  have htracks (r : MessageRef) (hr : r ∈ targets) : s.store.tracks r :=
    tracks_of_mem_changedRefs hs hstored htracked hr
  rw [← hrefs] at hnodup htracks
  obtain ⟨report', told, exchanges, hrun, htold⟩ :=
    announceAll_run chat (report (stored.changes current)) hs hnodup htracks
  refine ⟨report', told, exchanges, ?_, ?_⟩
  · rw [hrun, changes_withMentions, List.all_map]
    simp only [List.all_eq_true]
    rfl
  · rw [changes_withMentions, List.takeWhile_map] at htold
    exact htold

section Surroundings

variable {σ : Type} {env : Surroundings σ} {x listed told final : σ} {changes : List Change}

/-- Changes that can be announced are stored after that. -/
theorem run_carryOut_ok (hchanges : changes ≠ [])
    (hfound : env.transact (listSubscriptions (Changes.refs changes)) x = (.ok found, listed))
    {report' : CycleReport}
    (htold : ((changes.map (Change.withMentions found)).foldlM announce (report changes)).run.run
      env listed = (.ok report', told))
    (hreplaced : env.transact (replace (Changes.refs changes) (Changes.current changes)) told =
      (.ok (), final)) :
    (carryOut changes).run.run env x = (.ok report', final) := by
  rw [carryOut_run hchanges, Procedure.run_transact hfound]
  refine (Procedure.run_bind env _ _ _).trans ?_
  rw [htold, refs_withMentions, current_withMentions]
  exact Procedure.run_transact hreplaced _

/-- Changes that cannot be announced are not stored. -/
theorem run_carryOut_error (hchanges : changes ≠ [])
    (hfound : env.transact (listSubscriptions (Changes.refs changes)) x = (.ok found, listed))
    {stop : CycleStop}
    (htold : ((changes.map (Change.withMentions found)).foldlM announce (report changes)).run.run
      env listed = (.error stop, told)) :
    (carryOut changes).run.run env x = (.error stop, told) := by
  rw [carryOut_run hchanges, Procedure.run_transact hfound]
  refine (Procedure.run_bind env _ _ _).trans ?_
  rw [htold]
  rfl

end Surroundings

/-- Carrying out the changes between the stored and the current snapshot. -/
theorem carryOut_outcome (hs : s.store.Sound) (hstored : ∀ r, stored.get? r = s.store.shown? r)
    (htracked : ∀ r server, current.get? r = some server → s.store.tracks r)
    (hroom : ∀ r server, current.get? r = some server → server.clients.length ≤ 2 ^ 64)
    (hfound :
      (listSubscriptions (stored.changedRefs current)).run s.store = .ok (found, s.store)) :
    ∃ result final exchanges,
      s.perform chat (carryOut (stored.changes current)).run = (result, final) ∧
      Outcome s stored current (stored.changedRefs current) (contentOf found stored current) result
        final exchanges := by
  by_cases hnil : stored.changes current = []
  · refine ⟨.ok (report []), s, [], ?_, .finished (effect_of_no_changes hs hstored hnil _)⟩
    rw [hnil, carryOut_nil, Session.perform_done]
  · obtain ⟨report', told, exchanges, hrun, htold⟩ :=
      announceChanges_run chat hs hstored htracked found
    rw [← refs_changes] at hfound
    have hcalls (targets : List MessageRef) : (targets.map fun r =>
        (stored.change current r).withMentions found).filterMap Change.edit? =
          targets.filterMap fun r =>
            (contentOf found stored current r).bind (ChatCall.edit? r) := List.filterMap_map
    by_cases hall : ∀ r ∈ stored.changedRefs current, (contentOf found stored current r).isSome
    · obtain ⟨s', hreplaced, hsound, hsame, hshown⟩ :=
        htold.lost.sound.replacement_run stored hroom
      rw [if_pos hall] at hrun
      rw [List.takeWhile_eq_self_iff.2 hall] at htold
      have hcurrent := shown?_of_replacement htold.lost hstored htracked hshown
      exact ⟨_, _, _, run_carryOut_ok hnil (s.transact_ok chat hfound) hrun
        (told.transact_ok chat hreplaced),
        .finished (htold.effect hall (htold.edits (hcalls _) hsound hsame hcurrent))⟩
    · rw [if_neg hall] at hrun
      have hbroken : ∃ r ∈ stored.changedRefs current, contentOf found stored current r = none := by
        simpa using hall
      have hstays (r : MessageRef) : told.store.shown? r =
          if r ∈ exchanges.filterMap Exchange.missing? then none else stored.get? r := by
        rw [htold.lost.shown?, hstored]
      exact ⟨_, _, _, run_carryOut_error hnil (s.transact_ok chat hfound) hrun, .broken hbroken
        (htold.edits (hcalls _) htold.lost.sound (.refl _) hstays)⟩

end CarryOut

/-! ### Whole cycles -/

section Current

variable {s : Store} {entries : List ListEntry} {r : MessageRef} {server : Server}

/-- The servers of the current snapshot belong to tracked messages and have the clients of an
entry. -/
theorem of_get?_current
    (h : (MasterList.snapshot entries (s.trackings.rows.map trackingOfRow)).get? r = some server) :
    s.tracks r ∧ ∃ e ∈ entries, server.clients.Perm e.info.clients := by
  obtain ⟨hmem, e, he, hclients⟩ := MasterList.of_get?_snapshot h
  refine ⟨?_, e, he, hclients⟩
  obtain ⟨t, ht, rfl⟩ := List.mem_map.1 hmem
  obtain ⟨row, hrow, rfl⟩ := List.mem_map.1 ht
  exact Table.contains_iff.2 ⟨row.2, hrow⟩

theorem length_clients_of_get?_current {P : Nat → Prop}
    (hfit : ∀ e ∈ entries, P e.info.clients.length)
    (h : (MasterList.snapshot entries (s.trackings.rows.map trackingOfRow)).get? r = some server) :
    P server.clients.length := by
  obtain ⟨-, e, he, hclients⟩ := of_get?_current h
  rw [hclients.length_eq]
  exact hfit e he

theorem narrow_of_get?_current (hnarrow : ∀ e ∈ entries, e.Narrow)
    (h : (MasterList.snapshot entries (s.trackings.rows.map trackingOfRow)).get? r = some server) :
    server.Narrow := by
  obtain ⟨-, e, he, hclients⟩ := of_get?_current h
  exact fun c hc => hnarrow e he c (hclients.mem_iff.1 hc)

/-- A tracked message shows the clients of the first entry that names its address. -/
theorem exists_current_of_first {address : String}
    (htracked : s.trackings.find? r.key = some address) (before after : List ListEntry)
    {e : ListEntry} (hbefore : ∀ e' ∈ before, ¬ e'.Names (Address.normalize address))
    (he : e.Names (Address.normalize address)) :
    ∃ server, (MasterList.snapshot (before ++ e :: after)
        (s.trackings.rows.map trackingOfRow)).get? r = some server ∧
      (server.Narrow ↔ e.Narrow) := by
  obtain ⟨server, hserver, hclients⟩ :=
    MasterList.exists_serverAt?_of_first before after hbefore he
  refine ⟨server, ?_, forall_congr' fun c => imp_congr_left hclients.mem_iff⟩
  rw [MasterList.get?_snapshot, htracked]
  exact hserver

end Current

/-- A cycle whose poll fails does nothing. -/
theorem perform_once_error (chat : Platform) {s : Session} {e : PollError}
    (hpoll : s.polls 0 = .error e) :
    s.perform chat once.run =
      (.error (.error (.poll e)), { s with polls := fun n => s.polls (n + 1) }) := by
  rw [once_run, Session.perform_poll, hpoll, Session.perform_done]

/-- A cycle that is given a list carries out the changes between what is stored and the list. -/
theorem perform_once (chat : Platform) {s : Session} {entries : List ListEntry}
    (hpoll : s.polls 0 = .ok entries) {stored : Snapshot}
    (hload : load.run s.store = .ok (stored, s.store)) :
    s.perform chat once.run = Session.perform chat (carryOut (stored.changes
        (MasterList.snapshot entries (s.store.trackings.rows.map trackingOfRow)))).run
      { s with polls := fun n => s.polls (n + 1) } := by
  let polled : Session := { s with polls := fun n => s.polls (n + 1) }
  rw [once_run, Session.perform_poll, hpoll]
  exact (polled.perform_transact_ok chat (listTrackings_run s.store) _).trans
    (polled.perform_transact_ok chat hload _)

/-- A cycle that is given a list ends in one of two ways. -/
theorem perform_once_outcome (chat : Platform) {s : Session} (hs : s.store.Sound)
    {entries : List ListEntry} (hpoll : s.polls 0 = .ok entries)
    (hfit : ∀ e ∈ entries, e.info.clients.length ≤ 2 ^ 64) {stored current : Snapshot}
    (hload : load.run s.store = .ok (stored, s.store))
    (hstored : ∀ r, stored.get? r = s.store.shown? r)
    (hcurrent : current = MasterList.snapshot entries (s.store.trackings.rows.map trackingOfRow))
    {found : List Subscription} (hfound :
      (listSubscriptions (stored.changedRefs current)).run s.store = .ok (found, s.store)) :
    ∃ result final exchanges, s.perform chat once.run = (result, final) ∧
      Outcome s stored current (stored.changedRefs current) (contentOf found stored current) result
        final exchanges := by
  subst hcurrent
  obtain ⟨result, final, exchanges, hrun, houtcome⟩ := carryOut_outcome chat
    (s := { s with polls := fun n => s.polls (n + 1) }) hs hstored
    (fun r server hr => (of_get?_current hr).1)
    (fun r server => length_clients_of_get?_current (P := (· ≤ 2 ^ 64)) hfit) hfound
  exact ⟨result, final, exchanges, (perform_once chat hpoll hload).trans hrun, houtcome.of_polls⟩

/-- A cycle that has no client to show that is too wide does not break. -/
theorem perform_once_ne_panic (chat : Platform) {s : Session} (hs : s.store.Sound)
    {entries : List ListEntry} (hpoll : s.polls 0 = .ok entries)
    (hfit : ∀ e ∈ entries, e.info.clients.length ≤ 2 ^ 64) (hnarrow : ∀ e ∈ entries, e.Narrow) :
    (s.perform chat once.run).1 ≠ .error .panic := by
  obtain ⟨stored, hload, hstored⟩ := hs.load_run
  obtain ⟨found, hfound, hmem⟩ := hs.listSubscriptions_run (stored.changedRefs
    (MasterList.snapshot entries (s.store.trackings.rows.map trackingOfRow)))
  obtain ⟨result, final, exchanges, hrun, houtcome⟩ :=
    perform_once_outcome chat hs hpoll hfit hload hstored rfl hfound
  rw [hrun]
  cases houtcome with
  | finished h => exact fun hpanic => by cases hpanic
  | broken hbroken h =>
    obtain ⟨r, hr, hnone⟩ := hbroken
    obtain ⟨server, hserver, hwide⟩ := (announces_contentOf hmem hr).eq_none_iff.1 hnone
    exact absurd (narrow_of_get?_current hnarrow hserver) hwide

/-- A cycle breaks if it has to show a client that is too wide. -/
theorem perform_once_wide (chat : Platform) {s : Session} (hs : s.store.Sound)
    {entries : List ListEntry} (hpoll : s.polls 0 = .ok entries)
    (hfit : ∀ e ∈ entries, e.info.clients.length ≤ 2 ^ 64) {stored current : Snapshot}
    (hload : load.run s.store = .ok (stored, s.store))
    (hcurrent : current = MasterList.snapshot entries (s.store.trackings.rows.map trackingOfRow))
    {r : MessageRef} (hr : r ∈ stored.changedRefs current) {server : Server}
    (hserver : current.get? r = some server) (hwide : ¬ server.Narrow) :
    ∃ content final exchanges, s.perform chat once.run = (.error .panic, final) ∧
      (∀ r ∈ stored.changedRefs current, Announces s.store stored current r (content r)) ∧
      Edits s stored ((stored.changedRefs current).takeWhile fun r => (content r).isSome) content
        final exchanges := by
  obtain ⟨stored', hload', hstored⟩ := hs.load_run
  rw [hload] at hload'
  cases hload'
  obtain ⟨found, hfound, hmem⟩ := hs.listSubscriptions_run (stored.changedRefs current)
  have hannounces (r : MessageRef) (hr : r ∈ stored.changedRefs current) :
      Announces s.store stored current r (contentOf found stored current r) :=
    announces_contentOf hmem hr
  obtain ⟨result, final, exchanges, hrun, houtcome⟩ :=
    perform_once_outcome chat hs hpoll hfit hload hstored hcurrent hfound
  have hnone := (hannounces r hr).eq_none_iff.2 ⟨server, hserver, hwide⟩
  cases houtcome with
  | finished h =>
    have hsome := h.formatted r hr
    rw [hnone] at hsome
    cases hsome
  | broken _ h => exact ⟨_, final, exchanges, hrun, hannounces, h⟩

/-- A cycle on its own edits exactly the messages whose stored server differs from the current one,
and each once and in ascending order.  Which messages these are and what they say does not depend on
the chat platform.  If the content of one of them cannot be formatted, which takes a name or a clan
that is longer than a column can be wide, the cycle breaks there and stores nothing.  No entry has
more clients than there are 64-bit positions. -/
theorem once_effect {s : Store} (h : Reachable s) (entries : List ListEntry)
    (hfit : ∀ e ∈ entries, e.info.clients.length ≤ 2 ^ 64) :
    ∃ trackings stored, listTrackings.run s = .ok (trackings, s) ∧ load.run s = .ok (stored, s) ∧
      ∃ (targets : List MessageRef) (content : MessageRef → Option String),
        Strict targets ∧
        (∀ r, r ∈ targets ↔ stored.get? r ≠ (MasterList.snapshot entries trackings).get? r) ∧
        (∀ r ∈ targets,
          Announces s stored (MasterList.snapshot entries trackings) r (content r)) ∧
        ((∀ e ∈ entries, e.Narrow) → ∀ r ∈ targets, (content r).isSome) ∧
        ∀ (chat : Platform) (log : List Exchange) (polls : Nat → PollAnswer),
          polls 0 = .ok entries → ∃ result final exchanges,
            Session.perform chat once.run ⟨s, log, polls⟩ = (result, final) ∧
            Outcome ⟨s, log, polls⟩ stored (MasterList.snapshot entries trackings) targets content
              result final exchanges := by
  have hs := h.sound
  obtain ⟨stored, hload, hstored⟩ := hs.load_run
  let trackings := s.trackings.rows.map trackingOfRow
  let current := MasterList.snapshot entries trackings
  obtain ⟨found, hfound, hmem⟩ := hs.listSubscriptions_run (stored.changedRefs current)
  have hannounces (r : MessageRef) (hr : r ∈ stored.changedRefs current) :
      Announces s stored current r (contentOf found stored current r) := announces_contentOf hmem hr
  refine ⟨trackings, stored, listTrackings_run s, hload, stored.changedRefs current,
    contentOf found stored current, strict_changedRefs _ _, fun r => mem_changedRefs, hannounces,
    ?_, ?_⟩
  · intro hnarrow r hr
    rw [Option.isSome_iff_ne_none, Ne, (hannounces r hr).eq_none_iff]
    rintro ⟨server, hserver, hwide⟩
    exact hwide (narrow_of_get?_current hnarrow hserver)
  · intro chat log polls hpoll
    exact perform_once_outcome chat (s := ⟨s, log, polls⟩) hs hpoll hfit hload hstored rfl hfound

/-- A tracked server that shows up in the list takes one edit, whatever becomes of it. -/
theorem once_effect_new :
    let r : MessageRef := ⟨1, 2, 3⟩
    let s := Write.apply {} (.track ⟨r, "1.2.3.4:8303"⟩)
    let entries : List ListEntry := [⟨["tw-0.6+udp://1.2.3.4:8303"], none, {}⟩]
    ∀ chat, ∃ report final, Session.perform chat once.run ⟨s, [], fun _ => .ok entries⟩ =
      (.ok report, final) ∧ report.delivered + report.failed = 1 := by
  intro r s entries chat
  have hreachable : Reachable s := .write _ .fresh
  obtain ⟨trackings, stored, htrackings, hload, targets, content, hstrict, hmem, -, hnarrow,
    houtcome⟩ := once_effect hreachable entries (by decide)
  obtain ⟨stored', hload', hshown⟩ := hreachable.sound.load_run
  rw [hload] at hload'
  cases hload'
  have hlisted : trackings = [⟨r, "1.2.3.4:8303"⟩] := by
    rw [listTrackings_run] at htrackings
    cases htrackings
    rfl
  have htargets : targets = [r] := by
    refine hstrict.ext (by decide) fun r' => ?_
    have hnone : stored.get? r' = none := hshown r'
    rw [hmem, hnone, List.mem_singleton, hlisted]
    constructor
    · intro hne
      obtain ⟨server, hserver⟩ := Option.ne_none_iff_exists'.1 hne.symm
      exact List.mem_singleton.1 (MasterList.of_get?_snapshot hserver).1
    · rintro rfl hcurrent
      have hsome : ((MasterList.snapshot entries [⟨r, "1.2.3.4:8303"⟩]).get? r).isSome := by
        decide +kernel
      rw [← hcurrent] at hsome
      cases hsome
  obtain ⟨result, final, exchanges, hrun, hend⟩ := houtcome chat [] (fun _ => .ok entries) rfl
  cases hend with
  | finished h =>
    refine ⟨_, final, hrun, ?_⟩
    rw [h.total, htargets]
    rfl
  | broken hbroken =>
    obtain ⟨r', hr', hnone⟩ := hbroken
    have hsome := hnarrow (by decide) r' hr'
    rw [hnone] at hsome
    cases hsome

/-- A tracked server shows up in the list with a client whose name has one character more than a
column can have.  Then the cycle breaks without a call, and the message goes on to show nothing. -/
theorem once_breaks :
    let r : MessageRef := ⟨1, 2, 3⟩
    let s := Write.apply {} (.track ⟨r, "1.2.3.4:8303"⟩)
    let client : Client := ⟨"".pushn 'x' 65536, "", -1, 0, true, 0⟩
    let entries : List ListEntry :=
      [⟨["tw-0.6+udp://1.2.3.4:8303"], none, { clients := [client] }⟩]
    ∃ trackings stored, listTrackings.run s = .ok (trackings, s) ∧ load.run s = .ok (stored, s) ∧
      stored.get? r ≠ (MasterList.snapshot entries trackings).get? r ∧
      ∀ chat, ∃ final, Session.perform chat once.run ⟨s, [], fun _ => .ok entries⟩ =
        (.error .panic, final) ∧ final.log = [] ∧
          load.run final.store = .ok (stored, final.store) := by
  intro r s client entries
  have hclient : ¬ client.Narrow := fun h => by simpa [client, Text.maxWidth] using h.name
  clear_value client
  have hs := (.write _ .fresh : Reachable s).sound
  obtain ⟨stored, hload, hstored⟩ := hs.load_run
  let e : ListEntry := ⟨["tw-0.6+udp://1.2.3.4:8303"], none, { clients := [client] }⟩
  have hwide : ¬ e.Narrow := fun h => hclient (h client (List.mem_singleton_self _))
  have hnames : e.Names (Address.normalize "1.2.3.4:8303") :=
    ⟨"tw-0.6+udp", _, List.mem_singleton_self _, by decide +kernel⟩
  have htracked : s.trackings.find? r.key = some "1.2.3.4:8303" := by decide +kernel
  let trackings := s.trackings.rows.map trackingOfRow
  obtain ⟨server, hcurrent, hnarrow⟩ :=
    exists_current_of_first htracked [] [] (by simp) hnames
  have hmem (r' : MessageRef) :
      r' ∈ stored.changedRefs (MasterList.snapshot entries trackings) ↔ r' = r := by
    rw [mem_changedRefs_of_unshown hstored]
    constructor
    · rintro ⟨server', hserver'⟩
      exact List.mem_singleton.1 (MasterList.of_get?_snapshot hserver').1
    · rintro rfl
      exact ⟨server, hcurrent⟩
  have hr := (hmem r).2 rfl
  refine ⟨trackings, stored, listTrackings_run s, hload, mem_changedRefs.1 hr, fun chat => ?_⟩
  obtain ⟨content, final, exchanges, hrun, hannounces, hedits⟩ := perform_once_wide chat
    (s := ⟨s, [], fun _ => .ok entries⟩) hs rfl (by simp [entries]) hload rfl hr hcurrent
    (hwide ∘ hnarrow.1)
  have hnone : content r = none :=
    (hannounces r hr).eq_none_iff.2 ⟨server, hcurrent, hwide ∘ hnarrow.1⟩
  -- No other message changed, so none comes before the one that cannot be formatted.
  have htargets : stored.changedRefs (MasterList.snapshot entries trackings) = [r] :=
    (strict_changedRefs _ _).ext (by decide) fun r' => by rw [hmem, List.mem_singleton]
  have hnil : exchanges = [] := by
    have hcalls := hedits.calls
    rw [htargets, List.takeWhile_cons_of_neg (by rw [hnone]; decide), List.filterMap_nil,
      List.map_eq_nil_iff, List.reverse_eq_nil_iff] at hcalls
    exact hcalls
  subst hnil
  obtain ⟨after, hafter, hget⟩ := hedits.stored
  obtain rfl : after = stored := Snapshot.ext_get? hget
  exact ⟨final, hrun, hedits.log, hafter⟩

end Cycle

end StatusBoard
