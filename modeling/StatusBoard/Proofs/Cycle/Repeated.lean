import StatusBoard.Proofs.Cycle.Effect
import StatusBoard.Proofs.MasterList.Order

/-!
# Polls that are not seen

After a cycle the store shows what the list says about the messages that are still tracked, whatever
became of the edits.  So the next cycle finds nothing to do if it is given the same list again, in
whichever order the entries list their addresses and clients, and a poll that fails ends its cycle
before anything is done.  Runs that differ in such polls only end alike, also if they end because a
content cannot be formatted.
-/

namespace StatusBoard

open Store

namespace Session

variable {α β γ : Type}

/-- How polls are going to be answered does not matter to a procedure. -/
def Unpolled (p : Procedure α) : Prop :=
  ∀ (chat : Platform) (s : Session) (polls : Nat → PollAnswer),
    Session.perform chat p { s with polls := polls } =
      ((s.perform chat p).1, { (s.perform chat p).2 with polls := polls })

theorem unpolled_done (a : α) : Unpolled (.done a) := fun _ _ _ => rfl

theorem unpolled_transact {t : Transaction γ} {next : Except StoreError γ → Procedure α}
    (h : ∀ r, Unpolled (next r)) : Unpolled (.transact t next) := fun chat s polls =>
  h _ chat { s with store := (t.attempt s.store).2 } polls

theorem unpolled_call {c : ChatCall} {next : Except ChatError c.Reply → Procedure α}
    (h : ∀ r, Unpolled (next r)) : Unpolled (.call c next) := fun chat s polls =>
  h _ chat { s with log := ⟨c, (chat s.log c).inTime⟩ :: s.log } polls

theorem Unpolled.bind {p : Procedure β} {f : β → Procedure α} (hp : Unpolled p)
    (hf : ∀ b, Unpolled (f b)) : Unpolled (p >>= f) := by
  intro chat s polls
  rw [perform_bind, perform_bind, hp, hf]

end Session

namespace Cycle

open Session

theorem unpolled_announce (report : CycleReport) (c : Change) :
    Unpolled (announce report c).run := by
  cases hcontent : c.content with
  | none =>
    rw [announce_panic hcontent]
    exact unpolled_done _
  | some content =>
    by_cases h : (Message.check content).isOk
    · rw [announce_sent hcontent h]
      refine unpolled_call fun result => ?_
      split
      · exact unpolled_done _
      · refine unpolled_transact fun dropped => ?_
        cases dropped <;> exact unpolled_done _
      · exact unpolled_done _
    · rw [announce_refused hcontent h]
      exact unpolled_done _

theorem unpolled_announceAll (changes : List Change) (report : CycleReport) :
    Unpolled (changes.foldlM announce report).run := by
  induction changes generalizing report with
  | nil => exact unpolled_done _
  | cons c rest ih =>
    rw [List.foldlM_cons, ExceptT.run_bind]
    refine (unpolled_announce report c).bind fun announced => ?_
    cases announced with
    | error stop => exact unpolled_done _
    | ok report => exact ih report

theorem unpolled_carryOut (changes : List Change) : Unpolled (carryOut changes).run := by
  by_cases h : changes = []
  · rw [h, carryOut_nil]
    exact unpolled_done _
  · rw [carryOut_run h]
    refine unpolled_transact fun listed => ?_
    cases listed with
    | error e => exact unpolled_done _
    | ok subscriptions =>
      refine (unpolled_announceAll _ _).bind fun announced => ?_
      cases announced with
      | error stop => exact unpolled_done _
      | ok report =>
        refine unpolled_transact fun replaced => ?_
        cases replaced <;> exact unpolled_done _

/-! ### One cycle -/

/-- The store shows what a list says about the tracked messages. -/
structure Settled (s : Store) (entries : List ListEntry) : Prop where
  sound : s.Sound
  shown? : ∀ r, s.shown? r =
    (MasterList.snapshot entries (s.trackings.rows.map trackingOfRow)).get? r

theorem Settled.rearranged {s : Store} {entries copy : List ListEntry} (h : Settled s entries)
    (hcopy : List.Forall₂ ListEntry.Rearranged entries copy) : Settled s copy where
  sound := h.sound
  shown? r := by
    rw [h.shown?, MasterList.get?_snapshot, MasterList.get?_snapshot]
    simp only [MasterList.serverAt?_rearranged hcopy]

/-- With a list that says what the store shows, a cycle does nothing. -/
theorem Settled.perform_once {s : Session} {entries : List ListEntry}
    (h : Settled s.store entries) (chat : Platform) (hpoll : s.polls 0 = .ok entries) :
    s.perform chat once.run =
      (.ok (report []), { s with polls := fun n => s.polls (n + 1) }) := by
  obtain ⟨stored, hload, hstored⟩ := h.sound.load_run
  rw [Cycle.perform_once chat hpoll hload,
    changes_eq_nil fun r => (hstored r).trans (h.shown? r), carryOut_nil, perform_done]

section Outcome

variable {s final : Session} {stored current shown : Snapshot} {targets : List MessageRef}
  {content : MessageRef → Option String} {report : CycleReport} {exchanges : List Exchange}

/-- A message shows what is stored after a cycle, unless it is missing. -/
theorem Edits.shown? (h : Edits s shown targets content final exchanges)
    (hsound : final.store.Sound) (r : MessageRef) : final.store.shown? r =
      if r ∈ exchanges.filterMap Exchange.missing? then none else shown.get? r := by
  obtain ⟨after, hafter, hget⟩ := h.stored
  obtain ⟨after', hafter', hshown⟩ := hsound.load_run
  rw [hafter] at hafter'
  cases hafter'
  rw [← hshown, hget]

/-- Missing messages are not tracked any more, and all others show what the list says. -/
theorem Effect.settled {entries : List ListEntry}
    (h : Effect s current targets content report final exchanges)
    (hcurrent : current = MasterList.snapshot entries (s.store.trackings.rows.map trackingOfRow))
    (hsound : final.store.Sound) : Settled final.store entries where
  sound := hsound
  shown? r := by
    rw [h.shown? hsound, MasterList.get?_snapshot, h.trackings, hcurrent, MasterList.get?_snapshot]
    split <;> rfl

end Outcome

theorem sound_once (chat : Platform) {s : Session} (hs : s.store.Sound) :
    (s.perform chat once.run).2.store.Sound :=
  perform_keeps chat (Procedure.only_once.imp fun _ _ ht => ht.access.keeps) hs

/-- A cycle that is given a list settles the store, unless it breaks. -/
theorem settled_once (chat : Platform) {s : Session} (hs : s.store.Sound)
    {entries : List ListEntry} (hpoll : s.polls 0 = .ok entries)
    (hfit : ∀ e ∈ entries, e.info.clients.length ≤ 2 ^ 64)
    (hends : (s.perform chat once.run).1 ≠ .error .panic) :
    Settled (s.perform chat once.run).2.store entries := by
  obtain ⟨stored, hload, hstored⟩ := hs.load_run
  obtain ⟨found, hfound, -⟩ := hs.listSubscriptions_run (stored.changedRefs
    (MasterList.snapshot entries (s.store.trackings.rows.map trackingOfRow)))
  obtain ⟨result, final, exchanges, hrun, houtcome⟩ :=
    perform_once_outcome chat hs hpoll hfit hload hstored rfl hfound
  have hsound := sound_once chat hs
  rw [hrun] at hsound hends ⊢
  cases houtcome with
  | finished h => exact h.settled rfl hsound
  | broken => exact absurd rfl hends

/-! ### Whole runs -/

/-- A poll of a run, and whether it is left out in a shorter run. -/
inductive Poll
  | kept (answer : PollAnswer)
  /-- A poll that fails and is left out. -/
  | failing (e : PollError)
  /-- A list that is polled once more and is left out. -/
  | repeated (entries : List ListEntry)

namespace Poll

def answer : Poll → PollAnswer
  | kept answer => answer
  | failing e => .error e
  | repeated entries => .ok entries

/-- What the poll gives in the shorter run, if it is not left out. -/
def kept? : Poll → Option PollAnswer
  | kept answer => some answer
  | _ => none

/-- The last list that was not left out, when `last` was it before the poll. -/
def last? (last : Option (List ListEntry)) : Poll → Option (List ListEntry)
  | kept (.ok entries) => some entries
  | _ => last

/-- A list that is polled once more is the last one, up to the order in which its entries list their
addresses and clients. -/
def Repeats (last : Option (List ListEntry)) : Poll → Prop
  | repeated copy => ∃ entries, last = some entries ∧
    List.Forall₂ ListEntry.Rearranged entries copy
  | _ => True

/-- Every list that is polled once more repeats the last one. -/
def AllRepeat : Option (List ListEntry) → List Poll → Prop
  | _, [] => True
  | last, p :: rest => p.Repeats last ∧ AllRepeat (p.last? last) rest

/-- The answers of these polls, and empty lists after them. -/
def answers (l : List PollAnswer) : Nat → PollAnswer := fun n => l.getD n (.ok [])

end Poll

open Poll

/-- A cycle polls once, first of all. -/
theorem exists_unpolled_once :
    ∃ next, once.run = .poll next ∧ ∀ answer, Unpolled (next answer) := by
  refine ⟨_, once_run, fun answer => ?_⟩
  cases answer with
  | error e => exact unpolled_done _
  | ok entries =>
    refine unpolled_transact fun listed => ?_
    cases listed with
    | error e => exact unpolled_done _
    | ok trackings =>
      refine unpolled_transact fun loaded => ?_
      cases loaded with
      | error e => exact unpolled_done _
      | ok announced => exact unpolled_carryOut _

/-- Later polls do not matter to a cycle. -/
theorem perform_once_polls (chat : Platform) (s : Session) (polls : Nat → PollAnswer)
    (h : polls 0 = s.polls 0) :
    Session.perform chat once.run { s with polls := polls } =
      ((s.perform chat once.run).1,
        { (s.perform chat once.run).2 with polls := fun n => polls (n + 1) }) := by
  obtain ⟨next, hnext, hunpolled⟩ := exists_unpolled_once
  rw [hnext, perform_poll, perform_poll, ← h]
  exact hunpolled (polls 0) chat { s with polls := fun n => s.polls (n + 1) } _

/-- A cycle that is given the list of a cycle that broke breaks as well. -/
theorem perform_once_again (chat : Platform) {s : Session} (hs : s.store.Sound)
    {entries : List ListEntry} (hpoll : s.polls 0 = .ok entries) (hagain : s.polls 1 = .ok entries)
    (hfit : ∀ e ∈ entries, e.info.clients.length ≤ 2 ^ 64)
    (hbroken : (s.perform chat once.run).1 = .error .panic) :
    (Session.perform chat once.run (s.perform chat once.run).2).1 = .error .panic := by
  obtain ⟨stored, hload, hstored⟩ := hs.load_run
  obtain ⟨found, hfound, hmem⟩ := hs.listSubscriptions_run (stored.changedRefs
    (MasterList.snapshot entries (s.store.trackings.rows.map trackingOfRow)))
  obtain ⟨result, final, exchanges, hrun, houtcome⟩ :=
    perform_once_outcome chat hs hpoll hfit hload hstored rfl hfound
  have hsound := sound_once chat hs
  have hpolls := congrArg (·.2.polls 0) (perform_once_polls chat s s.polls rfl)
  rw [hrun] at hbroken hsound hpolls ⊢
  subst hbroken
  cases houtcome with
  | broken hexists h =>
    obtain ⟨r, hr, hnone⟩ := hexists
    obtain ⟨server, hserver, hwide⟩ := (announces_contentOf hmem hr).eq_none_iff.1 hnone
    -- The message was not edited, so it is still tracked and shows what it showed.
    have hkept : r ∉ exchanges.filterMap Exchange.missing? := by
      intro hmissing
      have hsome := List.mem_takeWhile_imp (h.missing_mem hmissing)
      rw [hnone] at hsome
      cases hsome
    obtain ⟨stored', hload', hstored'⟩ := hsound.load_run
    have hsame : stored'.get? r = stored.get? r := by
      rw [hstored', h.shown? hsound, if_neg hkept]
    have hcurrent : (MasterList.snapshot entries
        (final.store.trackings.rows.map trackingOfRow)).get? r = some server := by
      rw [MasterList.get?_snapshot, h.trackings, if_neg hkept, ← MasterList.get?_snapshot]
      exact hserver
    have hchanged := mem_changedRefs.1 hr
    rw [← hsame, hserver, ← hcurrent] at hchanged
    obtain ⟨_, _, _, hrun', -⟩ := perform_once_wide chat hsound (hpolls.trans hagain) hfit hload'
      rfl (mem_changedRefs.2 hchanged) hcurrent hwide
    rw [hrun']

/-- After a cycle that breaks there is no other cycle. -/
theorem perform_loop_broken {chat : Platform} {s s' : Session}
    (h : s.perform chat once.run = (.error .panic, s')) (n : Nat) :
    s.perform chat (loop (n + 1)) = (false, s') := by
  refine (perform_bind chat s once.run _).trans ?_
  rw [h]
  exact perform_done chat s' false

theorem perform_loop_succ {chat : Platform} {s s' : Session}
    {result : Except CycleStop CycleReport} (h : s.perform chat once.run = (result, s'))
    (hends : result ≠ .error .panic) (n : Nat) :
    s.perform chat (loop (n + 1)) = s'.perform chat (loop n) := by
  refine (perform_bind chat s once.run _).trans ?_
  rw [h]
  dsimp only
  split
  · exact absurd rfl hends
  · rfl

section Cons

variable (chat : Platform) (store : Store) (log : List Exchange) (answer : PollAnswer)
  (rest : List PollAnswer) (n : Nat)

/-- A run that starts with a cycle goes on with the polls after the first one. -/
theorem perform_loop_cons
    (hends : (Session.perform chat once.run ⟨store, log, fun _ => answer⟩).1 ≠ .error .panic) :
    let first := (Session.perform chat once.run ⟨store, log, fun _ => answer⟩).2
    Session.perform chat (loop (n + 1)) ⟨store, log, answers (answer :: rest)⟩ =
      Session.perform chat (loop n) ⟨first.store, first.log, answers rest⟩ :=
  perform_loop_succ (perform_once_polls chat ⟨store, log, fun _ => answer⟩
    (answers (answer :: rest)) rfl) hends n

/-- A run that starts with a cycle that breaks ends there. -/
theorem perform_loop_cons_broken
    (hbroken : (Session.perform chat once.run ⟨store, log, fun _ => answer⟩).1 = .error .panic) :
    let first := (Session.perform chat once.run ⟨store, log, fun _ => answer⟩).2
    Session.perform chat (loop (n + 1)) ⟨store, log, answers (answer :: rest)⟩ =
      (false, ⟨first.store, first.log, answers rest⟩) := by
  have hfirst := perform_once_polls chat ⟨store, log, fun _ => answer⟩
    (answers (answer :: rest)) rfl
  rw [hbroken] at hfirst
  exact perform_loop_broken hfirst n

end Cons

/-- The cycle of a poll leaves the store settled on the last list that was not left out, unless the
cycle breaks. -/
theorem settled_last (chat : Platform) {s : Session} {p : Poll} (hs : s.store.Sound)
    (hpoll : s.polls 0 = p.answer)
    (hfit : ∀ entries, p = .kept (.ok entries) →
      ∀ e ∈ entries, e.info.clients.length ≤ 2 ^ 64)
    {last : Option (List ListEntry)} (hlast : ∀ entries ∈ last, Settled s.store entries)
    (hrepeats : p.Repeats last) (hends : (s.perform chat once.run).1 ≠ .error .panic) :
    ∀ entries ∈ p.last? last, Settled (s.perform chat once.run).2.store entries := by
  match p with
  | .kept (.ok entries) =>
    intro entries' hentries
    cases hentries
    exact settled_once chat hs hpoll (hfit entries rfl) hends
  | .kept (.error e) =>
    rw [perform_once_error chat hpoll]
    exact hlast
  | .failing e =>
    rw [perform_once_error chat hpoll]
    exact hlast
  | .repeated copy =>
    obtain ⟨entries, rfl, hcopy⟩ := hrepeats
    rw [((hlast entries rfl).rearranged hcopy).perform_once chat hpoll]
    exact hlast

/-- A cycle whose poll is left out does nothing and does not break. -/
theorem perform_once_left_out (chat : Platform) {s : Session} {p : Poll}
    (hpoll : s.polls 0 = p.answer) (hkept : p.kept? = none) {last : Option (List ListEntry)}
    (hlast : ∀ entries ∈ last, Settled s.store entries) (hrepeats : p.Repeats last) :
    ∃ result, result ≠ .error .panic ∧
      s.perform chat once.run = (result, { s with polls := fun n => s.polls (n + 1) }) := by
  match p with
  | .kept answer => cases hkept
  | .failing e =>
    refine ⟨_, fun hpanic => ?_, perform_once_error chat hpoll⟩
    cases hpanic
  | .repeated copy =>
    obtain ⟨entries, rfl, hcopy⟩ := hrepeats
    refine ⟨_, fun hpanic => ?_, ((hlast entries rfl).rearranged hcopy).perform_once chat hpoll⟩
    cases hpanic

/-- A store before polls, where `last` is the last list before them that was not left out. -/
structure Ready (store : Store) (last : Option (List ListEntry)) (polls : List Poll) : Prop where
  sound : store.Sound
  settled : ∀ entries ∈ last, Settled store entries
  allRepeat : AllRepeat last polls
  fit : ∀ entries, .kept (.ok entries) ∈ polls → ∀ e ∈ entries, e.info.clients.length ≤ 2 ^ 64

/-- Two runs end alike: both go on or both are over, with the same calls and the same store. -/
structure SameEnd (x y : Bool × Session) : Prop where
  going : x.1 = y.1
  log : x.2.log = y.2.log
  store : x.2.store = y.2.store

section Run

variable (chat : Platform) {polls : List Poll} {last : Option (List ListEntry)} {store : Store}

theorem Ready.next {p : Poll} (h : Ready store last (p :: polls)) {log : List Exchange}
    (hends : (Session.perform chat once.run ⟨store, log, fun _ => p.answer⟩).1 ≠ .error .panic) :
    Ready (Session.perform chat once.run ⟨store, log, fun _ => p.answer⟩).2.store (p.last? last)
      polls where
  sound := sound_once chat h.sound
  settled := settled_last chat h.sound rfl
    (fun entries hp => h.fit entries (hp ▸ List.mem_cons_self)) h.settled h.allRepeat.1 hends
  allRepeat := h.allRepeat.2
  fit entries hp := h.fit entries (List.mem_cons_of_mem _ hp)

/-- Leaving out polls does not change how a run ends. -/
theorem loop_left_out (h : Ready store last polls) (log : List Exchange) :
    SameEnd
      (Session.perform chat (loop (polls.map answer).length)
        ⟨store, log, answers (polls.map answer)⟩)
      (Session.perform chat (loop (polls.filterMap kept?).length)
        ⟨store, log, answers (polls.filterMap kept?)⟩) := by
  induction polls generalizing store log last with
  | nil => exact ⟨rfl, rfl, rfl⟩
  | cons p rest ih =>
    rw [List.map_cons, List.length_cons]
    cases hkept : p.kept? with
    | some answer =>
      have hanswer : p.answer = answer := by
        cases p <;> cases hkept
        rfl
      rw [List.filterMap_cons_some hkept, List.length_cons, ← hanswer]
      by_cases hends :
          (Session.perform chat once.run ⟨store, log, fun _ => p.answer⟩).1 = .error .panic
      · rw [perform_loop_cons_broken chat store log _ _ _ hends,
          perform_loop_cons_broken chat store log _ _ _ hends]
        exact ⟨rfl, rfl, rfl⟩
      · rw [perform_loop_cons chat store log _ _ _ hends,
          perform_loop_cons chat store log _ _ _ hends]
        exact ih (h.next chat hends) _
    | none =>
      obtain ⟨result, hends, hfirst⟩ := perform_once_left_out chat
        (s := ⟨store, log, fun _ => p.answer⟩) rfl hkept h.settled h.allRepeat.1
      have hgoing : (Session.perform chat once.run ⟨store, log, fun _ => p.answer⟩).1 ≠
          .error .panic := by
        rw [hfirst]
        exact hends
      have hnext := h.next chat hgoing
      rw [List.filterMap_cons_none hkept, perform_loop_cons chat store log _ _ _ hgoing]
      rw [hfirst] at hnext ⊢
      exact ih hnext log

/-- While a run goes on, the cycle of a list that is polled once more finds nothing to do. -/
theorem report_repeated (h : Ready store last polls) (log : List Exchange) {i : Nat}
    {copy : List ListEntry} (hi : polls[i]? = some (.repeated copy))
    (hgoing : (Session.perform chat (loop i) ⟨store, log, answers (polls.map answer)⟩).1) :
    (Session.perform chat once.run
      (Session.perform chat (loop i) ⟨store, log, answers (polls.map answer)⟩).2).1 =
        .ok (report []) := by
  induction polls generalizing store log last i with
  | nil => cases hi
  | cons p rest ih =>
    cases i with
    | zero =>
      cases hi
      obtain ⟨entries, rfl, hcopy⟩ := h.allRepeat.1
      have hcycle := ((h.settled entries rfl).rearranged hcopy).perform_once chat
        (s := ⟨store, log, answers (.ok copy :: rest.map answer)⟩) rfl
      exact congrArg Prod.fst hcycle
    | succ i =>
      rw [List.map_cons] at hgoing ⊢
      by_cases hends :
          (Session.perform chat once.run ⟨store, log, fun _ => p.answer⟩).1 = .error .panic
      · rw [perform_loop_cons_broken chat store log _ _ _ hends] at hgoing
        cases hgoing
      · rw [perform_loop_cons chat store log _ _ _ hends] at hgoing ⊢
        exact ih (h.next chat hends) _ hi hgoing

/-- With lists of clients that are not too wide a run goes on. -/
theorem loop_going (h : Ready store last polls) (log : List Exchange)
    (hnarrow : ∀ entries, .kept (.ok entries) ∈ polls → ∀ e ∈ entries, e.Narrow) {i : Nat}
    (hi : i ≤ polls.length) :
    (Session.perform chat (loop i) ⟨store, log, answers (polls.map answer)⟩).1 := by
  induction polls generalizing store log last i with
  | nil =>
    cases Nat.le_zero.1 hi
    rfl
  | cons p rest ih =>
    cases i with
    | zero => rfl
    | succ i =>
      have hends :
          (Session.perform chat once.run ⟨store, log, fun _ => p.answer⟩).1 ≠ .error .panic := by
        cases hkept : p.kept? with
        | none =>
          obtain ⟨result, hends, hfirst⟩ := perform_once_left_out chat
            (s := ⟨store, log, fun _ => p.answer⟩) rfl hkept h.settled h.allRepeat.1
          rw [hfirst]
          exact hends
        | some answer =>
          match p with
          | .kept (.error e) =>
            rw [perform_once_error chat rfl]
            exact fun hpanic => by cases hpanic
          | .kept (.ok entries) =>
            exact perform_once_ne_panic chat h.sound rfl (h.fit entries List.mem_cons_self)
              (hnarrow entries List.mem_cons_self)
      rw [List.map_cons, perform_loop_cons chat store log _ _ _ hends]
      exact ih (h.next chat hends) _ (fun entries hp => hnarrow entries (List.mem_cons_of_mem _ hp))
        (Nat.le_of_succ_le_succ hi)

end Run

/-- Polls that fail and lists that are polled once more are not seen.  With or without them a run
makes the same calls with the same results and leaves the same store, whatever becomes of the calls,
and while the run goes on, each cycle of a list that is polled once more finds nothing to do.  A run
goes on unless a name or a clan is longer than a column can be wide.  No entry has more clients than
there are 64-bit positions. -/
theorem loop_unseen {s : Store} (h : Reachable s) (chat : Platform) (log : List Exchange)
    {polls : List Poll} (hrepeat : AllRepeat none polls) (hfit : ∀ entries,
      .kept (.ok entries) ∈ polls → ∀ e ∈ entries, e.info.clients.length ≤ 2 ^ 64) :
    let run (l : List PollAnswer) (i : Nat) : Bool × Session :=
      Session.perform chat (loop i) ⟨s, log, answers l⟩
    let long := polls.map answer
    let short := polls.filterMap kept?
    SameEnd (run long long.length) (run short short.length) ∧
      (∀ i copy, polls[i]? = some (.repeated copy) → (run long i).1 = true →
        (Session.perform chat once.run (run long i).2).1 =
          .ok { changedAddresses := [], new := 0, changed := 0, offline := 0, delivered := 0,
                failed := 0, removed := 0 }) ∧
      ((∀ entries, .kept (.ok entries) ∈ polls → ∀ e ∈ entries, e.Narrow) →
        ∀ i ≤ polls.length, (run long i).1 = true) := by
  intro run long short
  have hready : Ready s none polls :=
    ⟨h.sound, fun entries hlast => (nomatch hlast), hrepeat, hfit⟩
  exact ⟨loop_left_out chat hready log, fun i copy hi => report_repeated chat hready log hi,
    fun hnarrow i hi => loop_going chat hready log hnarrow hi⟩

/-- A server is new, and no edit is answered in time.  Neither the poll that fails after that nor
the same list with its addresses the other way round makes a call, and the cycle of the latter finds
nothing to do. -/
theorem loop_unseen_timeout :
    let entries : List ListEntry :=
      [⟨["tw-0.6+udp://1.2.3.4:8303", "tw-0.7+udp://1.2.3.4:8303"], none, {}⟩]
    let copy : List ListEntry :=
      [⟨["tw-0.7+udp://1.2.3.4:8303", "tw-0.6+udp://1.2.3.4:8303"], none, {}⟩]
    let s := Write.apply {} (.track ⟨⟨1, 2, 3⟩, "1.2.3.4:8303"⟩)
    let final (l : List PollAnswer) : Session :=
      (Session.perform (fun _ _ => .silence) (loop l.length) ⟨s, [], answers l⟩).2
    let long : List PollAnswer := [.ok entries, .error (.status 503), .ok copy]
    (final long).log = (final [.ok entries]).log ∧ (final [.ok entries]).log.length = 1 ∧
      (Session.perform (fun _ _ => .silence) once.run
        (Session.perform (fun _ _ => .silence) (loop 2) ⟨s, [], answers long⟩).2).1 =
          .ok { changedAddresses := [], new := 0, changed := 0, offline := 0 } := by
  intro entries copy s final long
  have hcopy : List.Forall₂ ListEntry.Rearranged entries copy :=
    .cons ⟨.swap _ _ _, .refl _, rfl⟩ .nil
  let polls : List Poll := [.kept (.ok entries), .failing (.status 503), .repeated copy]
  have hrepeat : AllRepeat none polls := ⟨trivial, trivial, ⟨entries, rfl, hcopy⟩, trivial⟩
  have hpolled (polled : List ListEntry) (hpolled : .kept (.ok polled) ∈ polls) :
      polled = entries := by
    simpa [polls] using hpolled
  have hfit (polled : List ListEntry) (hmem : .kept (.ok polled) ∈ polls) :
      ∀ e ∈ polled, e.info.clients.length ≤ 2 ^ 64 := by
    rw [hpolled polled hmem]
    decide
  have hnarrow (polled : List ListEntry) (hmem : .kept (.ok polled) ∈ polls) :
      ∀ e ∈ polled, e.Narrow := by
    rw [hpolled polled hmem]
    decide
  obtain ⟨hsame, hreport, hgoing⟩ :=
    loop_unseen (.write _ .fresh : Reachable s) (fun _ _ => .silence) [] hrepeat hfit
  exact ⟨hsame.log, by decide +kernel, hreport 2 copy rfl (hgoing hnarrow 2 (by decide))⟩

/-- A tracked server shows up in the list with a client whose name has one character more than a
column can have, and the list is polled once more.  Then the run is over after the first cycle, and
a second cycle would break like the first one. -/
theorem loop_breaks :
    let client : Client := ⟨"".pushn 'x' 65536, "", -1, 0, true, 0⟩
    let entries : List ListEntry :=
      [⟨["tw-0.6+udp://1.2.3.4:8303"], none, { clients := [client] }⟩]
    let s := Write.apply {} (.track ⟨⟨1, 2, 3⟩, "1.2.3.4:8303"⟩)
    let polls : List Poll := [.kept (.ok entries), .repeated entries]
    AllRepeat none polls ∧ ∀ chat,
      let first := Session.perform chat (loop 1) ⟨s, [], answers (polls.map answer)⟩
      first.1 = false ∧ (Session.perform chat once.run first.2).1 = .error .panic := by
  intro client entries s polls
  have hclient : ¬ client.Narrow := fun h => by simpa [client, Text.maxWidth] using h.name
  clear_value client
  refine ⟨⟨trivial, ⟨entries, rfl, .cons (.refl _) .nil⟩, trivial⟩, fun chat => ?_⟩
  intro first
  have hs := (.write _ .fresh : Reachable s).sound
  obtain ⟨stored, hload, hstored⟩ := hs.load_run
  let e : ListEntry := ⟨["tw-0.6+udp://1.2.3.4:8303"], none, { clients := [client] }⟩
  have hwide : ¬ e.Narrow := fun h => hclient (h client (List.mem_singleton_self _))
  have hnames : e.Names (Address.normalize "1.2.3.4:8303") :=
    ⟨"tw-0.6+udp", _, List.mem_singleton_self _, by decide +kernel⟩
  have htracked : s.trackings.find? (MessageRef.key ⟨1, 2, 3⟩) = some "1.2.3.4:8303" := by
    decide +kernel
  obtain ⟨server, hcurrent, hnarrow⟩ :=
    exists_current_of_first htracked [] [] (by simp) hnames
  have hr := (mem_changedRefs_of_unshown hstored).2 ⟨server, hcurrent⟩
  have hfit : ∀ e ∈ entries, e.info.clients.length ≤ 2 ^ 64 := by simp [entries]
  let start : Session := ⟨s, [], answers (polls.map answer)⟩
  obtain ⟨_, final, _, hrun, -⟩ := perform_once_wide chat (s := start) hs rfl hfit hload rfl hr
    hcurrent (hwide ∘ hnarrow.1)
  have hfirst : first = (false, final) := perform_loop_broken hrun 0
  have hagain := perform_once_again chat (s := start) hs rfl rfl hfit (congrArg Prod.fst hrun)
  rw [hrun] at hagain
  rw [hfirst]
  exact ⟨rfl, hagain⟩

end Cycle

end StatusBoard
