import StatusBoard.Proofs.Tracking.Fate

/-!
# Status messages mirror what is announced

The text of a message and the server that is stored for it are written at different times, and
either of them may be left out.  Still, on a platform that gives every message a new id, a message
whose latest text was taken shows the stored server, the last stored one if none is stored any more,
or the placeholder if none was ever stored.  Only a cycle that breaks since a content cannot be
formatted leaves texts behind that are not stored (`Session.content_mirrors`).
-/

namespace StatusBoard

open Store

/-- The server of a message in the snapshot that is loaded from the store. -/
def Store.loaded? (s : Store) (r : MessageRef) : Option Server :=
  match load.run s with
  | .ok (snapshot, _) => snapshot.get? r
  | .error _ => none

theorem Store.Sound.loaded?_eq {s : Store} (hs : s.Sound) (r : MessageRef) :
    s.loaded? r = s.shown? r := by
  obtain ⟨snapshot, hload, hget⟩ := hs.load_run
  rw [Store.loaded?, hload]
  exact hget r

namespace Session

variable (chat : Platform) (start : Session)

/-! ### Histories -/

/-- The session after some occasions, the latest of which comes first. -/
def after : List Occasion → Session
  | [] => start
  | o :: earlier => ((after earlier).perform chat o.procedure).2

/-- The last server that was stored for a message since it is tracked. -/
def lastLoaded? (r : MessageRef) : List Occasion → Option Server
  | [] => none
  | o :: earlier =>
    let now := (start.after chat (o :: earlier)).store
    if now.tracks r then (now.loaded? r).or (lastLoaded? r earlier) else none

/-- The cycle after some occasions gave a message its latest text. -/
def EditedAfter (earlier occasions : List Occasion) (r : MessageRef) (text : String) : Prop :=
  ∃ later during since,
    occasions = later ++ .cycle :: earlier ∧
    (start.after chat (.cycle :: earlier)).log = during ++ (start.after chat earlier).log ∧
    (start.after chat occasions).log = since ++ (start.after chat (.cycle :: earlier)).log ∧
    lastContent? during r = some (text, true) ∧ lastContent? since r = none

/-- What the text of a message at an address is.  If a server is stored for the message, the text is
about that server, with everyone whose threshold it reached when the text was written.  If a server
was stored but is not any more, the text says that it is offline.  Otherwise it is the
placeholder. -/
def Mirrors (occasions : List Occasion) (r : MessageRef) (address text : String) : Prop :=
  match (start.after chat occasions).store.loaded? r, start.lastLoaded? chat r occasions with
  | some server, _ => ∃ earlier mentions, start.EditedAfter chat earlier occasions r text ∧
      Strict mentions ∧
      (∀ user, user ∈ mentions ↔ ∃ t, (start.after chat earlier).store.threshold? r user = some t ∧
        t.clients ≤ server.clientCount) ∧
      Message.online server mentions = some text
  | none, some old => text = Message.offline old
  | none, none => text = Message.placeholder address

/-- The latest text of a message comes from a cycle that broke after that. -/
def LeftBroken (occasions : List Occasion) (r : MessageRef) (text : String) : Prop :=
  ∃ earlier, start.EditedAfter chat earlier occasions r text ∧
    (start.after chat earlier).Breaks chat .cycle

variable {chat start} {earlier : List Occasion} {o : Occasion} {r : MessageRef}
  {address text : String}

theorem after_cons : start.after chat (o :: earlier) =
    ((start.after chat earlier).perform chat o.procedure).2 := rfl

theorem after_faithful (hfresh : chat.Fresh) (h : start.Faithful) (occasions : List Occasion) :
    (start.after chat occasions).Faithful := by
  induction occasions with
  | nil => exact h
  | cons o earlier ih => exact occasion_faithful hfresh ih o

/-- What holds of all answers that polls are going to get goes on to hold. -/
theorem after_polls {P : PollAnswer → Prop} (h : ∀ n, P (start.polls n))
    (occasions : List Occasion) : ∀ n, P ((start.after chat occasions).polls n) := by
  induction occasions with
  | nil => exact h
  | cons o earlier ih => exact perform_polls chat o.procedure ih

theorem lastLoaded?_cons (htracks : (start.after chat (o :: earlier)).store.tracks r) :
    start.lastLoaded? chat r (o :: earlier) =
      ((start.after chat (o :: earlier)).store.loaded? r).or (start.lastLoaded? chat r earlier) :=
  if_pos htracks

theorem lastLoaded?_of_untracked (h : ¬ (start.after chat earlier).store.tracks r) :
    start.lastLoaded? chat r earlier = none := by
  cases earlier with
  | nil => rfl
  | cons o earlier => exact if_neg h

theorem lastLoaded?_of_loaded (hempty : start.store.loaded? r = none)
    (hs : (start.after chat earlier).store.Sound) {server : Server}
    (h : (start.after chat earlier).store.loaded? r = some server) :
    start.lastLoaded? chat r earlier = some server := by
  cases earlier with
  | nil =>
    have hnone : start.store.loaded? r = some server := h
    rw [hempty] at hnone
    cases hnone
  | cons o earlier =>
    have htracks := hs.tracks_of_shown? ((hs.loaded?_eq r).symm.trans h)
    rw [lastLoaded?_cons htracks, h]
    rfl

theorem lastLoaded?_cons_of_none
    (hloaded : (start.after chat (o :: earlier)).store.loaded? r = none)
    (h : start.lastLoaded? chat r earlier = none) :
    start.lastLoaded? chat r (o :: earlier) = none := by
  rw [lastLoaded?]
  split
  · rw [hloaded, h]
    rfl
  · rfl

/-! ### One more occasion -/

theorem EditedAfter.cons {first : List Occasion}
    (h : start.EditedAfter chat first earlier r text) {during : List Exchange}
    (hlog : (start.after chat (o :: earlier)).log = during ++ (start.after chat earlier).log)
    (hquiet : lastContent? during r = none) :
    start.EditedAfter chat first (o :: earlier) r text := by
  obtain ⟨later, edit, since, rfl, hedit, hsince, hcontent, hnone⟩ := h
  refine ⟨o :: later, edit, during ++ since, rfl, hedit, ?_, hcontent, ?_⟩
  · rw [hlog, hsince, List.append_assoc]
  · rw [lastContent?_append, hquiet, hnone]
    rfl

/-- A text goes on to mirror what is announced while its message is left alone. -/
theorem Mirrors.cons (h : start.Mirrors chat earlier r address text) {during : List Exchange}
    (hlog : (start.after chat (o :: earlier)).log = during ++ (start.after chat earlier).log)
    (hquiet : lastContent? during r = none)
    (hloaded : (start.after chat (o :: earlier)).store.loaded? r =
      (start.after chat earlier).store.loaded? r)
    (htracks : (start.after chat (o :: earlier)).store.tracks r) :
    start.Mirrors chat (o :: earlier) r address text := by
  unfold Mirrors at h ⊢
  rw [lastLoaded?_cons htracks, hloaded]
  cases hnow : (start.after chat earlier).store.loaded? r with
  | some server =>
    rw [hnow] at h
    obtain ⟨first, mentions, hedited, hmentions⟩ := h
    exact ⟨first, mentions, hedited.cons hlog hquiet, hmentions⟩
  | none =>
    rw [hnow] at h
    rw [Option.none_or]
    cases hlast : start.lastLoaded? chat r earlier <;> rw [hlast] at h <;> exact h

theorem LeftBroken.cons (h : start.LeftBroken chat earlier r text) {during : List Exchange}
    (hlog : (start.after chat (o :: earlier)).log = during ++ (start.after chat earlier).log)
    (hquiet : lastContent? during r = none) : start.LeftBroken chat (o :: earlier) r text := by
  obtain ⟨first, hedited, hbreaks⟩ := h
  exact ⟨first, hedited.cons hlog hquiet, hbreaks⟩

/-- The placeholder of a new message mirrors that nothing is announced. -/
theorem mirrors_created (hloaded : (start.after chat (o :: earlier)).store.loaded? r = none)
    (htracks : (start.after chat (o :: earlier)).store.tracks r)
    (hnew : ¬ (start.after chat earlier).store.tracks r) :
    start.Mirrors chat (o :: earlier) r address (Message.placeholder address) := by
  unfold Mirrors
  rw [lastLoaded?_cons htracks, hloaded, lastLoaded?_of_untracked hnew]
  rfl

/-- While nothing was stored for a message, only its placeholder mirrors that. -/
theorem Mirrors.eq_placeholder (h : start.Mirrors chat earlier r address text)
    (hloaded : (start.after chat earlier).store.loaded? r = none)
    (hlast : start.lastLoaded? chat r earlier = none) : text = Message.placeholder address := by
  unfold Mirrors at h
  rw [hloaded, hlast] at h
  exact h

/-- The text that a cycle gives to a message mirrors what the cycle stores. -/
theorem mirrors_edited (hempty : start.store.loaded? r = none)
    (hs : (start.after chat earlier).store.Sound) {during : List Exchange}
    (hlog : (start.after chat (.cycle :: earlier)).log = during ++ (start.after chat earlier).log)
    (hcontent : lastContent? during r = some (text, true))
    (htracks : (start.after chat (.cycle :: earlier)).store.tracks r) {stored current : Snapshot}
    (hstored : stored.get? r = (start.after chat earlier).store.loaded? r)
    (hcurrent : current.get? r = (start.after chat (.cycle :: earlier)).store.loaded? r)
    (h : Cycle.Announces (start.after chat earlier).store stored current r (some text)) :
    start.Mirrors chat (.cycle :: earlier) r address text := by
  unfold Cycle.Announces at h
  unfold Mirrors
  rw [lastLoaded?_cons htracks, ← hcurrent]
  cases hserver : current.get? r with
  | some server =>
    rw [hserver] at h
    obtain ⟨mentions, hstrict, hmentions, honline⟩ := h
    exact ⟨earlier, mentions, ⟨[], during, [], rfl, hlog, rfl, hcontent, rfl⟩, hstrict, hmentions,
      honline.symm⟩
  | none =>
    cases hold : stored.get? r with
    | some old =>
      rw [hserver, hold] at h
      rw [lastLoaded?_of_loaded hempty hs (hstored.symm.trans hold)]
      exact Option.some.inj h
    | none =>
      rw [hserver, hold] at h
      exact h.elim

/-! ### All occasions -/

theorem faithful_start {polls : Nat → PollAnswer} (hfit : ∀ n entries, polls n = .ok entries →
    ∀ e ∈ entries, e.info.clients.length < 2 ^ 64) : Faithful { polls := polls } where
  sound := sound_empty
  posted _ h := nomatch h
  address _ _ h := nomatch h
  shown _ _ h := nomatch h
  fit := hfit

/-- A cycle breaks only if the polled list has a name or a clan that is longer than a column can be
wide. -/
theorem Breaks.exists_wide {s : Session} (h : s.Breaks chat o) (hs : s.Faithful) :
    ∃ entries, s.polls 0 = .ok entries ∧ ∃ e ∈ entries, ¬ e.Narrow := by
  cases hpoll : s.polls 0 with
  | error e =>
    have hpanic := h.2
    rw [Cycle.perform_once_error chat hpoll] at hpanic
    cases hpanic
  | ok entries =>
    refine ⟨entries, rfl, Decidable.byContradiction fun hnone => ?_⟩
    have hnarrow (e : ListEntry) (he : e ∈ entries) : e.Narrow :=
      Decidable.byContradiction fun hwide => hnone ⟨e, he, hwide⟩
    have hfit (e : ListEntry) (he : e ∈ entries) : e.info.clients.length ≤ 2 ^ 64 :=
      Nat.le_of_lt (hs.fit 0 entries hpoll e he)
    exact Cycle.perform_once_ne_panic chat hs.sound hpoll hfit hnarrow h.2

/-- Starting with an empty store, after any occasions and whatever the platform and the master list
answer, there is a latest call about the text of each tracked message.  If that call succeeded, its
text mirrors what is announced, unless the call was made by a cycle that broke, which takes a polled
name or clan that is longer than a column can be wide.  Messages get new ids, and no entry has more
clients than 64 bits count. -/
theorem content_mirrors (hfresh : chat.Fresh) {polls : Nat → PollAnswer}
    (hfit : ∀ n entries, polls n = .ok entries →
      ∀ e ∈ entries, e.info.clients.length < 2 ^ 64)
    (occasions : List Occasion) (r : MessageRef) (address : String) :
    let start : Session := { polls := polls }
    (start.after chat occasions).store.trackings.find? r.key = some address →
      ∃ text accepted, lastContent? (start.after chat occasions).log r = some (text, accepted) ∧
        (accepted = true → start.Mirrors chat occasions r address text ∨
          start.LeftBroken chat occasions r text ∧
            ∃ n entries, polls n = .ok entries ∧ ∃ e ∈ entries, ¬ e.Narrow) := by
  intro start htracked
  have hstart : start.Faithful := faithful_start hfit
  induction occasions generalizing address with
  | nil => cases htracked
  | cons o earlier ih =>
    have hbefore := after_faithful hfresh hstart earlier
    have hafter := after_faithful hfresh hstart (o :: earlier)
    have htracks := tracks_iff.2 ⟨address, htracked⟩
    obtain ⟨during, hlog, hfate⟩ := occasion_fates hfresh hbefore o
    have hlog : (start.after chat (o :: earlier)).log =
      during ++ (start.after chat earlier).log := hlog
    rw [hlog, lastContent?_append]
    cases hfate r address htracked with
    | kept htracked hshown hcontent =>
      obtain ⟨text, accepted, htext, hmirrors⟩ := ih address htracked
      refine ⟨text, accepted, by rw [hcontent, htext]; rfl, fun haccepted => ?_⟩
      refine (hmirrors haccepted).imp (fun h => h.cons hlog hcontent ?_ htracks)
        (And.imp_left fun h => h.cons hlog hcontent)
      rw [hafter.sound.loaded?_eq, hbefore.sound.loaded?_eq]
      exact hshown
    | created hnew hshown hposted haddress hcontent =>
      refine ⟨_, true, by rw [hcontent]; rfl, fun _ => .inl (mirrors_created ?_ htracks hnew)⟩
      rw [hafter.sound.loaded?_eq]
      exact hshown
    | edited ho htracked haddress stored current hstored hcurrent text accepted hannounces
        hcontent =>
      subst ho
      refine ⟨text, accepted, by rw [hcontent]; rfl, ?_⟩
      rintro rfl
      have hempty : start.store.loaded? r = none := hstart.sound.loaded?_eq r
      refine .inl (mirrors_edited hempty hbefore.sound hlog hcontent htracks ?_ ?_ hannounces)
      · rw [hbefore.sound.loaded?_eq]
        exact hstored
      · rw [hafter.sound.loaded?_eq]
        exact hcurrent
    | broken hbreaks htracked hshown text accepted hcontent =>
      obtain ⟨rfl, -⟩ := id hbreaks
      refine ⟨text, accepted, by rw [hcontent]; rfl, ?_⟩
      rintro rfl
      obtain ⟨entries, hpoll, hwide⟩ := hbreaks.exists_wide hbefore
      have hpolls (m : Nat) : ∃ n, polls n = (start.after chat earlier).polls m :=
        after_polls (P := fun answer => ∃ n, polls n = answer) (fun n => ⟨n, rfl⟩) earlier m
      obtain ⟨n, hn⟩ := hpolls 0
      exact .inr ⟨⟨earlier, ⟨[], during, [], rfl, hlog, rfl, hcontent, rfl⟩, hbreaks⟩, n, entries,
        hn.trans hpoll, hwide⟩

/-- A tracked server shows up in one cycle and is gone in the next one, and all edits succeed.  Then
the message says that the server is offline. -/
theorem content_mirrors_offline :
    let channel : ChannelRef := ⟨1, 2⟩
    let r := channel.toMessage 3
    let entries : List ListEntry := [⟨["tw-0.6+udp://1.2.3.4:8303"], none, {}⟩]
    let chat : Platform := fun log c => match c with
      | .post channel _ =>
        if log.any fun e => e.posted? = some (channel.toMessage 3) then .silence
        else .answer (.ok 3)
      | .edit _ _ => .answer (.ok ())
      | _ => .silence
    let start : Session := { polls := fun n => .ok (if n = 0 then entries else []) }
    let occasions : List Occasion := [.cycle, .cycle, .create channel "1.2.3.4:8303"]
    ∃ old, start.lastLoaded? chat r occasions = some old ∧
      lastContent? (start.after chat occasions).log r = some (Message.offline old, true) := by
  intro channel r entries chat start occasions
  have hfresh : chat.Fresh := by
    intro log c text id hreply e he hposted
    dsimp only [chat] at hreply
    split at hreply
    · cases hreply
    · next hany =>
      cases hreply
      exact hany (List.any_eq_true.2 ⟨e, he, decide_eq_true hposted⟩)
  have hempty (n : Nat) (polled : List ListEntry)
      (hpolled : (.ok (if n = 0 then entries else []) : PollAnswer) = .ok polled) :
      ∀ e ∈ polled, e.info.clients = [] := by
    cases hpolled
    intro e he
    split at he
    · rw [List.mem_singleton.1 he]
    · cases he
  have hfit (n : Nat) (polled : List ListEntry) (hpolled : start.polls n = .ok polled) :
      ∀ e ∈ polled, e.info.clients.length < 2 ^ 64 := by
    intro e he
    rw [hempty n polled hpolled e he]
    decide
  have hnarrow (n : Nat) (polled : List ListEntry) (hpolled : start.polls n = .ok polled) :
      ∀ e ∈ polled, e.Narrow := by
    intro e he
    rw [ListEntry.Narrow, hempty n polled hpolled e he]
    exact fun c hc => by cases hc
  obtain ⟨text, accepted, hcontent, hmirrors⟩ :=
    content_mirrors hfresh hfit occasions r "1.2.3.4:8303" (by decide +kernel)
  have haccepted : (lastContent? (start.after chat occasions).log r).map Prod.snd = some true := by
    decide +kernel
  have hloaded : (start.after chat occasions).store.loaded? r = none := by decide +kernel
  have hlast : (start.lastLoaded? chat r occasions).isSome := by decide +kernel
  obtain ⟨old, hold⟩ := Option.isSome_iff_exists.1 hlast
  rw [hcontent] at haccepted
  cases haccepted
  have htext : start.Mirrors chat occasions r "1.2.3.4:8303" text := by
    rcases hmirrors rfl with hmirrors | ⟨-, n, polled, hpolled, e, he, hwide⟩
    · exact hmirrors
    · exact absurd (hnarrow n polled hpolled e he) hwide
  unfold Mirrors at htext
  rw [hloaded, hold] at htext
  have htext : text = Message.offline old := htext
  rw [hold, hcontent, htext]
  exact ⟨old, rfl, rfl⟩

/-- What holds of every call with the platform's answer holds of all exchanges of a run. -/
theorem after_exchanges {Q : Exchange → Prop} (hchat : ∀ log c, Q ⟨c, (chat log c).inTime⟩)
    (hstart : ∀ e ∈ start.log, Q e) (occasions : List Occasion) :
    ∀ e ∈ (start.after chat occasions).log, Q e := by
  induction occasions with
  | nil => exact hstart
  | cons o earlier ih => exact perform_exchanges chat hchat o.procedure ih

/-- The platform took the text of a call, if it was about one. -/
structure Taken (e : Exchange) : Prop where
  accepted : ∀ r text accepted, e.content? r = some (text, accepted) → accepted = true
  present : e.missing? = none

/-- A platform that takes every edit takes all texts. -/
theorem after_taken (hchat : ∀ log r text, (chat log (.edit r text)).inTime = .ok ())
    (hstart : start.log = []) (occasions : List Occasion) :
    ∀ e ∈ (start.after chat occasions).log, Taken e := by
  refine after_exchanges (fun log c => ?_) (fun e he => by rw [hstart] at he; cases he) occasions
  cases c with
  | post channel text =>
    refine ⟨fun r text' accepted h => ?_, rfl⟩
    cases hreply : (chat log (.post channel text)).inTime with
    | ok id =>
      rw [hreply, Exchange.content?, Option.ite_none_right_eq_some, Option.some_inj] at h
      exact (congrArg Prod.snd h.2).symm
    | error e =>
      rw [hreply] at h
      cases h
  | edit ref text =>
    rw [hchat]
    refine ⟨fun r text' accepted h => ?_, rfl⟩
    rw [Exchange.content?_of_edit rfl, Option.ite_none_right_eq_some, Option.some_inj] at h
    exact (congrArg Prod.snd h.2).symm
  | delete ref => exact ⟨fun r text accepted h => (nomatch h), rfl⟩
  | addReaction ref emoji => exact ⟨fun r text accepted h => (nomatch h), rfl⟩
  | removeReaction ref user emoji => exact ⟨fun r text accepted h => (nomatch h), rfl⟩

variable {exchanges : List Exchange}

theorem accepted_of_taken (h : ∀ e ∈ exchanges, Taken e) {accepted : Bool}
    (hlast : lastContent? exchanges r = some (text, accepted)) : accepted = true := by
  obtain ⟨e, he, hcontent⟩ := List.exists_of_findSome?_eq_some hlast
  exact (h e he).accepted r text accepted hcontent

theorem missing_of_taken (h : ∀ e ∈ exchanges, Taken e) :
    exchanges.filterMap Exchange.missing? = [] :=
  List.filterMap_eq_nil_iff.2 fun e he => (h e he).present

section Reaction

variable (board : UInt64) (e : Reaction)

theorem after_reactionAdded : start.after chat (.reactionAdded board e :: earlier) =
    ((start.after chat earlier).perform chat (Reaction.added board e)).2 := by
  rw [after_cons, Occasion.procedure, perform_ignore]

/-- Subscribing somebody leaves the trackings alone. -/
theorem trackings_reactionAdded :
    (start.after chat (.reactionAdded board e :: earlier)).store.trackings =
      (start.after chat earlier).store.trackings := by
  rw [after_reactionAdded]
  refine perform_keeps (P := fun store =>
    store.trackings = (start.after chat earlier).store.trackings) chat
      (Procedure.only_added (fun r user t => ?_) board e) rfl
  intro store _ store' hstore hrun
  rw [setThreshold_run] at hrun
  split at hrun
  · cases hrun
    exact hstore
  · cases hrun

/-- A text other than the placeholder does not mirror that nothing was ever announced, and a
reaction changes neither. -/
theorem not_mirrors_reactionAdded (hs : (start.after chat earlier).store.Sound)
    (hlast : lastContent? (start.after chat earlier).log r = some (text, true))
    (hunloaded : (start.after chat earlier).store.loaded? r = none)
    (hnone : start.lastLoaded? chat r earlier = none) (htext : text ≠ Message.placeholder address) :
    lastContent? (start.after chat (.reactionAdded board e :: earlier)).log r = some (text, true) ∧
      ¬ start.Mirrors chat (.reactionAdded board e :: earlier) r address text := by
  have hreacted := Reaction.quiet_added board e chat _ hs
  rw [← after_reactionAdded] at hreacted
  obtain ⟨during, hlog, hquiet⟩ := hreacted.log
  have hloaded : (start.after chat (.reactionAdded board e :: earlier)).store.loaded? r = none := by
    rw [hreacted.sheds.fades.sound.loaded?_eq, hreacted.sheds.fades.shown?, ← hs.loaded?_eq,
      hunloaded, ite_self]
  refine ⟨?_, fun hmirrors => htext ?_⟩
  · rw [hlog, lastContent?_append, hquiet, hlast]
    rfl
  · exact hmirrors.eq_placeholder hloaded (lastLoaded?_cons_of_none hloaded hnone)

end Reaction

/-- A cycle that has two messages to show for the first time, and cannot format the second one,
edits the first one and stores nothing. -/
theorem perform_once_second (chat : Platform) {s : Session} (hs : s.Faithful)
    {entries : List ListEntry} (hpoll : s.polls 0 = .ok entries)
    (hunshown : ∀ r, s.store.shown? r = none) {first second : MessageRef}
    (hlt : compare first second = .lt) {address address' : String}
    (hlisted : s.store.trackings.rows.map trackingOfRow = [⟨first, address⟩, ⟨second, address'⟩])
    {server server' : Server}
    (hserver : (MasterList.snapshot entries (s.store.trackings.rows.map trackingOfRow)).get? first =
      some server)
    (hnarrow : server.Narrow)
    (hserver' : (MasterList.snapshot entries
      (s.store.trackings.rows.map trackingOfRow)).get? second = some server')
    (hwide : ¬ server'.Narrow) :
    ∃ final exchanges text mentions accepted,
      s.perform chat Cycle.once.run = (.error .panic, final) ∧
      final.log = exchanges ++ s.log ∧ (∀ r, final.store.loaded? r = none) ∧
      (∀ r, r ∉ exchanges.filterMap Exchange.missing? →
        final.store.trackings.find? r.key = s.store.trackings.find? r.key) ∧
      Message.online server mentions = some text ∧
      lastContent? exchanges first = some (text, accepted) := by
  obtain ⟨stored, hload, hstored⟩ := hs.sound.load_run
  let current := MasterList.snapshot entries (s.store.trackings.rows.map trackingOfRow)
  have hfit := hs.fit 0 entries hpoll
  have hchanged (r : MessageRef) : r ∈ stored.changedRefs current ↔ r = first ∨ r = second := by
    rw [mem_changedRefs_of_unshown fun r => (hstored r).trans (hunshown r)]
    constructor
    · rintro ⟨server, hserver⟩
      have hmem := (MasterList.of_get?_snapshot hserver).1
      rw [hlisted] at hmem
      exact List.mem_pair.1 hmem
    · rintro (rfl | rfl)
      · exact ⟨server, hserver⟩
      · exact ⟨server', hserver'⟩
  have htargets : stored.changedRefs current = [first, second] := by
    refine (strict_changedRefs stored current).ext (List.pairwise_pair.2 hlt) fun r => ?_
    rw [hchanged, List.mem_pair]
  obtain ⟨content, final, exchanges, hrun, hannounces, hedits⟩ := Cycle.perform_once_wide chat
    hs.sound hpoll (fun e he => Nat.le_of_lt (hfit e he)) hload rfl
    ((hchanged second).2 (.inr rfl)) hserver' hwide
  have hfirst := hannounces first ((hchanged first).2 (.inl rfl))
  have hsecond := hannounces second ((hchanged second).2 (.inr rfl))
  have hnot : content second = none := hsecond.eq_none_iff.2 ⟨server', hserver', hwide⟩
  have hannounced := hfirst
  unfold Cycle.Announces at hannounced
  rw [hserver] at hannounced
  obtain ⟨mentions, -, -, honline⟩ := hannounced
  obtain ⟨text, htext⟩ := Option.ne_none_iff_exists'.1
    (mt Message.online_eq_none_iff.1 (not_not.2 hnarrow) : Message.online server mentions ≠ none)
  rw [htext] at honline
  have htaken : (stored.changedRefs current).takeWhile (fun r => (content r).isSome) = [first] := by
    rw [htargets]
    simp [honline, hnot]
  rw [htaken] at hedits
  have hcheck (r : MessageRef) (hr : r ∈ [first]) (text : String)
      (hcontent : content r = some text) : Message.check text = .ok () := by
    rw [List.mem_singleton.1 hr, honline] at hcontent
    cases hcontent
    exact Message.check_online
      (Cycle.length_clients_of_get?_current (P := (· < 2 ^ 64)) hfit hserver) htext
  obtain ⟨accepted, hlast⟩ :=
    (hedits.lastContent? hcheck first).1 text (List.mem_singleton_self _) honline
  have hsound := Cycle.sound_once chat hs.sound
  rw [hrun] at hsound
  refine ⟨final, exchanges, text, mentions, accepted, hrun, hedits.log, fun r => ?_, fun r hr => ?_,
    htext, hlast⟩
  · rw [hsound.loaded?_eq, hedits.shown? hsound, hstored, hunshown, ite_self]
  · rw [hedits.trackings, if_neg hr]

/-- Two messages are tracked, and the server of the second one has a client whose name has one
character more than a column can have.  The cycle edits the first message and breaks before it
stores anything.  When somebody has reacted after that, the first message has a text that was taken,
but it does not mirror that nothing is announced. -/
theorem content_unmirrored :
    let channel : ChannelRef := ⟨1, 2⟩
    let r := channel.toMessage 3
    let client : Client := ⟨"".pushn 'x' 65536, "", -1, 0, true, 0⟩
    let entries : List ListEntry := [⟨["tw-0.6+udp://1.2.3.4:8303"], none, {}⟩,
      ⟨["tw-0.6+udp://1.2.3.5:8303"], none, { clients := [client] }⟩]
    let chat : Platform := fun log c => match c with
      | .post channel _ =>
        if log.any fun e => e.posted? = some (channel.toMessage 4) then .silence
        else if log.any fun e => e.posted? = some (channel.toMessage 3) then .answer (.ok 4)
        else .answer (.ok 3)
      | .edit _ _ => .answer (.ok ())
      | _ => .silence
    let start : Session := { polls := fun _ => .ok entries }
    let occasions : List Occasion := [.reactionAdded 1 ⟨r, 7, "3\uFE0F\u20E3"⟩, .cycle,
      .create channel "1.2.3.5:8303", .create channel "1.2.3.4:8303"]
    chat.Fresh ∧ (start.after chat occasions).store.trackings.find? r.key = some "1.2.3.4:8303" ∧
      ∃ text, lastContent? (start.after chat occasions).log r = some (text, true) ∧
        ¬ start.Mirrors chat occasions r "1.2.3.4:8303" text := by
  intro channel r client entries chat start occasions
  have hclient : ¬ client.Narrow := fun h => by simpa [client, Text.maxWidth] using h.name
  let second := channel.toMessage 4
  let created := start.after chat
    [.create channel "1.2.3.5:8303", .create channel "1.2.3.4:8303"]
  have hlisted : created.store.trackings.rows.map trackingOfRow =
      [⟨r, "1.2.3.4:8303"⟩, ⟨second, "1.2.3.5:8303"⟩] := by decide +kernel
  have htracked : created.store.trackings.find? r.key = some "1.2.3.4:8303" := by decide +kernel
  have htracked' : created.store.trackings.find? second.key = some "1.2.3.5:8303" := by
    decide +kernel
  have hnone : start.lastLoaded? chat r
      [.create channel "1.2.3.5:8303", .create channel "1.2.3.4:8303"] = none := by decide +kernel
  have hunshown (r' : MessageRef) : created.store.shown? r' = none := by
    have hannounced : created.store.announced.rows = [] := by decide +kernel
    rw [Store.shown?, Table.find?, hannounced]
    rfl
  have hplaceholder : '*' ∉ (Message.placeholder "1.2.3.4:8303").toList := by decide +kernel
  have hpolls : created.polls 0 = .ok entries := rfl
  clear_value client
  have hfresh : chat.Fresh := by
    intro log c text id hreply e he hposted
    have hany : (log.any fun e => e.posted? = some (c.toMessage id)) = true :=
      List.any_eq_true.2 ⟨e, he, decide_eq_true hposted⟩
    dsimp only [chat] at hreply
    split at hreply
    · cases hreply
    · next hfourth =>
      split at hreply
      · cases hreply
        exact hfourth hany
      · next hthird =>
        cases hreply
        exact hthird hany
  have hstart : start.Faithful := by
    refine faithful_start fun n polled hpolled => ?_
    cases hpolled
    simp [entries]
  have hs : created.Faithful := after_faithful hfresh hstart _
  have hcreated : start.after chat
    [.create channel "1.2.3.5:8303", .create channel "1.2.3.4:8303"] = created := rfl
  clear_value created
  let narrow : ListEntry := ⟨["tw-0.6+udp://1.2.3.4:8303"], none, {}⟩
  let wide : ListEntry := ⟨["tw-0.6+udp://1.2.3.5:8303"], none, { clients := [client] }⟩
  have hnames : narrow.Names (Address.normalize "1.2.3.4:8303") :=
    ⟨"tw-0.6+udp", _, List.mem_singleton_self _, by decide +kernel⟩
  have hnames' : wide.Names (Address.normalize "1.2.3.5:8303") :=
    ⟨"tw-0.6+udp", _, List.mem_singleton_self _, by decide +kernel⟩
  obtain ⟨server, hserver, hnarrow⟩ :=
    Cycle.exists_current_of_first htracked [] [wide] (by simp) hnames
  have hother : ¬ narrow.Names (Address.normalize "1.2.3.5:8303") :=
    mt MasterList.protocolsAt_ne_nil_iff.2 (not_not.2 (by decide +kernel))
  obtain ⟨server', hserver', hwide⟩ :=
    Cycle.exists_current_of_first htracked' [narrow] [] (by simpa using hother) hnames'
  have hunformatted : ¬ server'.Narrow := fun h =>
    hclient (hwide.1 h client (List.mem_singleton_self _))
  obtain ⟨final, exchanges, text, mentions, accepted, hrun, hlog, hunloaded, hkept, honline,
      hlast⟩ :=
    perform_once_second chat hs hpolls hunshown (by decide) hlisted hserver (hnarrow.2 (by decide))
      hserver' hunformatted
  have hfinal : start.after chat [.cycle, .create channel "1.2.3.5:8303",
      .create channel "1.2.3.4:8303"] = final := by
    rw [after_cons, hcreated, Occasion.procedure, perform_ignore, hrun]
  have htaken (e : Exchange) (he : e ∈ exchanges) : Taken e := by
    have hall : ∀ e ∈ (start.after chat [.cycle, .create channel "1.2.3.5:8303",
        .create channel "1.2.3.4:8303"]).log, Taken e := after_taken (fun _ _ _ => rfl) rfl _
    rw [hfinal, hlog] at hall
    exact hall e (List.mem_append_left _ he)
  obtain rfl := accepted_of_taken htaken hlast
  have hbroken : lastContent? final.log r = some (text, true) := by
    rw [hlog, lastContent?_append, hlast]
    rfl
  have htext : text ≠ Message.placeholder "1.2.3.4:8303" := fun heq =>
    hplaceholder (heq ▸ Message.asterisk_mem_online honline)
  have hpresent : r ∉ exchanges.filterMap Exchange.missing? := by
    rw [missing_of_taken htaken]
    exact List.not_mem_nil
  refine ⟨hfresh, ?_, text, not_mirrors_reactionAdded 1 _ (after_faithful hfresh hstart _).sound
    (hfinal ▸ hbroken) (hfinal ▸ hunloaded r) (lastLoaded?_cons_of_none ?_ hnone) htext⟩
  · rw [trackings_reactionAdded, hfinal, hkept r hpresent, htracked]
  · rw [hfinal, hunloaded]

end Session

end StatusBoard
