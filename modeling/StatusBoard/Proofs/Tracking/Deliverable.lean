import StatusBoard.Proofs.Tracking.Creation
import StatusBoard.Proofs.Tracking.Mirror

/-!
# The platform can take every content

What is sent to the platform quotes addresses and names of any origin.  The addresses have been
checked when the trackings were created, and the stored servers are at these addresses
(`Store.Addressed`).  So everything that the board posts or edits is within the limits of the
platform, and no change is left out for its content (`Session.contents_deliverable`).
-/

namespace StatusBoard

open Store

namespace ChatCall

/-- The content that a call gives to a message. -/
def content? : ChatCall → Option String
  | post _ content | edit _ content => some content
  | _ => none

/-- The platform can take the content, if there is one. -/
def IsDeliverable (c : ChatCall) : Prop :=
  ∀ content, c.content? = some content → Message.check content = .ok ()

theorem isDeliverable_of_content? {c : ChatCall} (h : c.content? = none) : c.IsDeliverable := by
  intro content hcontent
  rw [h] at hcontent
  cases hcontent

theorem isDeliverable_post (channel : ChannelRef) {address : String}
    (h : Address.IsSocket address) :
    (post channel (Message.placeholder address)).IsDeliverable := by
  rintro _ ⟨⟩
  exact Message.check_placeholder h

end ChatCall

/-! ### Addresses in the store -/

theorem Address.IsSocket.normalize_eq {address : String} (h : Address.IsSocket address) :
    Address.normalize address = address := by
  obtain ⟨a, rfl⟩ := h
  exact Address.normalize_text a

/-- Trackings have canonical addresses, and the server stored for a message is at the address of its
tracking. -/
structure Store.Addressed (s : Store) : Prop where
  sound : s.Sound
  address : ∀ (r : MessageRef) address, s.trackings.find? r.key = some address →
    Address.IsSocket address
  shown : ∀ r server, s.shown? r = some server → s.trackings.find? r.key = some server.address

namespace Store.Addressed

variable {s s' : Store} {r : MessageRef} {server : Server}

theorem empty : Addressed {} where
  sound := sound_empty
  address _ _ h := nomatch h
  shown _ _ h := nomatch h

theorem isSocket (h : s.Addressed) (hr : s.shown? r = some server) :
    Address.IsSocket server.address := h.address r _ (h.shown r server hr)

theorem sheds (h : s.Addressed) (hsheds : s.Sheds s') : s'.Addressed where
  sound := hsheds.fades.sound
  address r address hr := h.address r address (hsheds.address r address hr)
  shown r server hr := by
    rw [hsheds.fades.shown?] at hr
    split at hr
    · next htracks =>
      obtain ⟨address, haddress⟩ := tracks_iff.1 htracks
      have hbefore := hsheds.address r address haddress
      rw [h.shown r server hr] at hbefore
      cases hbefore
      exact haddress
    · cases hr

/-- A new tracking shows no server yet. -/
theorem adds (h : s.Addressed) {t : Tracking} (hadds : s.Adds t s') (hs' : s'.Sound)
    (ht : Address.IsSocket t.address) (hnew : s.tracks t.ref = false) : s'.Addressed where
  sound := hs'
  address r address hr := by
    rw [hadds.trackings] at hr
    split at hr
    · cases hr
      exact ht
    · exact h.address r address hr
  shown r server hr := by
    rw [shown?_of_same hadds.announced hadds.clients] at hr
    have hother : r ≠ t.ref := by
      rintro rfl
      rw [h.sound.shown?_eq_none (Bool.not_eq_true _ ▸ hnew)] at hr
      cases hr
    rw [hadds.trackings, if_neg (hother ∘ MessageRef.key_inj.1)]
    exact h.shown r server hr

end Store.Addressed

/-! ### Trackings and reactions -/

namespace Tracking

open Procedure Session ChatCall

theorem calls_offerThresholds (r : MessageRef) (thresholds : List Threshold) :
    (offerThresholds r thresholds).Calls IsDeliverable := by
  induction thresholds with
  | nil => exact .done ()
  | cons t rest ih =>
    rw [offerThresholds_cons]
    refine .call (isDeliverable_of_content? rfl) fun result => ?_
    cases result with
    | ok _ => exact ih
    | error e => exact .done ()

theorem calls_create (channel : ChannelRef) (raw : String) :
    (create channel raw).run.Calls IsDeliverable := by
  rw [create_run]
  cases hchecked : checkedAddress raw with
  | error e => exact .done _
  | ok address =>
    refine .call (isDeliverable_post channel (isSocket_of_checkedAddress hchecked)) fun result => ?_
    cases result with
    | error e => exact .done _
    | ok id =>
      refine .transact fun tracked => ?_
      cases tracked with
      | ok _ => exact (calls_offerThresholds _ _).bind fun _ => .done _
      | error e => exact .call (isDeliverable_of_content? rfl) fun _ => .done _

theorem calls_ensure (channel : ChannelRef) (raw : String) :
    (ensure channel raw).run.Calls IsDeliverable := by
  rw [ensure_run]
  cases checkedAddress raw with
  | error e => exact .done _
  | ok address =>
    refine .transact fun listed => ?_
    cases listed with
    | error e => exact .done _
    | ok existing =>
      dsimp only
      split
      · exact .done _
      · exact calls_create channel address

theorem calls_discard (r : MessageRef) : (discard r).run.Calls IsDeliverable := by
  rw [discard_run]
  refine .transact fun result => ?_
  cases result with
  | error e => exact .done _
  | ok _ => exact .call (isDeliverable_of_content? rfl) fun _ => .done _

variable {s : Session}

theorem create_addressed (chat : Platform) (h : s.store.Addressed) (channel : ChannelRef)
    (raw : String) : (s.perform chat (create channel raw).run).2.store.Addressed := by
  have hsound : (s.perform chat (create channel raw).run).2.store.Sound :=
    perform_keeps chat ((only_create channel raw).imp fun _ _ ht => ht.access.keeps) h.sound
  cases hresult : (s.perform chat (create channel raw).run).1 with
  | error e =>
    rw [store_of_create_error hresult]
    exact h
  | ok r =>
    obtain ⟨address, id, hposted, rfl, hnew⟩ := posted_of_create hresult
    obtain ⟨store, offers, hadds, -, hrun⟩ := create_of_untracked hposted hnew
    rw [hrun] at hsound ⊢
    exact h.adds hadds hsound (Address.isSocket_of_validate hposted.valid) hnew

theorem ensure_addressed (chat : Platform) (h : s.store.Addressed) (channel : ChannelRef)
    (raw : String) : (s.perform chat (ensure channel raw).run).2.store.Addressed := by
  rw [ensure_run]
  cases checkedAddress raw with
  | error e => exact h
  | ok address =>
    dsimp only
    rw [perform_transact_read chat s (listChannelTrackings_run s.store channel)]
    dsimp only
    split
    · exact h
    · exact create_addressed chat h channel address

end Tracking

namespace Reaction

open ChatCall

variable (board : UInt64) (e : Reaction)

theorem calls_added : (added board e).Calls IsDeliverable := by
  cases h : e.threshold? board with
  | none =>
    unfold added subscribe
    rw [h]
    exact .done _
  | some t =>
    rw [added_run h]
    refine .transact fun result => ?_
    split
    · exact .call (isDeliverable_of_content? rfl) fun _ => .done _
    · exact .done _

theorem calls_removed : (removed board e).Calls IsDeliverable := by
  cases h : e.threshold? board with
  | none =>
    unfold removed unsubscribe
    rw [h]
    exact .done _
  | some t =>
    rw [removed_run h]
    exact .transact fun _ => .done _

end Reaction

/-! ### Cycles -/

theorem Transaction.run_bind_of_ok {α β : Type} {t : Transaction α} {f : α → Transaction β}
    {s s' : Store} {a : α} (h : t.run s = .ok (a, s')) : (t >>= f).run s = (f a).run s' := by
  rw [StateT.run_bind, h]
  rfl

namespace Cycle

open Session

/-- What a cycle that gets this list announces if nobody else writes to the store. -/
def announcements (entries : List ListEntry) : Transaction (List Change) := do
  let trackings ← listTrackings
  let stored ← load
  let changes := stored.changes (MasterList.snapshot entries trackings)
  let found ← listSubscriptions (Changes.refs changes)
  return changes.map (Change.withMentions found)

theorem announcements_run {s : Store} {entries : List ListEntry} {stored current : Snapshot}
    {found : List Subscription} (hload : load.run s = .ok (stored, s))
    (hcurrent : current = MasterList.snapshot entries (s.trackings.rows.map trackingOfRow))
    (hfound : (listSubscriptions (stored.changedRefs current)).run s = .ok (found, s)) :
    (announcements entries).run s =
      .ok ((stored.changes current).map (Change.withMentions found), s) := by
  subst hcurrent
  rw [announcements, Transaction.run_bind_of_ok (listTrackings_run s),
    Transaction.run_bind_of_ok hload]
  dsimp only
  rw [refs_changes, Transaction.run_bind_of_ok hfound]
  rfl

/-- The current snapshot shows, for each tracked message, a server at its address. -/
theorem address_of_get?_current {s : Store} (h : s.Addressed) {entries : List ListEntry}
    {r : MessageRef} {server : Server}
    (hr : (MasterList.snapshot entries (s.trackings.rows.map trackingOfRow)).get? r =
      some server) : s.trackings.find? r.key = some server.address := by
  rw [MasterList.get?_snapshot, Option.bind_eq_some_iff] at hr
  obtain ⟨address, haddress, hserver⟩ := hr
  rw [haddress, MasterList.address_of_serverAt? hserver,
    (h.address r address haddress).normalize_eq]

/-- If a cycle leaves a snapshot of servers at the addresses of their trackings in the store, they
stay there. -/
theorem Edits.addressed {s final : Session} {shown : Snapshot} {targets : List MessageRef}
    {content : MessageRef → Option String} {exchanges : List Exchange}
    (hedits : Edits s shown targets content final exchanges) (h : s.store.Addressed)
    (hshown : ∀ r server, shown.get? r = some server →
      s.store.trackings.find? r.key = some server.address)
    (hsound : final.store.Sound) : final.store.Addressed where
  sound := hsound
  address r address hr := by
    rw [hedits.trackings] at hr
    split at hr
    · cases hr
    · exact h.address r address hr
  shown r server hr := by
    rw [hedits.shown? hsound] at hr
    rw [hedits.trackings]
    split at hr
    · cases hr
    · next hkept =>
      rw [if_neg hkept]
      exact hshown r server hr

/-- A cycle that gets a list makes the announcements, one after the other and up to the first one
that cannot be formatted, and leaves the stored servers at the addresses of their trackings. -/
theorem once_announces (chat : Platform) {s : Session} (h : s.store.Addressed)
    {entries : List ListEntry} (hpoll : s.polls 0 = .ok entries)
    (hfit : ∀ e ∈ entries, e.info.clients.length < 2 ^ 64) : ∃ changes exchanges,
      (announcements entries).run s.store = .ok (changes, s.store) ∧
      (∀ c ∈ changes, ∀ content, c.content = some content → Message.check content = .ok ()) ∧
      ((∀ e ∈ entries, e.Narrow) → ∀ c ∈ changes, c.isFormatted) ∧
      (s.perform chat once.run).2.log = exchanges ++ s.log ∧
      exchanges.reverse.map Exchange.call =
        (changes.takeWhile Change.isFormatted).filterMap (fun c => c.content.map (.edit c.ref)) ∧
      (s.perform chat once.run).2.store.Addressed := by
  obtain ⟨stored, hload, hstored⟩ := h.sound.load_run
  let current := MasterList.snapshot entries (s.store.trackings.rows.map trackingOfRow)
  obtain ⟨found, hfound, hmem⟩ := h.sound.listSubscriptions_run (stored.changedRefs current)
  obtain ⟨result, final, exchanges, hrun, houtcome⟩ := perform_once_outcome chat h.sound hpoll
    (fun e he => Nat.le_of_lt (hfit e he)) hload hstored rfl hfound
  have htext (r : MessageRef) (hr : r ∈ stored.changedRefs current) (text : String)
      (hcontent : contentOf found stored current r = some text) :
      Message.check text = .ok () :=
    check_contentOf rfl hmem hfit
      (fun r server hserver => h.isSocket ((hstored r).symm.trans hserver)) hr hcontent
  have hnarrow (hentries : ∀ e ∈ entries, e.Narrow) (r : MessageRef)
      (hr : r ∈ stored.changedRefs current) : (contentOf found stored current r).isSome := by
    rw [Option.isSome_iff_ne_none, Ne, (announces_contentOf hmem hr).eq_none_iff]
    rintro ⟨server, hserver, hwide⟩
    exact hwide (narrow_of_get?_current hentries hserver)
  have hsound := sound_once chat h.sound
  rw [hrun] at hsound ⊢
  refine ⟨_, exchanges, announcements_run hload rfl hfound, ?_, fun hentries => ?_, ?_⟩
  · rw [changes_withMentions]
    exact List.forall_mem_map.2 htext
  · rw [changes_withMentions]
    exact List.forall_mem_map.2 (hnarrow hentries)
  · rw [changes_withMentions, List.takeWhile_map, List.filterMap_map]
    cases houtcome with
    | finished heffect =>
      have hall : (stored.changedRefs current).takeWhile
          (Change.isFormatted ∘ fun r => (stored.change current r).withMentions found) =
            stored.changedRefs current := List.takeWhile_eq_self_iff.2 heffect.formatted
      rw [hall]
      exact ⟨heffect.log, heffect.calls_of_check htext,
        heffect.addressed h (fun r server => address_of_get?_current h) hsound⟩
    | broken _ hedits =>
      have hreached (r : MessageRef) (hr : r ∈ (stored.changedRefs current).takeWhile
          fun r => (contentOf found stored current r).isSome) := htext r
            ((List.takeWhile_prefix _).mem hr)
      exact ⟨hedits.log, hedits.calls_of_check hreached, hedits.addressed h
        (fun r server hr => h.shown r server ((hstored r).symm.trans hr)) hsound⟩

end Cycle

/-! ### Occasions -/

namespace Session

open ChatCall

/-- What holds between occasions. -/
structure WithinLimits (s : Session) : Prop where
  addressed : s.store.Addressed
  contents : ∀ e ∈ s.log, e.call.IsDeliverable
  fit : ∀ n entries, s.polls n = .ok entries → ∀ e ∈ entries, e.info.clients.length < 2 ^ 64

namespace WithinLimits

variable {s : Session} {chat : Platform}

theorem start {polls : Nat → PollAnswer} (hfit : ∀ n entries, polls n = .ok entries →
    ∀ e ∈ entries, e.info.clients.length < 2 ^ 64) : WithinLimits { polls := polls } where
  addressed := .empty
  contents _ h := nomatch h
  fit := hfit

theorem perform_fit (h : s.WithinLimits) (chat : Platform) {α : Type} (p : Procedure α) :
    ∀ n entries, (s.perform chat p).2.polls n = .ok entries →
      ∀ e ∈ entries, e.info.clients.length < 2 ^ 64 :=
  perform_polls (P := fun answer => ∀ entries, answer = .ok entries →
    ∀ e ∈ entries, e.info.clients.length < 2 ^ 64) chat p h.fit

theorem perform (h : s.WithinLimits) {α : Type} {p : Procedure α} (hp : p.Calls IsDeliverable)
    (haddressed : (s.perform chat p).2.store.Addressed) : (s.perform chat p).2.WithinLimits :=
  ⟨haddressed, perform_log chat hp h.contents, h.perform_fit chat p⟩

theorem perform_quiet (h : s.WithinLimits) {α : Type} {p : Procedure α}
    (hp : p.Calls IsDeliverable) (hquiet : Quiet p) : (s.perform chat p).2.WithinLimits :=
  h.perform hp (h.addressed.sheds (hquiet chat s h.addressed.sound).sheds)

theorem perform_once (h : s.WithinLimits) (chat : Platform) :
    (s.perform chat Cycle.once.run).2.WithinLimits := by
  cases hpoll : s.polls 0 with
  | error e =>
    rw [Cycle.perform_once_error chat hpoll]
    exact ⟨h.addressed, h.contents, fun n => h.fit (n + 1)⟩
  | ok entries =>
    obtain ⟨changes, exchanges, -, hcheck, -, hlog, hcalls, haddressed⟩ :=
      Cycle.once_announces chat h.addressed hpoll (h.fit 0 entries hpoll)
    refine ⟨haddressed, ?_, h.perform_fit chat _⟩
    rw [hlog]
    refine List.forall_mem_append.2 ⟨fun e he => ?_, h.contents⟩
    have hcall : e.call ∈ exchanges.reverse.map Exchange.call :=
      List.mem_map_of_mem (List.mem_reverse.2 he)
    rw [hcalls] at hcall
    obtain ⟨c, hc, hedit⟩ := List.mem_filterMap.1 hcall
    obtain ⟨content, hcontent, hedit⟩ := Option.map_eq_some_iff.1 hedit
    rw [← hedit]
    rintro _ ⟨⟩
    exact hcheck c ((List.takeWhile_prefix _).mem hc) content hcontent

theorem occasion (h : s.WithinLimits) (chat : Platform) (o : Occasion) :
    (s.perform chat o.procedure).2.WithinLimits := by
  cases o <;> rw [Occasion.procedure, perform_ignore]
  case create channel raw =>
    exact h.perform (Tracking.calls_create channel raw)
      (Tracking.create_addressed chat h.addressed channel raw)
  case ensure channel raw =>
    exact h.perform (Tracking.calls_ensure channel raw)
      (Tracking.ensure_addressed chat h.addressed channel raw)
  case discard r => exact h.perform_quiet (Tracking.calls_discard r) (Tracking.quiet_discard r)
  case messageDeleted r =>
    exact h.perform_quiet (.transact fun _ => .done _) (Tracking.quiet_messageDeleted r)
  case channelDeleted c =>
    exact h.perform_quiet (.transact fun _ => .done _) (Tracking.quiet_channelDeleted c)
  case reactionAdded board e =>
    exact h.perform_quiet (Reaction.calls_added board e) (Reaction.quiet_added board e)
  case reactionRemoved board e =>
    exact h.perform_quiet (Reaction.calls_removed board e) (Reaction.quiet_removed board e)
  case cycle => exact h.perform_once chat

theorem after (h : s.WithinLimits) (chat : Platform) (occasions : List Occasion) :
    (s.after chat occasions).WithinLimits := by
  induction occasions with
  | nil => exact h
  | cons o earlier ih => exact ih.occasion chat o

end WithinLimits

/-- Starting with an empty store, after any occasions and whatever the platform and the master list
answer, the platform can take the content of every call that was made.  A cycle that gets a list
then can read what it has to announce, the platform can take the content of every announcement, and
the cycle makes one call for each of them, up to the first one that cannot be formatted, if names or
clans are longer than a column can be wide.  Every stored server is at the address of its tracking,
which is in its normal form.  No entry has more clients than 64 bits count. -/
theorem contents_deliverable (chat : Platform) {polls : Nat → PollAnswer}
    (hfit : ∀ n entries, polls n = .ok entries →
      ∀ e ∈ entries, e.info.clients.length < 2 ^ 64) (occasions : List Occasion) :
    let now := Session.after chat { polls := polls } occasions
    (∀ e ∈ now.log, ∀ content, e.call.content? = some content →
      Message.check content = .ok ()) ∧
    (∀ entries, now.polls 0 = .ok entries → ∃ changes exchanges,
      (Cycle.announcements entries).run now.store = .ok (changes, now.store) ∧
      (∀ c ∈ changes, ∀ content, c.content = some content → Message.check content = .ok ()) ∧
      ((∀ e ∈ entries, e.Narrow) → ∀ c ∈ changes, c.isFormatted) ∧
      (now.perform chat Cycle.once.run).2.log = exchanges ++ now.log ∧
      exchanges.reverse.map Exchange.call =
        (changes.takeWhile Change.isFormatted).filterMap fun c => c.content.map (.edit c.ref)) ∧
    ∃ stored, load.run now.store = .ok (stored, now.store) ∧
      ∀ r server, stored.get? r = some server →
        now.store.trackings.find? r.key = some server.address ∧
        Address.normalize server.address = server.address := by
  intro now
  have hnow : now.WithinLimits := (WithinLimits.start hfit).after chat occasions
  refine ⟨hnow.contents, fun entries hpoll => ?_, ?_⟩
  · obtain ⟨changes, exchanges, hannounce, hcheck, hnarrow, hlog, hcalls, -⟩ :=
      Cycle.once_announces chat hnow.addressed hpoll (hnow.fit 0 entries hpoll)
    exact ⟨changes, exchanges, hannounce, hcheck, hnarrow, hlog, hcalls⟩
  · obtain ⟨stored, hload, hstored⟩ := hnow.addressed.sound.load_run
    refine ⟨stored, hload, fun r server hr => ?_⟩
    have hshown := (hstored r).symm.trans hr
    exact ⟨hnow.addressed.shown r server hshown, (hnow.addressed.isSocket hshown).normalize_eq⟩

/-- A tracked server shows up in one cycle and is gone in the next one.  The platform can take the
placeholder, the message about the server and the message that it is offline. -/
theorem contents_deliverable_offline :
    let channel : ChannelRef := ⟨1, 2⟩
    let r := channel.toMessage 3
    let entries : List ListEntry := [⟨["tw-0.6+udp://1.2.3.4:8303"], none, {}⟩]
    let chat : Platform := fun _ c => match c with
      | .post _ _ => .answer (.ok 3)
      | .edit _ _ => .answer (.ok ())
      | _ => .silence
    let polls (n : Nat) : PollAnswer := .ok (if n = 0 then entries else [])
    let now := Session.after chat { polls := polls } [.cycle, .create channel "1.2.3.4:8303"]
    (now.log.filterMap fun e => e.call.content?).length = 2 ∧
      (∀ e ∈ now.log, ∀ content, e.call.content? = some content →
        Message.check content = .ok ()) ∧
      (∃ c, (Cycle.announcements []).run now.store = .ok ([c], now.store) ∧
        c.isOffline = true ∧ ∃ content, c.content = some content ∧
          Message.check content = .ok ()) ∧
      ∃ server, now.store.loaded? r = some server ∧
        now.store.trackings.find? r.key = some server.address ∧
        Address.normalize server.address = server.address := by
  intro channel r entries chat polls now
  have hfit (n : Nat) (polled : List ListEntry) (hpolled : polls n = .ok polled) :
      ∀ e ∈ polled, e.info.clients.length < 2 ^ 64 := by
    cases hpolled
    intro e he
    split at he
    · rw [List.mem_singleton.1 he]
      decide
    · cases he
  obtain ⟨hcontents, hcycle, stored, hload, hstored⟩ :=
    contents_deliverable chat hfit [.cycle, .create channel "1.2.3.4:8303"]
  obtain ⟨changes, -, hannounce, hcheck, hnarrow, -, -⟩ := hcycle [] (by decide +kernel)
  have hoffline : ((Cycle.announcements []).run now.store).toOption.map
      (fun x => x.1.map Change.isOffline) = some [true] := by decide +kernel
  have hloaded : (now.store.loaded? r).isSome = true := by decide +kernel
  obtain ⟨server, hserver⟩ := Option.isSome_iff_exists.1 hloaded
  refine ⟨by decide +kernel, hcontents, ?_, server, hserver, hstored r server ?_⟩
  · rw [hannounce] at hoffline
    obtain ⟨c, rfl, hc⟩ := List.map_eq_singleton_iff.1 (Option.some.inj hoffline)
    obtain ⟨content, hcontent⟩ :=
      Option.isSome_iff_exists.1 (hnarrow (by simp) c List.mem_cons_self)
    exact ⟨c, hannounce, hc, content, hcontent, hcheck c List.mem_cons_self content hcontent⟩
  · rw [Store.loaded?, hload] at hserver
    exact hserver

end Session

end StatusBoard
