import StatusBoard.Proofs.Cycle.Repeated
import StatusBoard.Proofs.Message.Length
import StatusBoard.Proofs.Tracking.Quiet

/-!
# What an occasion does to a status message

A message that is tracked after an occasion was left alone by it, was created by it, or was edited
because the occasion is a cycle and the server behind the message changed (`Session.Fate`).  If the
cycle broke after that, the store still has what was shown before.
-/

namespace StatusBoard

open Store

/-- Every message that is posted gets a new id. -/
def Platform.Fresh (chat : Platform) : Prop :=
  ∀ log c text id, (chat log (.post c text)).inTime = .ok id →
    ∀ e ∈ log, e.posted? ≠ some (c.toMessage id)

namespace Session

/-- The occasion is a cycle that breaks since a content cannot be formatted. -/
def Breaks (chat : Platform) (s : Session) (o : Occasion) : Prop :=
  o = .cycle ∧ (s.perform chat Cycle.once.run).1 = .error .panic

/-- What an occasion has to do with the text of a message that is tracked after it. -/
inductive Fate (chat : Platform) (s s' : Session) (o : Occasion) (during : List Exchange)
    (r : MessageRef) (address : String) : Prop
  | kept (htracked : s.store.trackings.find? r.key = some address)
    (hshown : s'.store.shown? r = s.store.shown? r) (hcontent : lastContent? during r = none)
  | created (hnew : ¬ s.store.tracks r) (hshown : s'.store.shown? r = none)
    (hposted : ∃ e ∈ during, e.posted? = some r) (haddress : Address.IsSocket address)
    (hcontent : lastContent? during r = some (Message.placeholder address, true))
  | edited (ho : o = .cycle) (htracked : s.store.trackings.find? r.key = some address)
    (haddress : ∀ server, s'.store.shown? r = some server →
      server.address = Address.normalize address)
    (stored current : Snapshot) (hstored : stored.get? r = s.store.shown? r)
    (hcurrent : current.get? r = s'.store.shown? r) (text : String) (accepted : Bool)
    (hannounces : Cycle.Announces s.store stored current r (some text))
    (hcontent : lastContent? during r = some (text, accepted))
  | broken (hbreaks : s.Breaks chat o) (htracked : s.store.trackings.find? r.key = some address)
    (hshown : s'.store.shown? r = s.store.shown? r) (text : String) (accepted : Bool)
    (hcontent : lastContent? during r = some (text, accepted))

/-- What an occasion has to do with the texts of all messages that are tracked after it. -/
def Fates (chat : Platform) (s s' : Session) (o : Occasion) : Prop :=
  ∃ during, s'.log = during ++ s.log ∧ ∀ r address,
    s'.store.trackings.find? r.key = some address → Fate chat s s' o during r address

/-- What holds between occasions on a platform with new ids. -/
structure Faithful (s : Session) : Prop where
  sound : s.store.Sound
  posted : ∀ r, s.store.tracks r → ∃ e ∈ s.log, e.posted? = some r
  address : ∀ (r : MessageRef) address, s.store.trackings.find? r.key = some address →
    Address.IsSocket address
  shown : ∀ r server, s.store.shown? r = some server → Address.IsSocket server.address
  fit : ∀ n entries, s.polls n = .ok entries → ∀ e ∈ entries, e.info.clients.length < 2 ^ 64

variable {chat : Platform} {s s' : Session} {o : Occasion} {r : MessageRef} {address : String}

theorem Undisturbed.fates (h : s.Undisturbed s') (o : Occasion) : Fates chat s s' o := by
  obtain ⟨during, hlog, hquiet⟩ := h.log
  refine ⟨during, hlog, fun r address hr => .kept (h.sheds.address r address hr) ?_ (hquiet r)⟩
  rw [h.sheds.fades.shown?, if_pos (tracks_iff.2 ⟨address, hr⟩)]

/-! ### Creation -/

/-- A message that is posted, tracked and then left alone is created. -/
theorem Undisturbed.fates_created {tracked : Session} {channel : ChannelRef} {id : UInt64}
    (h : tracked.Undisturbed s') (hs : s.store.Sound) (haddress : Address.IsSocket address)
    (hnew : ¬ s.store.tracks (channel.toMessage id))
    (hlog : tracked.log = ⟨.post channel (Message.placeholder address), .ok id⟩ :: s.log)
    (hrun : (track ⟨channel.toMessage id, address⟩).run s.store = .ok ((), tracked.store))
    (o : Occasion) : Fates chat s s' o := by
  obtain ⟨during, hduring, hquiet⟩ := h.log
  let post : Exchange := ⟨.post channel (Message.placeholder address), .ok id⟩
  have hpost (r : MessageRef) : lastContent? [post] r = if channel.toMessage id = r then
      some (Message.placeholder address, true) else none := lastContent?_singleton post r
  obtain ⟨-, -, hshown⟩ := attempt_track hs ⟨channel.toMessage id, address⟩ hnew
  rw [Transaction.attempt_of_ok hrun] at hshown
  refine ⟨during ++ [post], ?_, fun r address' hr => ?_⟩
  · rw [hduring, hlog, List.append_assoc]
    rfl
  · have hbefore := h.sheds.address r address' hr
    have hshown' : s'.store.shown? r = s.store.shown? r := by
      rw [h.sheds.fades.shown?, if_pos (tracks_iff.2 ⟨address', hr⟩), hshown,
        if_pos (tracks_iff.2 ⟨address', hbefore⟩)]
    have hcontent : lastContent? (during ++ [post]) r = lastContent? [post] r := by
      rw [lastContent?_append, hquiet]
      rfl
    rw [trackings_of_track hrun] at hbefore
    split at hbefore
    · next hposted =>
      cases hbefore
      subst hposted
      refine .created hnew ?_ ?_ haddress ?_
      · rw [hshown', hs.shown?_eq_none hnew]
      · exact ⟨post, List.mem_append_right _ List.mem_cons_self, rfl⟩
      · rw [hcontent, hpost, if_pos rfl]
    · next hother =>
      refine .kept hbefore hshown' ?_
      rw [hcontent, hpost, if_neg (Ne.symm hother)]

end Session

namespace Tracking

open Session

theorem create_run (channel : ChannelRef) (raw : String) : (create channel raw).run =
    match checkedAddress raw with
    | .error e => .done (.error e)
    | .ok address => .call (.post channel (Message.placeholder address)) fun
      | .error e => .done (.error (.chat e))
      | .ok id => .transact (track ⟨channel.toMessage id, address⟩) fun
        | .ok () => offerThresholds (channel.toMessage id) Threshold.all >>= fun _ =>
          .done (.ok (channel.toMessage id))
        | .error e => .call (.delete (channel.toMessage id)) fun _ =>
          .done (.error (.store e)) := by
  unfold create
  cases checkedAddress raw with
  | error e => rfl
  | ok address =>
    refine congrArg (Procedure.call _) (funext fun result => ?_)
    cases result with
    | error e => rfl
    | ok id =>
      refine congrArg (Procedure.transact _) (funext fun tracked => ?_)
      cases tracked with
      | error e => rfl
      | ok _ => exact ExceptT.run_bind_lift _ _

theorem ensure_run (channel : ChannelRef) (raw : String) : (ensure channel raw).run =
    match checkedAddress raw with
    | .error e => .done (.error e)
    | .ok address => .transact (listChannelTrackings channel) fun
      | .error e => .done (.error (.store e))
      | .ok existing =>
        match existing.find? (·.address = address) with
        | some t => .done (.ok t.ref)
        | none => (create channel address).run := by
  unfold ensure
  cases checkedAddress raw with
  | error e => rfl
  | ok address =>
    refine congrArg (Procedure.transact _) (funext fun listed => ?_)
    cases listed with
    | error e => rfl
    | ok existing =>
      change ExceptT.run (match existing.find? (·.address = address) with
        | some t => pure t.ref
        | none => create channel address) = _
      dsimp only
      split <;> rfl

theorem isSocket_of_checkedAddress {raw address : String} (h : checkedAddress raw = .ok address) :
    Address.IsSocket address := by
  unfold checkedAddress at h
  cases hvalid : Address.validate raw with
  | error e =>
    rw [hvalid] at h
    cases h
  | ok address' =>
    rw [hvalid] at h
    cases h
    exact Address.isSocket_of_validate hvalid

theorem create_fates {chat : Platform} (hfresh : chat.Fresh) {s : Session} (h : s.Faithful)
    (channel : ChannelRef) (raw : String) (o : Occasion) :
    Fates chat s (s.perform chat (create channel raw).run).2 o := by
  rw [create_run]
  cases hchecked : checkedAddress raw with
  | error e => exact (Undisturbed.refl h.sound).fates o
  | ok address =>
    dsimp only
    rw [perform_call]
    cases hreply : (chat s.log (.post channel (Message.placeholder address))).inTime with
    | error e =>
      have hundisturbed : s.Undisturbed { s with
          log := ⟨.post channel (Message.placeholder address), .error e⟩ :: s.log } :=
        ⟨.refl h.sound, [_], rfl, fun _ => rfl⟩
      exact hundisturbed.fates o
    | ok id =>
      -- Tracked messages were posted before, so the new message is not one of them.
      have hnew : ¬ s.store.tracks (channel.toMessage id) := by
        intro htracks
        obtain ⟨e, he, hposted⟩ := h.posted _ htracks
        exact hfresh _ _ _ _ hreply e he hposted
      obtain ⟨store, hrun⟩ : ∃ store,
          (track ⟨channel.toMessage id, address⟩).run s.store = .ok ((), store) :=
        ⟨_, (track_run s.store _).trans (if_neg hnew)⟩
      let posted : Session := { s with
        log := ⟨.post channel (Message.placeholder address), .ok id⟩ :: s.log }
      have hoffered := ((quiet_offerThresholds (channel.toMessage id) Threshold.all).bind
        fun _ => quiet_done (.ok (channel.toMessage id) : Except TrackingError MessageRef)) chat
        { posted with store := store } (track_keeps _ s.store _ _ h.sound hrun)
      have hstep (next : Except StoreError Unit → Procedure (Except TrackingError MessageRef)) :=
        posted.perform_transact_ok chat hrun next
      dsimp only
      rw [hstep]
      exact hoffered.fates_created h.sound (isSocket_of_checkedAddress hchecked) hnew rfl hrun o

theorem ensure_fates {chat : Platform} (hfresh : chat.Fresh) {s : Session} (h : s.Faithful)
    (channel : ChannelRef) (raw : String) (o : Occasion) :
    Fates chat s (s.perform chat (ensure channel raw).run).2 o := by
  rw [ensure_run]
  cases checkedAddress raw with
  | error e => exact (Undisturbed.refl h.sound).fates o
  | ok address =>
    have hlisted : (listChannelTrackings channel).run s.store = .ok (_, s.store) := rfl
    dsimp only
    rw [perform_transact_ok chat s hlisted]
    dsimp only
    split
    · exact (Undisturbed.refl h.sound).fates o
    · exact create_fates hfresh h channel address o

end Tracking

/-! ### Cycles -/

namespace Cycle

open Session

/-- The platform takes the text that a change gives to a message. -/
theorem check_announced {s : Store} {stored current : Snapshot} {r : MessageRef} {text : String}
    (h : Announces s stored current r (some text))
    (hclients : ∀ server, current.get? r = some server → server.clientCount < 2 ^ 64)
    (haddress : ∀ server, stored.get? r = some server → Address.IsSocket server.address) :
    Message.check text = .ok () := by
  unfold Announces at h
  cases hcurrent : current.get? r with
  | some server =>
    rw [hcurrent] at h
    obtain ⟨mentions, -, -, honline⟩ := h
    exact Message.check_online (hclients server hcurrent) honline.symm
  | none =>
    cases hstored : stored.get? r with
    | some server =>
      rw [hcurrent, hstored] at h
      cases h
      exact Message.check_offline (haddress server hstored)
    | none =>
      rw [hcurrent, hstored] at h
      exact h.elim

/-- The platform takes the texts of a cycle if the stored servers are at canonical addresses and the
entries have no more clients than 64 bits count. -/
theorem check_contentOf {s : Store} {entries : List ListEntry} {stored current : Snapshot}
    {found : List Subscription}
    (hcurrent : current = MasterList.snapshot entries (s.trackings.rows.map trackingOfRow))
    (hfound : ∀ r user t, ⟨r, user, t⟩ ∈ found ↔
      r ∈ stored.changedRefs current ∧ s.threshold? r user = some t)
    (hfit : ∀ e ∈ entries, e.info.clients.length < 2 ^ 64)
    (haddress : ∀ r server, stored.get? r = some server → Address.IsSocket server.address)
    {r : MessageRef} (hr : r ∈ stored.changedRefs current) {text : String}
    (htext : contentOf found stored current r = some text) : Message.check text = .ok () := by
  subst hcurrent
  have hannounces := announces_contentOf hfound hr
  rw [htext] at hannounces
  exact check_announced hannounces
    (fun server => length_clients_of_get?_current (P := (· < 2 ^ 64)) hfit) (haddress r)

section Edits

variable {s final : Session} {shown : Snapshot} {targets : List MessageRef}
  {content : MessageRef → Option String} {exchanges : List Exchange}

/-- If the platform takes all texts, a cycle makes one call for each of them. -/
theorem Edits.calls_of_check (h : Edits s shown targets content final exchanges)
    (htext : ∀ r ∈ targets, ∀ text, content r = some text → Message.check text = .ok ()) :
    exchanges.reverse.map Exchange.call =
      targets.filterMap fun r => (content r).map (ChatCall.edit r) := by
  rw [h.calls]
  refine List.filterMap_congr fun r hr => ?_
  cases hcontent : content r with
  | none => rfl
  | some text =>
    rw [Option.bind_some, Option.map_some, ChatCall.edit?, htext r hr text hcontent]
    rfl

/-- A cycle gives texts to the messages that it is to edit, if the platform takes all texts, and to
no other messages. -/
theorem Edits.lastContent? (h : Edits s shown targets content final exchanges)
    (htext : ∀ r ∈ targets, ∀ text, content r = some text → Message.check text = .ok ())
    (r : MessageRef) :
    (∀ text, r ∈ targets → content r = some text →
      ∃ accepted, lastContent? exchanges r = some (text, accepted)) ∧
      (r ∉ targets → lastContent? exchanges r = none) := by
  have hcall (call : ChatCall) : (∃ e ∈ exchanges, e.call = call) ↔
      ∃ r ∈ targets, ∃ text, content r = some text ∧ .edit r text = call := by
    rw [← List.mem_map, ← List.mem_reverse, ← List.map_reverse, h.calls_of_check htext,
      List.mem_filterMap]
    simp only [Option.map_eq_some_iff]
  have hedit (e : Exchange) (he : e ∈ exchanges) : ∃ r' ∈ targets, ∃ text, content r' = some text ∧
      e.content? r = if r' = r then some (text, e.accepted) else none := by
    obtain ⟨r', hr', text, hcontent, hcall⟩ := (hcall e.call).1 ⟨e, he, rfl⟩
    exact ⟨r', hr', text, hcontent, Exchange.content?_of_edit hcall.symm⟩
  constructor
  · intro text hr htext
    obtain ⟨e, he, hcall⟩ := (hcall (.edit r text)).2 ⟨r, hr, text, htext, rfl⟩
    cases hlast : StatusBoard.lastContent? exchanges r with
    | none =>
      have hnone := List.findSome?_eq_none_iff.1 hlast e he
      rw [Exchange.content?_of_edit hcall, if_pos rfl] at hnone
      cases hnone
    | some content =>
      obtain ⟨e', he', hcontent⟩ := List.exists_of_findSome?_eq_some hlast
      obtain ⟨r', -, text', htext', hcontent'⟩ := hedit e' he'
      rw [hcontent'] at hcontent
      split at hcontent
      · next heq =>
        cases hcontent
        subst heq
        rw [htext] at htext'
        cases htext'
        exact ⟨e'.accepted, rfl⟩
      · cases hcontent
  · intro hr
    refine List.findSome?_eq_none_iff.2 fun e he => ?_
    obtain ⟨r', hr', _, -, hcontent⟩ := hedit e he
    rw [hcontent, if_neg]
    rintro rfl
    exact hr hr'

/-- A message that is tracked after a cycle was tracked at the same address before, and shows what
is stored. -/
theorem Edits.kept (h : Edits s shown targets content final exchanges) (hsound : final.store.Sound)
    {r : MessageRef} {address : String}
    (hr : final.store.trackings.find? r.key = some address) :
    s.store.trackings.find? r.key = some address ∧ final.store.shown? r = shown.get? r := by
  have hkept : r ∉ exchanges.filterMap Exchange.missing? := by
    intro hmissing
    rw [h.trackings, if_pos hmissing] at hr
    cases hr
  rw [h.trackings, if_neg hkept] at hr
  exact ⟨hr, by rw [h.shown? hsound, if_neg hkept]⟩

end Edits

/-- A cycle that ended in one of its ways edited the tracked messages whose server changed, all of
them or those before the one where it broke, and left the others alone. -/
theorem Outcome.fates {chat : Platform} {s final : Session} {entries : List ListEntry}
    {stored current : Snapshot} {content : MessageRef → Option String}
    {result : Except CycleStop CycleReport} {exchanges : List Exchange}
    (h : Outcome s stored current (stored.changedRefs current) content result final exchanges)
    (hrun : s.perform chat once.run = (result, final))
    (hcurrent : current = MasterList.snapshot entries (s.store.trackings.rows.map trackingOfRow))
    (hstored : ∀ r, stored.get? r = s.store.shown? r)
    (hannounces : ∀ r ∈ stored.changedRefs current,
      Announces s.store stored current r (content r))
    (htext : ∀ r ∈ stored.changedRefs current, ∀ text, content r = some text →
      Message.check text = .ok ())
    (hsound : final.store.Sound) : Fates chat s final .cycle := by
  cases h with
  | finished h =>
    refine ⟨exchanges, h.log, fun r address hr => ?_⟩
    obtain ⟨hbefore, hshown⟩ := h.kept hsound hr
    obtain ⟨hedited, hother⟩ := h.lastContent? htext r
    by_cases hchanged : r ∈ stored.changedRefs current
    · obtain ⟨text, hcontent⟩ := Option.isSome_iff_exists.1 (h.formatted r hchanged)
      obtain ⟨accepted, hlast⟩ := hedited text hchanged hcontent
      refine .edited rfl hbefore (fun server hserver => ?_) stored current (hstored r) hshown.symm
        text accepted (hcontent ▸ hannounces r hchanged) hlast
      rw [hshown, hcurrent, MasterList.get?_snapshot, hbefore] at hserver
      exact MasterList.address_of_serverAt? hserver
    · refine .kept hbefore ?_ (hother hchanged)
      rw [hshown, ← hstored]
      exact (not_not.1 (mem_changedRefs.not.1 hchanged)).symm
  | broken _ h =>
    refine ⟨exchanges, h.log, fun r address hr => ?_⟩
    obtain ⟨hbefore, hshown⟩ := h.kept hsound hr
    obtain ⟨hedited, hother⟩ :=
      h.lastContent? (fun r hr => htext r ((List.takeWhile_prefix _).mem hr)) r
    have hstays := hshown.trans (hstored r)
    by_cases hreached : r ∈ (stored.changedRefs current).takeWhile fun r => (content r).isSome
    · have hsome := List.mem_takeWhile_imp hreached
      obtain ⟨text, hcontent⟩ := Option.isSome_iff_exists.1 hsome
      obtain ⟨accepted, hlast⟩ := hedited text hreached hcontent
      exact .broken ⟨rfl, congrArg Prod.fst hrun⟩ hbefore hstays text accepted hlast
    · exact .kept hbefore hstays (hother hreached)

theorem once_fates (chat : Platform) {s : Session} (h : s.Faithful) :
    Fates chat s (s.perform chat once.run).2 .cycle := by
  cases hpoll : s.polls 0 with
  | error e =>
    rw [perform_once_error chat hpoll]
    have hundisturbed : s.Undisturbed { s with polls := fun n => s.polls (n + 1) } :=
      ⟨.refl h.sound, [], rfl, fun _ => rfl⟩
    exact hundisturbed.fates _
  | ok entries =>
    obtain ⟨stored, hload, hstored⟩ := h.sound.load_run
    let current := MasterList.snapshot entries (s.store.trackings.rows.map trackingOfRow)
    obtain ⟨found, hfound, hmem⟩ := h.sound.listSubscriptions_run (stored.changedRefs current)
    obtain ⟨result, final, exchanges, hrun, houtcome⟩ := perform_once_outcome chat h.sound hpoll
      (fun e he => Nat.le_of_lt (h.fit 0 entries hpoll e he)) hload hstored rfl hfound
    have hsound := sound_once chat h.sound
    rw [hrun] at hsound ⊢
    exact houtcome.fates hrun rfl hstored (fun r hr => announces_contentOf hmem hr)
      (fun r hr text => check_contentOf rfl hmem (h.fit 0 entries hpoll)
        (fun r server hserver => h.shown r server ((hstored r).symm.trans hserver)) hr) hsound

end Cycle

/-! ### Occasions -/

namespace Session

variable {chat : Platform} {s s' : Session}

theorem occasion_fates (hfresh : chat.Fresh) (h : s.Faithful) (o : Occasion) :
    Fates chat s (s.perform chat o.procedure).2 o := by
  cases o <;> rw [Occasion.procedure, perform_ignore]
  case create channel raw => exact Tracking.create_fates hfresh h channel raw _
  case ensure channel raw => exact Tracking.ensure_fates hfresh h channel raw _
  case discard r => exact (Tracking.quiet_discard r chat s h.sound).fates _
  case messageDeleted r => exact (Tracking.quiet_messageDeleted r chat s h.sound).fates _
  case channelDeleted c => exact (Tracking.quiet_channelDeleted c chat s h.sound).fates _
  case reactionAdded board e => exact (Reaction.quiet_added board e chat s h.sound).fates _
  case reactionRemoved board e => exact (Reaction.quiet_removed board e chat s h.sound).fates _
  case cycle => exact Cycle.once_fates chat h

/-- A message that is tracked after an occasion was tracked before or was posted meanwhile. -/
theorem Faithful.next (h : s.Faithful) {o : Occasion} (hfates : Fates chat s s' o)
    (hsound : s'.store.Sound) (hfit : ∀ n entries, s'.polls n = .ok entries →
      ∀ e ∈ entries, e.info.clients.length < 2 ^ 64) : s'.Faithful := by
  obtain ⟨during, hlog, hfate⟩ := hfates
  refine ⟨hsound, fun r hr => ?_, fun r address hr => ?_, fun r server hserver => ?_, hfit⟩
  · obtain ⟨address, hr⟩ := tracks_iff.1 hr
    have hbefore (hr : s.store.trackings.find? r.key = some address) :
        ∃ e ∈ s'.log, e.posted? = some r := by
      obtain ⟨e, he, hposted⟩ := h.posted r (tracks_iff.2 ⟨address, hr⟩)
      exact ⟨e, hlog ▸ List.mem_append_right _ he, hposted⟩
    cases hfate r address hr with
    | kept htracked => exact hbefore htracked
    | edited _ htracked => exact hbefore htracked
    | broken _ htracked => exact hbefore htracked
    | created _ _ hposted =>
      obtain ⟨e, he, hposted⟩ := hposted
      exact ⟨e, hlog ▸ List.mem_append_left _ he, hposted⟩
  · cases hfate r address hr with
    | kept htracked => exact h.address r address htracked
    | edited _ htracked => exact h.address r address htracked
    | broken _ htracked => exact h.address r address htracked
    | created _ _ _ haddress => exact haddress
  · obtain ⟨address, hr⟩ := tracks_iff.1 (hsound.tracks_of_shown? hserver)
    cases hfate r address hr with
    | kept _ hshown => exact h.shown r server (hshown.symm.trans hserver)
    | broken _ _ hshown => exact h.shown r server (hshown.symm.trans hserver)
    | edited _ htracked haddress =>
      rw [haddress server hserver]
      exact Address.isSocket_normalize (h.address r address htracked)
    | created _ hshown =>
      rw [hshown] at hserver
      cases hserver

theorem occasion_faithful (hfresh : chat.Fresh) (h : s.Faithful) (o : Occasion) :
    (s.perform chat o.procedure).2.Faithful := by
  have haccess := Procedure.only_occasion o
  have hkeeps := haccess.imp fun _ _ => Access.keeps
  exact h.next (occasion_fates hfresh h o) (perform_keeps chat hkeeps h.sound)
    (perform_polls (P := fun answer => ∀ entries, answer = .ok entries →
      ∀ e ∈ entries, e.info.clients.length < 2 ^ 64) chat o.procedure h.fit)

end Session

end StatusBoard
