import StatusBoard.Proofs.Tracking.Unique

/-!
# Creating a tracking

The placeholder is posted before the tracking is stored, and there is no transaction for both.
Still, creating a tracking does all of it or leaves the store alone, and a placeholder that could
not be tracked is taken back (`Tracking.create_all_or_nothing`).
-/

namespace StatusBoard

open Store

/-- There is one threshold for each number from one to ten. -/
theorem Threshold.clients_all : all.map clients = List.range' 1 10 := by decide

/-- The calls of a list were made in order, up to and including the first one that failed.  The
exchanges come earliest first. -/
structure UpToFailure (calls : List ChatCall) (exchanges : List Exchange) : Prop where
  inOrder : exchanges.map Exchange.call <+: calls
  accepted : ∀ e ∈ exchanges.dropLast, e.accepted = true
  failed : exchanges.map Exchange.call ≠ calls → ∃ e ∈ exchanges.getLast?, e.accepted = false

namespace UpToFailure

variable {calls : List ChatCall} {exchanges : List Exchange}

theorem nil : UpToFailure [] [] where
  inOrder := List.prefix_rfl
  accepted _ h := nomatch h
  failed h := absurd rfl h

/-- After a call that failed, no further one is made. -/
theorem stop (e : Exchange) (h : e.accepted = false) (calls : List ChatCall) :
    UpToFailure (e.call :: calls) [e] where
  inOrder := List.prefix_append [e.call] calls
  accepted _ he := nomatch he
  failed _ := ⟨e, rfl, h⟩

theorem cons (e : Exchange) (he : e.accepted = true) (h : UpToFailure calls exchanges) :
    UpToFailure (e.call :: calls) (e :: exchanges) where
  inOrder := (List.prefix_cons_inj _).2 h.inOrder
  accepted := by
    cases exchanges with
    | nil => exact fun _ he => nomatch he
    | cons e' rest => exact List.forall_mem_cons.2 ⟨he, h.accepted⟩
  failed hne := by
    obtain ⟨last, hlast, hfailed⟩ := h.failed fun heq => hne (congrArg (e.call :: ·) heq)
    cases exchanges with
    | nil => cases hlast
    | cons e' rest => exact ⟨last, hlast, hfailed⟩

end UpToFailure

namespace Store

/-- A tracking is added, and its channel where that is missing.  Nothing else changes. -/
structure Adds (s : Store) (t : Tracking) (s' : Store) : Prop where
  channels : ∀ k, s'.channels.contains k = true ↔
    k = t.ref.inChannel.key ∨ s.channels.contains k = true
  trackings : ∀ k, s'.trackings.find? k =
    if k = t.ref.key then some t.address else s.trackings.find? k
  announced : s'.announced = s.announced
  clients : s'.clients = s.clients
  subscriptions : s'.subscriptions = s.subscriptions
  arrivals : s'.arrivals = s.arrivals

variable {s : Store}

/-- A message that is not tracked yet can be tracked. -/
theorem track_adds {t : Tracking} (h : s.tracks t.ref = false) :
    ∃ s', (track t).run s = .ok ((), s') ∧ s.Adds t s' := by
  refine ⟨_, (track_run s t).trans (if_neg (Bool.not_eq_true _ ▸ h)), ?_⟩
  refine ⟨fun k => ?_, fun k => Table.find?_insert _ _ _ _, rfl, rfl, rfl, rfl⟩
  rw [Table.contains_insert, Bool.or_eq_true, decide_eq_true_iff]

theorem track_of_tracks {t : Tracking} (h : s.tracks t.ref = true) :
    (track t).run s = .error (.duplicateKey .trackings) := (track_run s t).trans (if_pos h)

end Store

namespace Tracking

open Session

variable {chat : Platform} {s : Session} {channel : ChannelRef} {raw address : String}
  {id : UInt64}

/-- The platform takes the placeholder for a valid address and gives it an id. -/
structure Posted (chat : Platform) (s : Session) (channel : ChannelRef) (raw address : String)
    (id : UInt64) : Prop where
  valid : Address.validate raw = .ok address
  answer : (chat s.log (.post channel (Message.placeholder address))).inTime = .ok id

theorem offerThresholds_cons (r : MessageRef) (t : Threshold) (rest : List Threshold) :
    offerThresholds r (t :: rest) = .call (.addReaction r t.emoji) fun
      | .ok _ => offerThresholds r rest
      | .error _ => .done () := by
  refine congrArg (Procedure.call _) (funext fun result => ?_)
  cases result <;> rfl

theorem perform_offerThresholds (chat : Platform) (s : Session) (r : MessageRef)
    (thresholds : List Threshold) : ∃ offers,
      s.perform chat (offerThresholds r thresholds) =
        ((), { s with log := offers.reverse ++ s.log }) ∧
      UpToFailure (thresholds.map fun t => .addReaction r t.emoji) offers := by
  induction thresholds generalizing s with
  | nil => exact ⟨[], rfl, .nil⟩
  | cons t rest ih =>
    rw [offerThresholds_cons, perform_call]
    cases (chat s.log (.addReaction r t.emoji)).inTime with
    | ok _ =>
      let offer : Exchange := ⟨.addReaction r t.emoji, .ok ()⟩
      obtain ⟨offers, hrest, hoffers⟩ := ih { s with log := offer :: s.log }
      refine ⟨offer :: offers, ?_, .cons offer rfl hoffers⟩
      rw [List.reverse_cons, List.append_assoc]
      exact hrest
    | error e =>
      let offer : Exchange := ⟨.addReaction r t.emoji, .error e⟩
      exact ⟨[offer], rfl, .stop offer rfl _⟩

/-! ### The four ways it goes -/

theorem create_of_invalid {fault : Address.Fault} (h : Address.validate raw = .error fault) :
    s.perform chat (create channel raw).run = (.error (.invalidAddress raw), s) := by
  rw [create_run, checkedAddress, h]
  rfl

theorem create_of_refused {e : ChatError} (hvalid : Address.validate raw = .ok address)
    (h : (chat s.log (.post channel (Message.placeholder address))).inTime = .error e) :
    s.perform chat (create channel raw).run = (.error (.chat e), { s with
      log := ⟨.post channel (Message.placeholder address), .error e⟩ :: s.log }) := by
  rw [create_run_of_validate hvalid, perform_call, h]
  rfl

/-- A placeholder that cannot be tracked is deleted. -/
theorem create_of_error {e : StoreError} (h : Posted chat s channel raw address id)
    (hrun : (track ⟨channel.toMessage id, address⟩).run s.store = .error e) :
    let posted := ⟨.post channel (Message.placeholder address), .ok id⟩ :: s.log
    let taken := (chat posted (.delete (channel.toMessage id))).inTime
    s.perform chat (create channel raw).run = (.error (.store e), { s with
      log := ⟨.delete (channel.toMessage id), taken⟩ :: posted }) := by
  rw [create_run_of_validate h.valid, perform_call, h.answer]
  dsimp only
  rw [perform_transact, Transaction.attempt_of_error hrun]
  rfl

theorem create_of_untracked (h : Posted chat s channel raw address id)
    (hnew : s.store.tracks (channel.toMessage id) = false) : ∃ store offers,
      s.store.Adds ⟨channel.toMessage id, address⟩ store ∧
      UpToFailure (Threshold.all.map fun t => .addReaction (channel.toMessage id) t.emoji) offers ∧
      s.perform chat (create channel raw).run = (.ok (channel.toMessage id), { s with
        store := store
        log := offers.reverse ++
          ⟨.post channel (Message.placeholder address), .ok id⟩ :: s.log }) := by
  obtain ⟨store, hrun, hadds⟩ := track_adds (t := ⟨channel.toMessage id, address⟩) hnew
  let tracked : Session := { s with
    store := store
    log := ⟨.post channel (Message.placeholder address), .ok id⟩ :: s.log }
  obtain ⟨offers, hoffered, hoffers⟩ :=
    perform_offerThresholds chat tracked (channel.toMessage id) Threshold.all
  refine ⟨store, offers, hadds, hoffers, ?_⟩
  rw [create_run_of_validate h.valid, perform_call, h.answer]
  dsimp only
  rw [perform_transact, Transaction.attempt_of_ok hrun]
  dsimp only
  rw [perform_bind, hoffered]
  rfl

/-- If the placeholder is not posted as a message that can be tracked, creating the tracking fails
and leaves the store as it was. -/
theorem create_outcome (chat : Platform) (s : Session) (channel : ChannelRef) (raw : String) :
    (∃ address id, Posted chat s channel raw address id ∧
      s.store.tracks (channel.toMessage id) = false) ∨
    ∃ e s', s.perform chat (create channel raw).run = (.error e, s') ∧ s'.store = s.store := by
  cases hvalid : Address.validate raw with
  | error fault => exact .inr ⟨_, _, create_of_invalid hvalid, rfl⟩
  | ok address =>
    cases hanswer : (chat s.log (.post channel (Message.placeholder address))).inTime with
    | error e => exact .inr ⟨_, _, create_of_refused hvalid hanswer, rfl⟩
    | ok id =>
      have hposted : Posted chat s channel raw address id := ⟨hvalid, hanswer⟩
      cases htracks : s.store.tracks (channel.toMessage id) with
      | true => exact .inr ⟨_, _, create_of_error hposted (track_of_tracks htracks), rfl⟩
      | false => exact .inl ⟨address, id, hposted, htracks⟩

/-- A tracking is created only if its placeholder was posted as a message that is not tracked. -/
theorem posted_of_create {r : MessageRef}
    (h : (s.perform chat (create channel raw).run).1 = .ok r) : ∃ address id,
      Posted chat s channel raw address id ∧ r = channel.toMessage id ∧
        s.store.tracks r = false := by
  obtain ⟨address, id, hposted, hnew⟩ | ⟨e, s', hrun, -⟩ := create_outcome chat s channel raw
  · obtain ⟨store, offers, -, -, hrun⟩ := create_of_untracked hposted hnew
    rw [hrun] at h
    cases h
    exact ⟨address, id, hposted, rfl, hnew⟩
  · rw [hrun] at h
    cases h

/-- If no tracking is created, the store stays as it was. -/
theorem store_of_create_error {e : TrackingError}
    (h : (s.perform chat (create channel raw).run).1 = .error e) :
    (s.perform chat (create channel raw).run).2.store = s.store := by
  obtain ⟨address, id, hposted, hnew⟩ | ⟨e', s', hrun, hstore⟩ :=
    create_outcome chat s channel raw
  · obtain ⟨store, offers, -, -, hrun⟩ := create_of_untracked hposted hnew
    rw [hrun] at h
    cases h
  · rw [hrun]
    exact hstore

/-- Creating a tracking succeeds exactly if the address is valid and the platform takes the
placeholder, with an id that makes it a message that is not tracked.  Then the tracking is added,
and the thresholds from one to ten are offered on the message, up to the first offer that fails.
Otherwise the store stays as it was.  For an invalid address nobody is called, and a placeholder
that is refused is the only call.  A placeholder that cannot be tracked is deleted, and the error is
that of the store whatever becomes of the deletion. -/
theorem create_all_or_nothing (chat : Platform) (s : Session) (channel : ChannelRef)
    (raw : String) :
    let after := s.perform chat (create channel raw).run
    (∀ r, after.1 = .ok r ↔ ∃ address id, Posted chat s channel raw address id ∧
      r = channel.toMessage id ∧ s.store.tracks r = false) ∧
    (∀ r, after.1 = .ok r → ∃ address id, Posted chat s channel raw address id ∧
      r = channel.toMessage id ∧ s.store.Adds ⟨r, address⟩ after.2.store ∧
      ∃ (thresholds : List Threshold) (offers : List Exchange),
        thresholds.map Threshold.clients = List.range' 1 10 ∧
        UpToFailure (thresholds.map fun t => .addReaction r t.emoji) offers ∧ after.2.log =
          offers.reverse ++ ⟨.post channel (Message.placeholder address), .ok id⟩ :: s.log) ∧
    (∀ e, after.1 = .error e → after.2.store = s.store) ∧
    (∀ fault, Address.validate raw = .error fault →
      after = (.error (.invalidAddress raw), s)) ∧
    (∀ address e, Address.validate raw = .ok address →
      (chat s.log (.post channel (Message.placeholder address))).inTime = .error e →
      after.1 = .error (.chat e) ∧ after.2.log =
        ⟨.post channel (Message.placeholder address), .error e⟩ :: s.log) ∧
    ∀ address id e, Posted chat s channel raw address id →
      (track ⟨channel.toMessage id, address⟩).run s.store = .error e →
      after.1 = .error (.store e) ∧ ∃ answer, after.2.log =
        ⟨.delete (channel.toMessage id), answer⟩ ::
          ⟨.post channel (Message.placeholder address), .ok id⟩ :: s.log := by
  intro after
  have hafter : s.perform chat (create channel raw).run = after := rfl
  clear_value after
  refine ⟨fun r => ⟨fun hr => ?_, ?_⟩, fun r hr => ?_, fun e he => ?_, fun fault hinvalid => ?_,
    fun address e hvalid hrefused => ?_, fun address id e hposted hrun => ?_⟩
  · rw [← hafter] at hr
    exact posted_of_create hr
  · rintro ⟨address, id, hposted, rfl, hnew⟩
    obtain ⟨store, offers, -, -, hcreated⟩ := create_of_untracked hposted hnew
    rw [← hafter, hcreated]
  · rw [← hafter] at hr
    obtain ⟨address, id, hposted, rfl, hnew⟩ := posted_of_create hr
    obtain ⟨store, offers, hadds, hoffers, hcreated⟩ := create_of_untracked hposted hnew
    rw [← hafter, hcreated]
    exact ⟨address, id, hposted, rfl, hadds, Threshold.all, offers, Threshold.clients_all, hoffers,
      rfl⟩
  · rw [← hafter] at he ⊢
    exact store_of_create_error he
  · rw [← hafter, create_of_invalid hinvalid]
  · rw [← hafter, create_of_refused hvalid hrefused]
    exact ⟨rfl, rfl⟩
  · rw [← hafter, create_of_error hposted hrun]
    exact ⟨rfl, _, rfl⟩

/-- The platform gives every message of a channel the same id, and is silent elsewhere.  A server is
tracked there; the next placeholder cannot be tracked; and neither a channel that is silent nor an
address that is none changes anything. -/
theorem create_all_or_nothing_each :
    let channel : ChannelRef := ⟨1, 2⟩
    let r := channel.toMessage 3
    let chat : Platform := fun _ c => match c with
      | .post c _ => if c = channel then .answer (.ok 3) else .silence
      | _ => .silence
    let start : Session := { polls := fun _ => .ok [] }
    let first := start.perform chat (create channel "1.2.3.4:8303").run
    let second := first.2.perform chat (create channel "5.6.7.8:8303").run
    let elsewhere := start.perform chat (create ⟨1, 4⟩ "1.2.3.4:8303").run
    first.1 = .ok r ∧ start.store.Adds ⟨r, "1.2.3.4:8303"⟩ first.2.store ∧
      second.1 = .error (.store (.duplicateKey .trackings)) ∧
      second.2.store = first.2.store ∧
      elsewhere.1 = .error (.chat .timeout) ∧
      start.perform chat (create channel "nowhere").run =
        (.error (.invalidAddress "nowhere"), start) := by
  intro channel r chat start first second elsewhere
  have hvalid : Address.validate "1.2.3.4:8303" = .ok "1.2.3.4:8303" := by decide +kernel
  have hvalid' : Address.validate "5.6.7.8:8303" = .ok "5.6.7.8:8303" := by decide +kernel
  have hinvalid : Address.validate "nowhere" = .error (.unreadable "nowhere") := by decide +kernel
  have hposted : Posted chat start channel "1.2.3.4:8303" "1.2.3.4:8303" 3 := ⟨hvalid, rfl⟩
  have hposted' : Posted chat first.2 channel "5.6.7.8:8303" "5.6.7.8:8303" 3 := ⟨hvalid', rfl⟩
  have hduplicate : (track ⟨r, "5.6.7.8:8303"⟩).run first.2.store =
      .error (.duplicateKey .trackings) := track_of_tracks (by decide +kernel)
  obtain ⟨hiff, hadded, -, -, -, -⟩ := create_all_or_nothing chat start channel "1.2.3.4:8303"
  obtain ⟨-, -, hkept, -, -, herror⟩ := create_all_or_nothing chat first.2 channel "5.6.7.8:8303"
  obtain ⟨-, -, -, -, hsilent, -⟩ := create_all_or_nothing chat start ⟨1, 4⟩ "1.2.3.4:8303"
  obtain ⟨-, -, -, hrefused, -, -⟩ := create_all_or_nothing chat start channel "nowhere"
  have hfirst : first.1 = .ok r := (hiff r).2 ⟨_, _, hposted, rfl, rfl⟩
  obtain ⟨address, id, hposted'', -, hadds, -⟩ := hadded r hfirst
  cases hvalid.symm.trans hposted''.valid
  have hsecond := (herror _ _ _ hposted' hduplicate).1
  exact ⟨hfirst, hadds, hsecond, hkept _ hsecond, (hsilent _ .timeout hvalid rfl).1,
    hrefused _ hinvalid⟩

end Tracking

end StatusBoard
