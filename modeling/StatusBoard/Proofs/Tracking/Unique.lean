import StatusBoard.Proofs.Address.Spelling
import StatusBoard.Proofs.Reaction.History
import StatusBoard.Proofs.Tracking.Fate

/-!
# One status message per watched server

Nothing in the store keeps two messages of a channel from showing the same server.  But a tracking
that is only created where none was found stays the only one, since everything else the board does
takes trackings away at most (`Store.Prunes`).  This holds at every moment, while other tasks of the
board go on between any two steps, but servers are set up one after the other
(`SetupWork.one_message_per_server`).
-/

namespace StatusBoard

open Store

namespace Store

/-! ### Trackings and their addresses -/

/-- A message shows the server at an address. -/
def TracksAt (s : Store) (r : MessageRef) (address : String) : Prop :=
  s.trackings.find? r.key = some address

instance (s : Store) (r : MessageRef) (address : String) : Decidable (s.TracksAt r address) :=
  inferInstanceAs (Decidable (_ = _))

/-- No channel has two trackings with the same address. -/
def Single (s : Store) : Prop :=
  ∀ r r' address, s.TracksAt r address → s.TracksAt r' address → r.inChannel = r'.inChannel → r = r'

/-- No message of a channel shows the server at an address. -/
def Lacks (s : Store) (c : ChannelRef) (address : String) : Prop :=
  ∀ r, r.inChannel = c → ¬ s.TracksAt r address

/-- The one message of a channel that shows the server at an address. -/
structure Target (s : Store) (c : ChannelRef) (address : String) (r : MessageRef) : Prop where
  channel : r.inChannel = c
  tracked : s.TracksAt r address
  only : ∀ r', r'.inChannel = c → s.TracksAt r' address → r' = r

/-- Every tracking was there before. -/
def Prunes (s s' : Store) : Prop := ∀ r address, s'.TracksAt r address → s.TracksAt r address

variable {s s' : Store} {c : ChannelRef} {r : MessageRef} {address : String}

theorem Prunes.of_same (h : s'.trackings = s.trackings) : s.Prunes s' := by
  intro r address hr
  rwa [TracksAt, h] at hr

theorem Single.prunes (h : s.Single) (hprunes : s.Prunes s') : s'.Single :=
  fun r r' address hr hr' => h r r' address (hprunes r address hr) (hprunes r' address hr')

theorem Lacks.prunes (h : s.Lacks c address) (hprunes : s.Prunes s') : s'.Lacks c address :=
  fun r hr htracked => h r hr (hprunes r address htracked)

theorem Single.target (h : s.Single) (hr : s.TracksAt r address) : s.Target r.inChannel address r :=
  ⟨rfl, hr, fun r' hchannel hr' => h r' r address hr' hr hchannel⟩

/-! ### Tracking a server where it is not tracked -/

theorem tracksAt_track {t : Tracking} (h : (track t).run s = .ok ((), s')) (r : MessageRef)
    (address : String) : s'.TracksAt r address ↔
      r = t.ref ∧ address = t.address ∨ r ≠ t.ref ∧ s.TracksAt r address := by
  rw [TracksAt, trackings_of_track h]
  split
  · next hr => simp [hr, eq_comm]
  · next hr => simp [hr, TracksAt]

/-- A new tracking is the only one of its channel with its address if there was none. -/
theorem Single.track (hs : s.Single) (t : Tracking) (hlacks : s.Lacks t.ref.inChannel t.address)
    (h : (track t).run s = .ok ((), s')) : s'.Single := by
  intro r r' address hr hr' hchannel
  rw [tracksAt_track h] at hr hr'
  rcases hr with ⟨rfl, rfl⟩ | ⟨-, hr⟩ <;> rcases hr' with ⟨rfl, haddress⟩ | ⟨-, hr'⟩
  · rfl
  · exact absurd hr' (hlacks r' hchannel.symm)
  · exact absurd (haddress ▸ hr) (hlacks r hchannel)
  · exact hs r r' address hr hr' hchannel

/-! ### Looking a server up -/

/-- The trackings of a channel. -/
def channelTrackings (s : Store) (c : ChannelRef) : List Tracking :=
  (s.trackings.rows.filter fun row => row.1.inChannel = c.key).map trackingOfRow

theorem listChannelTrackings_run (s : Store) (c : ChannelRef) :
    (listChannelTrackings c).run s = .ok (s.channelTrackings c, s) := rfl

theorem mem_channelTrackings {t : Tracking} :
    t ∈ s.channelTrackings c ↔ t.ref.inChannel = c ∧ s.TracksAt t.ref t.address := by
  have hchannel (r : MessageRef) : r.key.inChannel = c.key ↔ r.inChannel = c :=
    ChannelKey.eq_key_iff
  rw [channelTrackings, List.mem_map, TracksAt, Table.find?_eq_some_iff]
  constructor
  · rintro ⟨⟨k, address⟩, hrow, rfl⟩
    rw [List.mem_filter, decide_eq_true_eq] at hrow
    exact ⟨(hchannel k.toRef).1 hrow.2, hrow.1⟩
  · rintro ⟨ht, hrow⟩
    refine ⟨(t.ref.key, t.address), ?_, rfl⟩
    rw [List.mem_filter, decide_eq_true_eq]
    exact ⟨hrow, (hchannel t.ref).2 ht⟩

theorem lacks_of_find? (h : (s.channelTrackings c).find? (·.address = address) = none) :
    s.Lacks c address := by
  intro r hr htracked
  have hother := List.find?_eq_none.1 h ⟨r, address⟩ (mem_channelTrackings.2 ⟨hr, htracked⟩)
  exact hother (decide_eq_true rfl)

theorem Single.target_of_find? (hs : s.Single) {t : Tracking}
    (h : (s.channelTrackings c).find? (·.address = address) = some t) :
    s.Target c address t.ref := by
  have haddress : t.address = address := by simpa using List.find?_some h
  obtain ⟨rfl, htracked⟩ := mem_channelTrackings.1 (List.mem_of_find?_eq_some h)
  exact hs.target (haddress ▸ htracked)

theorem Target.find? (h : s.Target c address r) :
    (s.channelTrackings c).find? (·.address = address) = some ⟨r, address⟩ := by
  cases hfind : (s.channelTrackings c).find? (·.address = address) with
  | none => exact absurd h.tracked (lacks_of_find? hfind r h.channel)
  | some t =>
    obtain ⟨hchannel, htracked⟩ := mem_channelTrackings.1 (List.mem_of_find?_eq_some hfind)
    have haddress : t.address = address := by simpa using List.find?_some hfind
    have href := h.only t.ref hchannel (haddress ▸ htracked)
    rw [← href, ← haddress]

end Store

/-! ### What takes trackings away at most -/

/-- The successes of a transaction on a sound store leave no tracking that was not there. -/
def Transaction.Prunes {α : Type} (t : Transaction α) : Prop :=
  ∀ s a s', s.Sound → t.run s = .ok (a, s') → s.Prunes s'

theorem Transaction.Prunes.attempt {α : Type} {t : Transaction α} (ht : t.Prunes) {s : Store}
    (hs : s.Sound) : s.Prunes (t.attempt s).2 := by
  cases h : t.run s with
  | ok result =>
    rw [attempt_of_ok h]
    exact ht s _ _ hs h
  | error e =>
    rw [attempt_of_error h]
    exact .of_same rfl

namespace Store

theorem setThreshold_prunes (r : MessageRef) (user : UInt64) (t : Threshold) :
    (setThreshold r user t).Prunes :=
  fun s a s' hs h => (setThreshold_sheds r user t s a s' hs h).address

theorem removeSubscription_prunes (r : MessageRef) (user : UInt64) (t : Threshold) :
    (removeSubscription r user t).Prunes :=
  fun s a s' hs h => (removeSubscription_sheds r user t s a s' hs h).address

theorem Routine.prunes {γ : Type} {t : Transaction γ} (h : Routine γ t) : t.Prunes := by
  intro s a s' hs hrun
  cases h with
  | removeChannel c => exact (removeChannel_sheds c s a s' hs hrun).address
  | untrack r => exact (untrack_sheds r s a s' hs hrun).address
  | replace refs entries => exact .of_same (replace_leaves hs hrun).2.trackings
  | listTrackings =>
    cases hrun
    exact .of_same rfl
  | listSubscriptions refs => exact .of_same (by rw [listSubscriptions_reads hrun])
  | load => exact .of_same (by rw [load_reads hrun])

end Store

namespace Session

variable {α : Type} {s : Session} {p : Procedure α}

theorem step_prunes (chat : Platform) (hp : p.Only fun _ t => t.Prunes) (hs : s.store.Sound) :
    s.store.Prunes (p.step (surroundings chat) s).2.store := by
  rcases step_store chat hp s with hstore | ⟨γ, t, ht, hstore⟩
  · exact .of_same (by rw [hstore])
  · rw [hstore]
    exact ht.attempt hs

theorem step_sound (chat : Platform) (hp : p.Only Upkeep) (hs : s.store.Sound) :
    (p.step (surroundings chat) s).2.store.Sound := by
  rcases step_store chat hp s with hstore | ⟨γ, t, ht, hstore⟩
  · rwa [hstore]
  · rw [hstore]
    exact ht.access.keeps.attempt hs

/-- Procedures that only call leave the store alone. -/
theorem step_ends {Q : α → Prop} (h : p.Ends Q) (chat : Platform) (s : Session) :
    (p.step (surroundings chat) s).1.Ends Q ∧
      (p.step (surroundings chat) s).2.store = s.store := by
  cases h with
  | done h => exact ⟨.done h, rfl⟩
  | call h => exact ⟨h _, rfl⟩

end Session

/-- A valid address is left as it is. -/
theorem Address.validate_of_validate {raw address : String}
    (h : Address.validate raw = .ok address) : Address.validate address = .ok address := by
  obtain ⟨x, -, hport, rfl⟩ := Address.validate_eq_ok_iff.1 h
  exact Address.validate_eq_ok_iff.2 ⟨x, Address.denotes_text x, hport, rfl⟩

/-! ### How a server is set up -/

namespace Tracking

open Procedure Session

theorem ends_offerThresholds (r : MessageRef) (thresholds : List Threshold) :
    (offerThresholds r thresholds).Ends fun _ => True := by
  induction thresholds with
  | nil => exact .done trivial
  | cons t rest ih =>
    refine .call fun result => ?_
    cases result with
    | ok _ => exact ih
    | error e => exact .done trivial

theorem validate_of_checkedAddress {raw address : String} (h : checkedAddress raw = .ok address) :
    Address.validate raw = .ok address := by
  unfold checkedAddress at h
  cases hvalid : Address.validate raw with
  | error e =>
    rw [hvalid] at h
    cases h
  | ok address' =>
    rw [hvalid] at h
    cases h
    rfl

theorem checkedAddress_of_validate {raw address : String} (h : Address.validate raw = .ok address) :
    checkedAddress raw = .ok address := by
  rw [checkedAddress, h]
  rfl

/-- A valid address is posted before anything is stored. -/
theorem create_run_of_validate {channel : ChannelRef} {raw address : String}
    (h : Address.validate raw = .ok address) : (create channel raw).run =
      .call (.post channel (Message.placeholder address)) fun
      | .error e => .done (.error (.chat e))
      | .ok id => .transact (track ⟨channel.toMessage id, address⟩) fun
        | .ok () => offerThresholds (channel.toMessage id) Threshold.all >>= fun _ =>
          .done (.ok (channel.toMessage id))
        | .error e => .call (.delete (channel.toMessage id)) fun _ =>
          .done (.error (.store e)) := by
  have hrun := create_run channel raw
  rw [checkedAddress_of_validate h] at hrun
  exact hrun

/-- What can be left to do when a server is set up in a channel.  A message is `seen` at an address
if it was the channel's target for it at some moment before. -/
inductive Stage (channel : ChannelRef) (raw : String) (seen : String → MessageRef → Prop)
    (s : Store) : Procedure (Except TrackingError MessageRef) → Prop
  | start : Stage channel raw seen s (ensure channel raw).run
  | absent {address : String} (hvalid : Address.validate raw = .ok address)
    (hlacks : s.Lacks channel address) : Stage channel raw seen s (create channel address).run
  | posted {address : String} {id : UInt64}
    {next : Except StoreError Unit → Procedure (Except TrackingError MessageRef)}
    (hvalid : Address.validate raw = .ok address) (hlacks : s.Lacks channel address)
    (hok : (next (.ok ())).Ends (· = .ok (channel.toMessage id)))
    (herror : ∀ e, (next (.error e)).Ends fun result => ∀ r, result ≠ .ok r) :
    Stage channel raw seen s (.transact (track ⟨channel.toMessage id, address⟩) next)
  | found {address : String} {r : MessageRef} {p : Procedure (Except TrackingError MessageRef)}
    (hvalid : Address.validate raw = .ok address) (hends : p.Ends (· = .ok r))
    (hseen : seen address r)
    (honly : ∀ r', r'.inChannel = channel → s.TracksAt r' address → r' = r) :
    Stage channel raw seen s p
  | failed {p : Procedure (Except TrackingError MessageRef)}
    (hends : p.Ends fun result => ∀ r, result ≠ .ok r) : Stage channel raw seen s p

variable {channel : ChannelRef} {raw : String} {seen seen' : String → MessageRef → Prop}
variable {p : Procedure (Except TrackingError MessageRef)}

/-- Others may take trackings away. -/
theorem Stage.prunes {s s' : Store} (h : Stage channel raw seen s p) (hprunes : s.Prunes s')
    (hseen : ∀ address r, seen address r → seen' address r) : Stage channel raw seen' s' p := by
  cases h with
  | start => exact .start
  | absent hvalid hlacks => exact .absent hvalid (hlacks.prunes hprunes)
  | posted hvalid hlacks hok herror => exact .posted hvalid (hlacks.prunes hprunes) hok herror
  | found hvalid hends hfound honly =>
    exact .found hvalid hends (hseen _ _ hfound)
      fun r' hchannel hr' => honly r' hchannel (hprunes r' _ hr')
  | failed hends => exact .failed hends

theorem ends_error (e : TrackingError) :
    (Procedure.done (α := Except TrackingError MessageRef) (.error e)).Ends
      fun result => ∀ r, result ≠ .ok r :=
  .done fun _ h => by cases h

/-- A step of setting a server up.  What it finds or stores is the only tracking of its channel with
its address. -/
theorem Stage.step {s : Session} (h : Stage channel raw seen s.store p) (hs : s.store.Single)
    (chat : Platform)
    (htarget : ∀ address r, (p.step (surroundings chat) s).2.store.Target channel address r →
      seen' address r)
    (hseen : (p.step (surroundings chat) s).2.store = s.store →
      ∀ address r, seen address r → seen' address r) :
    (p.step (surroundings chat) s).2.store.Single ∧
      Stage channel raw seen' (p.step (surroundings chat) s).2.store
        (p.step (surroundings chat) s).1 := by
  cases h with
  | start =>
    rw [ensure_run] at htarget ⊢
    cases hchecked : checkedAddress raw with
    | error e => exact ⟨hs, .failed (ends_error e)⟩
    | ok address =>
      rw [hchecked] at htarget
      have hvalid := validate_of_checkedAddress hchecked
      have hlisted := Transaction.attempt_of_ok (listChannelTrackings_run s.store channel)
      simp only [Procedure.step, surroundings, hlisted] at htarget ⊢
      refine ⟨hs, ?_⟩
      split
      · next t ht =>
        have hfound := hs.target_of_find? ht
        exact .found hvalid (.done rfl) (htarget _ _ hfound) hfound.only
      · next hnone => exact .absent hvalid (lacks_of_find? hnone)
  | @absent address hvalid hlacks =>
    rw [create_run_of_validate (Address.validate_of_validate hvalid)]
    refine ⟨hs, ?_⟩
    simp only [Procedure.step, surroundings]
    split
    · exact .failed (ends_error _)
    · refine .posted hvalid hlacks ?_ fun e => .call fun _ => ends_error _
      exact (ends_offerThresholds _ _).bind fun _ _ => .done rfl
  | @posted address id next hvalid hlacks hok herror =>
    cases hrun : (track ⟨channel.toMessage id, address⟩).run s.store with
    | error e =>
      have hattempt := Transaction.attempt_of_error hrun
      simp only [Procedure.step, surroundings, hattempt]
      exact ⟨hs, .failed (herror e)⟩
    | ok result =>
      obtain ⟨⟨⟩, store⟩ := result
      have hattempt := Transaction.attempt_of_ok hrun
      simp only [Procedure.step, surroundings, hattempt] at htarget ⊢
      have hsingle := hs.track ⟨channel.toMessage id, address⟩ hlacks hrun
      have hstored : store.Target channel address (channel.toMessage id) :=
        hsingle.target ((tracksAt_track hrun _ _).2 (.inl ⟨rfl, rfl⟩))
      exact ⟨hsingle, .found hvalid hok (htarget _ _ hstored) hstored.only⟩
  | found hvalid hends hfound honly =>
    obtain ⟨hends, hstore⟩ := step_ends hends chat s
    have hfound := hseen hstore _ _ hfound
    rw [hstore]
    exact ⟨hs, .found hvalid hends hfound honly⟩
  | failed hends =>
    obtain ⟨hends, hstore⟩ := step_ends hends chat s
    rw [hstore]
    exact ⟨hs, .failed hends⟩

/-- The result of setting a server up is the message that was found or created. -/
theorem Stage.found_of_done {s : Store} {r : MessageRef}
    (h : Stage channel raw seen s (.done (.ok r))) :
    ∃ address, Address.validate raw = .ok address ∧ seen address r ∧
      ∀ r', r'.inChannel = channel → s.TracksAt r' address → r' = r := by
  generalize hp : Procedure.done (Except.ok r) = p at h
  cases h with
  | start =>
    rw [ensure_run] at hp
    cases hchecked : checkedAddress raw <;> simp [hchecked] at hp
  | absent hvalid hlacks =>
    simp [create_run_of_validate (Address.validate_of_validate hvalid)] at hp
  | posted hvalid hlacks hok herror => cases hp
  | @found address r' _ hvalid hends hfound honly =>
    cases hp
    cases hends with
    | done heq =>
      cases heq
      exact ⟨address, hvalid, hfound, honly⟩
  | failed hends =>
    cases hp
    cases hends with
    | done hne => exact absurd rfl (hne r)

/-- A server that is set up without a break has its one message in the channel. -/
theorem target_of_perform {chat : Platform} {s s' : Session} (hs : s.store.Single)
    {r : MessageRef} (h : s.perform chat (ensure channel raw).run = (.ok r, s')) :
    ∃ address, Address.validate raw = .ok address ∧ s'.store.Target channel address r := by
  let Kept (p : Procedure (Except TrackingError MessageRef)) (s : Session) : Prop :=
    s.store.Single ∧ Stage channel raw (s.store.Target channel) s.store p
  have hstep (p : Procedure (Except TrackingError MessageRef)) (s : Session) (h : Kept p s) :
      Kept (p.step (surroundings chat) s).1 (p.step (surroundings chat) s).2 :=
    h.2.step h.1 chat (fun _ _ htarget => htarget) fun hstore _ _ htarget => by rwa [hstore]
  have hstart : Kept (ensure channel raw).run s := ⟨hs, .start⟩
  have hdone := run_steps hstep hstart
  rw [perform] at h
  rw [h] at hdone
  obtain ⟨address, hvalid, htarget, -⟩ := hdone.2.found_of_done
  exact ⟨address, hvalid, htarget⟩

/-- Where the server is shown already, looking it up is all that is done. -/
theorem ensure_step {chat : Platform} {s : Session} (hs : s.store.Single) {r : MessageRef}
    {address : String} (hr : s.store.TracksAt r address)
    (hvalid : Address.validate raw = .ok address) :
    (ensure r.inChannel raw).run.step (surroundings chat) s = (.done (.ok r), s) := by
  have hlisted := Transaction.attempt_of_ok (listChannelTrackings_run s.store r.inChannel)
  rw [ensure_run, checkedAddress_of_validate hvalid]
  simp only [Procedure.step, surroundings, hlisted, (hs.target hr).find?]

end Tracking

/-! ### Everything else the board works on -/

/-- Whether a tracking may be created. -/
def Moment.creates : Moment → Bool
  | occasion o _ => o.creates
  | _ => false

namespace Work

/-- The store is sound, and none of the tasks creates a tracking or handles a reaction. -/
structure Tidy (w : Work) : Prop where
  sound : w.session.store.Sound
  tasks : ∀ p ∈ w.tasks, p.Only Routine

variable {chat : Platform} {board : UInt64} {w : Work} {m : Moment}

theorem Tidy.orderly (h : w.Tidy) : w.Orderly :=
  ⟨h.sound, fun p hp => (h.tasks p hp).imp fun _ _ => Routine.upkeep⟩

theorem only_prunes (x : ReactionEvent) : (x.procedure board).Only fun _ t => t.Prunes := by
  unfold ReactionEvent.procedure
  split
  · exact Procedure.only_added setThreshold_prunes board x.reaction
  · exact Procedure.only_unsubscribe removeSubscription_prunes board x.reaction

/-- A moment at which no tracking may be created. -/
theorem Tidy.next (h : w.Tidy) (hm : m.creates = false) : (w.next chat board m).Tidy ∧
    w.session.store.Prunes (w.next chat board m).session.store := by
  have hsound : (w.next chat board m).session.store.Sound := (h.orderly.next m).sound
  cases m with
  | occasion o ho =>
    have hroutine := Procedure.only_routine hm ho
    refine ⟨⟨hsound, ?_⟩, .of_same rfl⟩
    exact List.forall_mem_append.2 ⟨h.tasks, List.forall_mem_singleton.2 hroutine⟩
  | reaction x =>
    have hrest := x.only_after_step (P := Routine) chat board w.session
    refine ⟨⟨hsound, ?_⟩, Session.step_prunes chat (only_prunes x) h.sound⟩
    exact List.forall_mem_append.2 ⟨h.tasks, List.forall_mem_singleton.2 hrest.ignore⟩
  | step i =>
    unfold Work.next at hsound ⊢
    dsimp only at hsound ⊢
    split
    · exact ⟨h, .of_same rfl⟩
    · next p hp =>
      have hroutine := h.tasks p (List.mem_of_getElem? hp)
      have hprunes := Session.step_prunes chat (hroutine.imp fun _ _ => Routine.prunes) h.sound
      rw [hp] at hsound
      refine ⟨⟨hsound, fun q hq => ?_⟩, hprunes⟩
      rcases List.mem_or_eq_of_mem_set hq with hq | rfl
      · exact h.tasks q hq
      · exact hroutine.step _ _

end Work

/-! ### Setting servers up -/

/-- A server that is set up in a channel, and what is left to do for it. -/
structure Setup where
  channel : ChannelRef
  raw : String
  rest : Procedure (Except TrackingError MessageRef)

/-- The result, if nothing is left to do. -/
def Setup.result? (p : Setup) : Option (Except TrackingError MessageRef) :=
  match p.rest with
  | .done result => some result
  | _ => none

theorem Setup.rest_of_result? {p : Setup} {result : Except TrackingError MessageRef}
    (h : p.result? = some result) : p.rest = .done result := by
  unfold Setup.result? at h
  split at h
  · next hrest =>
    cases h
    exact hrest
  · cases h

/-- The work of the board, and the last server that it began to set up.  Two set-ups never overlap.
If they did, each of them could look for the server before the other one tracks it, and a channel
could get two messages for one server. -/
structure SetupWork extends Work where
  setup : Option Setup := none

/-- What can happen next. -/
inductive Turn
  /-- The board begins to set a server up.  It is done with the one before, or gives it up. -/
  | ensure (channel : ChannelRef) (raw : String)
  /-- Setting the server up goes on by a step. -/
  | resume
  /-- Anything else happens, but no tracking is created. -/
  | other (m : Moment) (hm : m.creates = false)

namespace SetupWork

variable (chat : Platform) (board : UInt64)

/-- The work after one more turn. -/
def next (w : SetupWork) : Turn → SetupWork
  | .ensure channel raw =>
    { w with setup := some ⟨channel, raw, (Tracking.ensure channel raw).run⟩ }
  | .resume =>
    match w.setup with
    | none => w
    | some setup =>
      let (rest, session) := setup.rest.step (Session.surroundings chat) w.session
      { w with session, setup := some { setup with rest } }
  | .other m _ => { w with toWork := w.toWork.next chat board m }

/-- The work after some turns, latest first, from the empty store on. -/
def after (polls : Nat → PollAnswer) : List Turn → SetupWork
  | [] => { session := { polls := polls } }
  | t :: earlier => (after polls earlier).next chat board t

/-- The stores since the last server is being set up, latest first. -/
def sinceEnsure (polls : Nat → PollAnswer) : List Turn → List Store
  | [] => []
  | .ensure .. :: _ => []
  | t :: earlier =>
    (after chat board polls (t :: earlier)).session.store :: sinceEnsure polls earlier

/-- In one of these stores, a message was the one that showed the server at an address. -/
def Seen (past : List Store) (channel : ChannelRef) (address : String) (r : MessageRef) : Prop :=
  ∃ s ∈ past, s.Target channel address r

theorem Seen.cons {past : List Store} {channel : ChannelRef} {address : String} {r : MessageRef}
    (h : Seen past channel address r) (s : Store) : Seen (s :: past) channel address r :=
  h.imp fun _ hs => ⟨List.mem_cons_of_mem s hs.1, hs.2⟩

/-- What holds after every turn.  `past` are the stores since the server is being set up. -/
structure Orderly (w : SetupWork) (past : List Store) : Prop where
  tidy : w.Tidy
  single : w.session.store.Single
  rest : ∀ setup, w.setup = some setup → setup.rest.Only Upkeep
  stage : ∀ setup, w.setup = some setup → Tracking.Stage setup.channel setup.raw
    (Seen past setup.channel) w.session.store setup.rest

variable {chat board} {w : SetupWork} {past : List Store}

theorem Orderly.ensure (h : w.Orderly past) (channel : ChannelRef) (raw : String) :
    (w.next chat board (.ensure channel raw)).Orderly [] where
  tidy := h.tidy
  single := h.single
  rest setup hsetup := by
    cases hsetup
    exact Procedure.only_ensure channel raw
  stage setup hsetup := by
    cases hsetup
    exact .start

theorem Orderly.resume (h : w.Orderly past) : (w.next chat board .resume).Orderly
    ((w.next chat board .resume).session.store :: past) := by
  unfold SetupWork.next
  dsimp only
  cases hsetup : w.setup with
  | none =>
    refine ⟨h.tidy, h.single, fun setup hsome => ?_, fun setup hsome => ?_⟩ <;>
      · rw [hsetup] at hsome
        cases hsome
  | some setup =>
    have hrest := h.rest setup hsetup
    have hstage := (h.stage setup hsetup).step h.single chat
      (fun address r htarget => ⟨_, List.mem_cons_self, htarget⟩) fun _ address r hseen =>
        hseen.cons (setup.rest.step (Session.surroundings chat) w.session).2.store
    refine ⟨⟨Session.step_sound chat hrest h.tidy.sound, h.tidy.tasks⟩, hstage.1, ?_, ?_⟩
    · rintro _ ⟨⟩
      exact hrest.step _ _
    · rintro _ ⟨⟩
      exact hstage.2

theorem Orderly.other (h : w.Orderly past) {m : Moment} (hm : m.creates = false) :
    (w.next chat board (.other m hm)).Orderly
      ((w.next chat board (.other m hm)).session.store :: past) := by
  obtain ⟨htidy, hprunes⟩ : (w.toWork.next chat board m).Tidy ∧
    w.session.store.Prunes (w.toWork.next chat board m).session.store := h.tidy.next hm
  refine ⟨htidy, h.single.prunes hprunes, h.rest, fun setup hsetup => ?_⟩
  exact (h.stage setup hsetup).prunes hprunes fun address r hseen => hseen.cons _

theorem orderly_after (polls : Nat → PollAnswer) (history : List Turn) :
    (after chat board polls history).Orderly (sinceEnsure chat board polls history) := by
  induction history with
  | nil =>
    refine ⟨⟨sound_empty, by simp [after]⟩, ?_, ?_, ?_⟩
    · intro r r' address hr
      cases hr
    · intro setup hsetup
      cases hsetup
    · intro setup hsetup
      cases hsetup
  | cons t earlier ih =>
    cases t with
    | ensure channel raw => exact ih.ensure channel raw
    | resume => exact ih.resume
    | other m hm => exact ih.other hm

/-- Servers are set up one after the other, and between any two steps the board works on anything
else that creates no tracking.  Then no channel ever has two trackings with the same address.  A
server that was set up has the message that is given, which was the one message of the channel for
the valid address in one of the stores meanwhile, and no other message has become it since; without
a break it still is the one.  And where a message shows the server, it is given for every spelling
of the address, in one step that calls nobody and changes nothing. -/
theorem one_message_per_server (chat : Platform) (board : UInt64) (polls : Nat → PollAnswer)
    (history : List Turn) :
    let w := after chat board polls history
    w.session.store.Single ∧
    (∀ setup r, w.setup = some setup → setup.result? = some (.ok r) →
      ∃ address, Address.validate setup.raw = .ok address ∧
        (∃ s ∈ sinceEnsure chat board polls history, s.Target setup.channel address r) ∧
        ∀ r', r'.inChannel = setup.channel → w.session.store.TracksAt r' address → r' = r) ∧
    (∀ channel raw r s', w.session.perform chat (Tracking.ensure channel raw).run = (.ok r, s') →
      ∃ address, Address.validate raw = .ok address ∧ s'.store.Target channel address r) ∧
    ∀ r address raw, w.session.store.TracksAt r address → Address.validate raw = .ok address →
      (Tracking.ensure r.inChannel raw).run.step (Session.surroundings chat) w.session =
        (.done (.ok r), w.session) := by
  intro w
  have horderly : w.Orderly (sinceEnsure chat board polls history) := orderly_after polls history
  refine ⟨horderly.single, fun setup r hsetup hresult => ?_, fun channel raw r s' h => ?_,
    fun r address raw hr hvalid => ?_⟩
  · have hstage := horderly.stage setup hsetup
    rw [Setup.rest_of_result? hresult] at hstage
    exact hstage.found_of_done
  · exact Tracking.target_of_perform horderly.single h
  · exact Tracking.ensure_step horderly.single hr hvalid

/-- A server is set up while a poll cycle goes on, and then again under another spelling of its
address. -/
theorem one_message_per_server_spellings :
    let channel : ChannelRef := ⟨1, 2⟩
    let r := channel.toMessage 3
    let raw := "1.2.3.4:8303"
    let raw' := " tw-0.7+udp://1.2.3.4:08303// "
    let chat : Platform := fun _ c => match c with
      | .post _ _ => .answer (.ok 3)
      | _ => .silence
    let history : List Turn := [.resume, .resume, .other (.step 0) rfl, .resume,
      .other (.occasion .cycle rfl) rfl, .resume, .ensure channel raw]
    let w := after chat 1 (fun _ => .ok []) history
    w.setup.bind Setup.result? = some (.ok r) ∧
      (∀ r', r'.inChannel = channel → w.session.store.TracksAt r' raw → r' = r) ∧
      (Tracking.ensure r.inChannel raw').run.step (Session.surroundings chat) w.session =
        (.done (.ok r), w.session) := by
  intro channel r raw raw' chat history
  dsimp only
  obtain ⟨-, hset, -, hagain⟩ := one_message_per_server chat 1 (fun _ => .ok []) history
  generalize hw : after chat 1 (fun _ => .ok []) history = w at hset hagain ⊢
  have hresult : w.setup.bind Setup.result? = some (.ok r) := by
    rw [← hw]
    decide +kernel
  have hrequest : w.setup.map (fun p => (p.channel, p.raw)) = some (channel, raw) := by
    rw [← hw]
    decide +kernel
  have htracked : w.session.store.TracksAt r raw := by
    rw [← hw]
    decide +kernel
  have hvalid : Address.validate raw = .ok raw := by decide +kernel
  have hvalid' : Address.validate raw' = .ok raw := by decide +kernel
  obtain ⟨setup, hsetup, hdone⟩ := Option.bind_eq_some_iff.1 hresult
  obtain ⟨address, haddress, -, honly⟩ := hset setup r hsetup hdone
  rw [hsetup, Option.map_some, Option.some.injEq, Prod.mk.injEq] at hrequest
  rw [hrequest.2, hvalid] at haddress
  cases haddress
  rw [hrequest.1] at honly
  exact ⟨hresult, honly, hagain r raw raw' htracked hvalid'⟩

end SetupWork

end StatusBoard
