import StatusBoard.Proofs.Cycle.Effect

/-!
# A cycle among other tasks

Between any two steps of a cycle other tasks may write to the store: subscribe and unsubscribe
users, track new messages, and drop trackings and channels.  A course keeps the stores of all
moments of such a run.  What a cycle stores is right for the messages that were tracked all along
since it listed the trackings, and no other message shows anything.
-/

namespace StatusBoard

open Store

/-! ### Fading -/

/-- No tracking is added, no server is stored, and servers go with their trackings only. -/
structure Store.Fades (s s' : Store) : Prop where
  sound : s'.Sound
  tracks : ∀ r, s'.tracks r → s.tracks r
  shown? : ∀ r, s'.shown? r = if s'.tracks r then s.shown? r else none

/-- The successes of a transaction let a sound store fade at most. -/
def Transaction.Fades {α : Type} (t : Transaction α) : Prop :=
  ∀ s a s', s.Sound → t.run s = .ok (a, s') → s.Fades s'

namespace Store

variable {s s' : Store}

theorem Fades.refl (hs : s.Sound) : s.Fades s where
  sound := hs
  tracks _ h := h
  shown? r := by
    by_cases h : s.tracks r
    · rw [if_pos h]
    · rw [if_neg h, hs.shown?_eq_none h]

theorem Fades.trans {s'' : Store} (h : s.Fades s') (h' : s'.Fades s'') : s.Fades s'' where
  sound := h'.sound
  tracks r hr := h.tracks r (h'.tracks r hr)
  shown? r := by
    rw [h'.shown?, h.shown?]
    by_cases hr : s''.tracks r
    · rw [if_pos hr, if_pos hr, if_pos (h'.tracks r hr)]
    · rw [if_neg hr, if_neg hr]

/-- Where the announced servers are as before, the same is shown. -/
theorem shown?_of_same (hannounced : s'.announced = s.announced) (hclients : s'.clients = s.clients)
    (r : MessageRef) : s'.shown? r = s.shown? r := by
  apply shown?_congr
  · rw [hannounced]
  · intro p
    rw [hclients]

theorem Fades.of_same (hs' : s'.Sound) (htrackings : s'.trackings = s.trackings)
    (hannounced : s'.announced = s.announced) (hclients : s'.clients = s.clients) : s.Fades s' where
  sound := hs'
  tracks r h := by
    rw [Store.tracks, htrackings] at h
    exact h
  shown? r := by
    by_cases h : s'.tracks r
    · rw [if_pos h, shown?_of_same hannounced hclients]
    · rw [if_neg h, hs'.shown?_eq_none h]

theorem fades_dropTrackings (hs : s.Sound) (p : MessageKey → Bool) :
    s.Fades (s.dropTrackings p) where
  sound := hs.dropTrackings p
  tracks r h := by
    rw [tracks_dropTrackings, Bool.and_eq_true] at h
    exact h.2
  shown? r := by
    rw [hs.shown?_dropTrackings, tracks_dropTrackings]
    cases hp : p r.key
    · by_cases h : s.tracks r
      · simp [h]
      · simp [h, hs.shown?_eq_none h]
    · rfl

theorem untrack_fades (r : MessageRef) : (untrack r).Fades := by
  intro s _ s' hs h
  rw [untrack_run] at h
  split at h
  · cases h
    exact fades_dropTrackings hs _
  · cases h

theorem removeChannel_fades (c : ChannelRef) : (removeChannel c).Fades := by
  intro s _ s' hs h
  have hs' := removeChannel_keeps c s _ s' hs h
  rw [removeChannel_run] at h
  split at h
  · cases h
    exact (fades_dropTrackings hs fun k => k.inChannel = c.key).trans (.of_same hs' rfl rfl rfl)
  · cases h

theorem setThreshold_fades (r : MessageRef) (user : UInt64) (t : Threshold) :
    (setThreshold r user t).Fades := by
  intro s _ s' hs h
  have hs' := setThreshold_keeps r user t s _ s' hs h
  rw [setThreshold_run] at h
  split at h
  · cases h
    exact .of_same hs' rfl rfl rfl
  · cases h

theorem removeSubscription_fades (r : MessageRef) (user : UInt64) (t : Threshold) :
    (removeSubscription r user t).Fades := by
  intro s _ s' hs h
  have hs' := removeSubscription_keeps r user t s _ s' hs h
  rw [removeSubscription_run] at h
  split at h
  · cases h
    exact .of_same hs' rfl rfl rfl
  · cases h

/-- A message that is tracked anew shows nothing. -/
theorem attempt_track (hs : s.Sound) (t : Tracking) (hnew : ¬ s.tracks t.ref) :
    ((track t).attempt s).2.Sound ∧
      (∀ r, ((track t).attempt s).2.tracks r → s.tracks r ∨ r = t.ref) ∧
      ∀ r, ((track t).attempt s).2.shown? r =
        if ((track t).attempt s).2.tracks r then s.shown? r else none := by
  have hsound : ((track t).attempt s).2.Sound := (track_keeps t).attempt hs
  have hrun := track_run s t
  rw [Store.tracks] at hnew
  rw [if_neg hnew] at hrun
  rw [Transaction.attempt_of_ok hrun] at hsound ⊢
  refine ⟨hsound, fun r hr => ?_, fun r => ?_⟩
  · rw [Store.tracks, Table.contains_insert, Bool.or_eq_true, decide_eq_true_iff,
      MessageRef.key_inj] at hr
    exact hr.symm
  · split
    · exact shown?_of_same rfl rfl r
    · next h => exact hsound.shown?_eq_none h

end Store

theorem Transaction.Fades.attempt {α : Type} {t : Transaction α} (ht : t.Fades) {s : Store}
    (hs : s.Sound) : s.Fades (t.attempt s).2 := by
  cases h : t.run s with
  | ok result =>
    rw [attempt_of_ok h]
    exact ht s _ _ hs h
  | error e =>
    rw [attempt_of_error h]
    exact .refl hs

/-! ### Courses -/

/-- What another task does to the store at a time. -/
inductive Interference
  | setThreshold (r : MessageRef) (user : UInt64) (t : Threshold)
  | removeSubscription (r : MessageRef) (user : UInt64) (t : Threshold)
  | track (t : Tracking)
  | untrack (r : MessageRef)
  | removeChannel (c : ChannelRef)

/-- A run among other tasks: the present store, how many steps were done, and the earlier stores,
latest first, each with the number of steps that were done then. -/
structure Course where
  store : Store
  steps : Nat := 0
  past : List (Nat × Store) := []

namespace Course

/-- All stores so far, latest first. -/
def moments (c : Course) : List (Nat × Store) := (c.steps, c.store) :: c.past

/-- The stores since a number of steps was done, latest first. -/
def since (c : Course) (n : Nat) : List Store :=
  (c.moments.filter fun m => n ≤ m.1).map Prod.snd

/-- Another task writes to the store.  The platform gives every message a new id, so a message that
was tracked once is not tracked anew. -/
def disturb (c : Course) (i : Interference) : Course where
  store := match i with
    | .setThreshold r user t => ((Store.setThreshold r user t).attempt c.store).2
    | .removeSubscription r user t => ((Store.removeSubscription r user t).attempt c.store).2
    | .track t =>
      if c.moments.any fun m => m.2.tracks t.ref then c.store
      else ((Store.track t).attempt c.store).2
    | .untrack r => ((Store.untrack r).attempt c.store).2
    | .removeChannel channel => ((Store.removeChannel channel).attempt c.store).2
  steps := c.steps
  past := c.moments

/-- A step leads to a store. -/
def advance (c : Course) (store : Store) : Course := ⟨store, c.steps + 1, c.moments⟩

/-- The course before the next step, when others have done what they do until then. -/
def awaited (others : Nat → List Interference) (c : Course) : Course :=
  (others c.steps).foldl disturb c

/-- A run among other tasks.  `others n` happens before the step after `n` steps, and a call in that
step gets the response `chat n`. -/
def surroundings (others : Nat → List Interference)
    (chat : Nat → (c : ChatCall) → Response c.Reply) (answer : PollAnswer) :
    Surroundings Course where
  transact t c :=
    let c := c.awaited others
    ((t.attempt c.store).1, c.advance (t.attempt c.store).2)
  call call c :=
    let c := c.awaited others
    (chat c.steps call, c.advance c.store)
  poll c :=
    let c := c.awaited others
    (answer, c.advance c.store)

/-! ### Tracked all along -/

/-- What may become of the store at one moment: no server is stored, servers go with their trackings
only, and only messages are tracked anew that were never tracked. -/
structure Admits (c : Course) (store : Store) : Prop where
  sound : store.Sound
  tracks : ∀ r, store.tracks r → c.store.tracks r ∨ ∀ m ∈ c.moments, ¬ m.2.tracks r
  shown? : ∀ r, store.shown? r = if store.tracks r then c.store.shown? r else none

theorem admits_of_fades {c : Course} {store : Store} (h : c.store.Fades store) :
    c.Admits store where
  sound := h.sound
  tracks r hr := .inl (h.tracks r hr)
  shown? := h.shown?

theorem admits_disturb {c : Course} (hs : c.store.Sound) (i : Interference) :
    c.Admits (c.disturb i).store := by
  cases i with
  | setThreshold r user t => exact admits_of_fades ((setThreshold_fades r user t).attempt hs)
  | removeSubscription r user t =>
    exact admits_of_fades ((removeSubscription_fades r user t).attempt hs)
  | untrack r => exact admits_of_fades ((untrack_fades r).attempt hs)
  | removeChannel channel => exact admits_of_fades ((removeChannel_fades channel).attempt hs)
  | track t =>
    unfold disturb
    dsimp only
    split
    · exact admits_of_fades (.refl hs)
    · next hany =>
      have hnew (m : Nat × Store) (hm : m ∈ c.moments) : ¬ m.2.tracks t.ref := by
        intro htracks
        exact hany (List.any_eq_true.2 ⟨m, hm, htracks⟩)
      obtain ⟨hsound, htracks, hshown⟩ := attempt_track hs t (hnew _ List.mem_cons_self)
      refine ⟨hsound, fun r hr => ?_, hshown⟩
      rcases htracks r hr with h | rfl
      · exact .inl h
      · exact .inr hnew

/-- What holds of a course after the trackings were listed and while nothing is stored: a listed
message that is still tracked was tracked all along, and a message shows what it showed when the
trackings were listed if it was tracked all along, and nothing otherwise. -/
structure Steady (listed : Store) (shown? : MessageRef → Option Server) (c : Course) : Prop where
  two_le : 2 ≤ c.steps
  sound : c.store.Sound
  first : (c.since 2).getLast? = some listed
  tracks : ∀ r, listed.tracks r → c.store.tracks r → (c.since 2).all (·.tracks r)
  shown? : ∀ r, c.store.shown? r = if (c.since 2).all (·.tracks r) then shown? r else none

theorem since_cons {c : Course} {n : Nat} (hn : n ≤ c.steps) :
    c.since n = c.store :: (c.past.filter fun m => n ≤ m.1).map Prod.snd := by
  rw [since, moments, List.filter_cons, if_pos (decide_eq_true hn)]
  rfl

theorem since_of_past {c c' : Course} {n : Nat} (hn : n ≤ c'.steps) (hpast : c'.past = c.moments) :
    c'.since n = c'.store :: c.since n := by
  rw [since_cons hn, hpast]
  rfl

variable {listed : Store} {shown : MessageRef → Option Server} {c c' : Course}

/-- The next moment of a course, if it is admitted. -/
theorem Steady.next (h : Steady listed shown c) (hsteps : c.steps ≤ c'.steps)
    (hpast : c'.past = c.moments) (hadmits : c.Admits c'.store) : Steady listed shown c' := by
  have htwo : 2 ≤ c'.steps := Nat.le_trans h.two_le hsteps
  have hsince := since_of_past htwo hpast
  have hlisted : ∃ m ∈ c.moments, m.2 = listed := by
    obtain ⟨m, hm, rfl⟩ := List.mem_map.1 (List.mem_of_getLast? h.first)
    exact ⟨m, (List.mem_filter.1 hm).1, rfl⟩
  refine ⟨htwo, hadmits.sound, ?_, fun r hr hnow => ?_, fun r => ?_⟩
  · rw [hsince, List.getLast?_cons, h.first]
    rfl
  · rw [hsince, List.all_cons, hnow, Bool.true_and]
    rcases hadmits.tracks r hnow with hbefore | hnever
    · exact h.tracks r hr hbefore
    · -- A message of the list was tracked before.
      obtain ⟨m, hm, rfl⟩ := hlisted
      exact absurd hr (hnever m hm)
  · rw [hadmits.shown?, h.shown?, hsince, List.all_cons]
    cases c'.store.tracks r <;> rfl

theorem Steady.awaited (h : Steady listed shown c) (others : Nat → List Interference) :
    Steady listed shown (c.awaited others) := by
  unfold Course.awaited
  induction others c.steps generalizing c with
  | nil => exact h
  | cons i rest ih => exact ih (h.next (Nat.le_refl _) rfl (admits_disturb h.sound i))

theorem Steady.advance (h : Steady listed shown c) {store : Store} (hfades : c.store.Fades store) :
    Steady listed shown (c.advance store) :=
  h.next (Nat.le_succ _) rfl (admits_of_fades hfades)

/-- What is shown at a later moment may be taken for what was shown first. -/
theorem Steady.reload (h : Steady listed shown c) : Steady listed c.store.shown? c where
  two_le := h.two_le
  sound := h.sound
  first := h.first
  tracks := h.tracks
  shown? r := by
    split
    · rfl
    · next hnot => rw [h.shown?, if_neg hnot]

theorem awaited_steps (others : Nat → List Interference) (c : Course) :
    (c.awaited others).steps = c.steps := by
  unfold awaited
  induction others c.steps generalizing c with
  | nil => rfl
  | cons i rest ih => exact ih (c.disturb i)

/-- A course before the trackings are listed, which is its second step. -/
structure Early (c : Course) : Prop where
  sound : c.store.Sound
  steps_lt : ∀ m ∈ c.moments, m.1 < 2

theorem Early.awaited (h : Early c) (others : Nat → List Interference) :
    Early (c.awaited others) := by
  unfold Course.awaited
  induction others c.steps generalizing c with
  | nil => exact h
  | cons i rest ih =>
    apply ih
    refine ⟨(admits_disturb h.sound i).sound, fun m hm => ?_⟩
    rcases List.mem_cons.1 hm with rfl | hm
    · exact h.steps_lt (c.steps, c.store) List.mem_cons_self
    · exact h.steps_lt m hm

theorem Early.advance (h : Early c) (hsteps : c.steps = 0) : Early (c.advance c.store) := by
  refine ⟨h.sound, fun m hm => ?_⟩
  rcases List.mem_cons.1 hm with rfl | hm
  · change c.steps + 1 < 2
    omega
  · exact h.steps_lt m hm

/-- The trackings are listed. -/
theorem Early.steady (h : Early c) (hsteps : c.steps = 1) :
    Steady c.store c.store.shown? (c.advance c.store) := by
  have htwo : 2 ≤ (c.advance c.store).steps := by
    change 2 ≤ c.steps + 1
    omega
  have hnil : c.since 2 = [] := by
    rw [since, List.map_eq_nil_iff, List.filter_eq_nil_iff]
    intro m hm
    have hlt := h.steps_lt m hm
    simp only [decide_eq_true_eq]
    omega
  have hsince : (c.advance c.store).since 2 = [c.store] := by
    rw [since_of_past htwo rfl, hnil]
    rfl
  refine ⟨htwo, h.sound, by rw [hsince]; rfl, fun r hr _ => ?_, fun r => ?_⟩
  · rw [hsince, List.all_cons, hr]
    rfl
  · rw [hsince, List.all_cons, List.all_nil, Bool.and_true]
    exact (Fades.refl h.sound).shown? r

/-! ### Runs -/

section Run

variable {α γ : Type} (others : Nat → List Interference)
  (chat : Nat → (c : ChatCall) → Response c.Reply) (answer : PollAnswer)

/-- Carry out a procedure among other tasks. -/
def perform (p : Procedure α) (c : Course) : α × Course :=
  p.run (surroundings others chat answer) c

theorem transact_ok {t : Transaction γ} {a : γ} {store : Store}
    (h : t.run (c.awaited others).store = .ok (a, store)) :
    (surroundings others chat answer).transact t c =
      (.ok a, (c.awaited others).advance store) := by
  simp only [surroundings, Transaction.attempt_of_ok h]

theorem perform_transact_ok {t : Transaction γ} {a : γ} {store : Store}
    (h : t.run (c.awaited others).store = .ok (a, store))
    (next : Except StoreError γ → Procedure α) :
    c.perform others chat answer (.transact t next) =
      ((c.awaited others).advance store).perform others chat answer (next (.ok a)) :=
  Procedure.run_transact (transact_ok others chat answer h) next

/-- Procedures whose transactions let the store fade at most keep a course steady. -/
theorem Steady.perform {p : Procedure α} (hp : p.Only fun _ t => t.Fades)
    (h : Steady listed shown c) : Steady listed shown (c.perform others chat answer p).2 := by
  refine Procedure.run_induction (I := Steady listed shown) ?_ ?_ ?_ hp h
  · intro γ t c ht h
    exact (h.awaited others).advance (ht.attempt (h.awaited others).sound)
  · intro call c h
    exact (h.awaited others).advance (.refl (h.awaited others).sound)
  · intro c h
    exact (h.awaited others).advance (.refl (h.awaited others).sound)

end Run

end Course

/-! ### The cycle -/

namespace Cycle

open Course

variable {listed : Store} {stored current : Snapshot} {c : Course}

/-- What messages show after the last step of a cycle. -/
theorem shown?_advance (h : Steady listed stored.get? c)
    (htracked : ∀ r server, current.get? r = some server → listed.tracks r) {s' : Store}
    (hsame : SameTrackings c.store s') (hshown : ∀ r, s'.shown? r = if c.store.tracks r then
      if stored.get? r = current.get? r then c.store.shown? r else current.get? r else none)
    (r : MessageRef) : s'.shown? r =
      if ((c.advance s').since 2).all (·.tracks r) then current.get? r else none := by
  have hall : ((c.advance s').since 2).all (·.tracks r) = (c.since 2).all (·.tracks r) := by
    have hsince : (c.advance s').since 2 = s' :: c.since 2 :=
      since_of_past (Nat.le_succ_of_le h.two_le) rfl
    rw [hsince, List.all_cons, hsame.tracks, since_cons h.two_le, List.all_cons, ← Bool.and_assoc,
      Bool.and_self]
  rw [hshown, hall, h.shown?]
  by_cases htracks : (c.since 2).all (·.tracks r)
  · have hnow : c.store.tracks r := by
      rw [since_cons h.two_le, List.all_cons, Bool.and_eq_true] at htracks
      exact htracks.1
    rw [if_pos hnow, if_pos htracks, if_pos htracks]
    split
    · assumption
    · rfl
  · rw [if_neg htracks, if_neg htracks]
    split
    · next hnow =>
      -- A message that is tracked now but was not all along came after the list.
      cases hcurrent : current.get? r with
      | none => split <;> rfl
      | some server => exact absurd (h.tracks r (htracked r server hcurrent) hnow) htracks
    · rfl

/-- Carrying out the changes between what was stored and the current snapshot. -/
theorem carryOut_interleaved (others : Nat → List Interference)
    (chat : Nat → (c : ChatCall) → Response c.Reply) (answer : PollAnswer)
    (h : Steady listed stored.get? c)
    (htracked : ∀ r server, current.get? r = some server → listed.tracks r)
    (hroom : ∀ r server, current.get? r = some server → server.clients.length ≤ 2 ^ 64) :
    ∃ result c', c.perform others chat answer (carryOut (stored.changes current)).run =
        (result, c') ∧ (c'.since 2).getLast? = some listed ∧ c'.store.Sound ∧
      ((∃ report, result = .ok report) ∧ (∀ r, c'.store.shown? r =
          if (c'.since 2).all (·.tracks r) then current.get? r else none) ∨
        result = .error .panic ∧
          ∃ r server, current.get? r = some server ∧ ¬ server.Narrow) := by
  by_cases hnil : stored.changes current = []
  · rw [hnil, carryOut_nil]
    refine ⟨_, c, rfl, h.first, h.sound, .inl ⟨⟨_, rfl⟩, fun r => ?_⟩⟩
    rw [h.shown?, get?_eq_of_changes_eq_nil hnil]
  · have hawaited := h.awaited others
    obtain ⟨found, hfound, -⟩ :=
      hawaited.sound.listSubscriptions_run (Changes.refs (stored.changes current))
    have hlisted := hawaited.advance (.refl hawaited.sound)
    let mentioning := (stored.changes current).map (Change.withMentions found)
    have htold := hlisted.perform others chat answer (Procedure.only_announceAll untrack_fades
      mentioning (report (stored.changes current)))
    have hresult := announceAll_result (Course.surroundings others chat answer) mentioning
      (report (stored.changes current)) ((c.awaited others).advance (c.awaited others).store)
    generalize htelling : Course.perform others chat answer
      (mentioning.foldlM announce (report (stored.changes current))).run _ = telling at htold
    obtain ⟨result, told⟩ := telling
    rw [← Course.perform, htelling] at hresult
    rcases hresult with ⟨report, rfl⟩ | ⟨rfl, c', hc', hnone⟩
    · have hlast := htold.awaited others
      obtain ⟨s', hreplaced, hsound, hsame, hshown⟩ := hlast.sound.replacement_run stored hroom
      refine ⟨.ok report, (told.awaited others).advance s', run_carryOut_ok hnil
        (transact_ok others chat answer hfound) htelling (transact_ok others chat answer hreplaced),
        ?_, hsound, .inl ⟨⟨report, rfl⟩, shown?_advance hlast htracked hsame hshown⟩⟩
      rw [since_of_past (Nat.le_succ_of_le hlast.two_le) rfl, List.getLast?_cons, hlast.first]
      rfl
    · refine ⟨.error .panic, told, run_carryOut_error hnil (transact_ok others chat answer hfound)
        htelling, htold.first, htold.sound, .inr ⟨rfl, ?_⟩⟩
      dsimp only [mentioning] at hc'
      rw [changes_withMentions] at hc'
      obtain ⟨r, -, rfl⟩ := List.mem_map.1 hc'
      exact ⟨r, Change.content_eq_none_iff.1 hnone⟩

/-- A cycle among other tasks comes to its end and stores what it has to, unless it breaks because a
name or a clan in the list is longer than a column can be wide.  For a message that was tracked all
along since the trackings were listed this is the current server, if there is one.  Every other
message shows nothing.  No entry has more clients than there are 64-bit positions. -/
theorem once_interleaved {s : Store} (h : Reachable s) (entries : List ListEntry)
    (hfit : ∀ e ∈ entries, e.info.clients.length ≤ 2 ^ 64) (others : Nat → List Interference)
    (chat : Nat → (c : ChatCall) → Response c.Reply) :
    ∃ result c listed trackings after,
      Course.perform others chat (.ok entries) once.run { store := s } = (result, c) ∧
      (c.since 2).getLast? = some listed ∧
      listTrackings.run listed = .ok (trackings, listed) ∧
      load.run c.store = .ok (after, c.store) ∧
      ((∃ report, result = .ok report) ∧ (∀ r, after.get? r =
          if (c.since 2).all (·.tracks r) then (MasterList.snapshot entries trackings).get? r
          else none) ∨
        result = .error .panic ∧ ∃ e ∈ entries, ¬ e.Narrow) := by
  let start : Course := { store := s }
  have hstart : Early start := by
    refine ⟨h.sound, fun m hm => ?_⟩
    rw [List.mem_singleton.1 hm]
    exact Nat.zero_lt_two
  let polled := (start.awaited others).advance (start.awaited others).store
  have hpolled : Early polled := (hstart.awaited others).advance (awaited_steps others start)
  let listing := polled.awaited others
  have hlisting : listing.steps = 1 := by
    rw [awaited_steps]
    exact congrArg (· + 1) (awaited_steps others start)
  have hlisted := (hpolled.awaited others).steady hlisting
  let loading := (listing.advance listing.store).awaited others
  have hloading := hlisted.awaited others
  obtain ⟨stored, hload, hstored⟩ := hloading.sound.load_run
  have hloaded := (hloading.advance (.refl hloading.sound)).reload
  have hget : (loading.advance loading.store).store.shown? = stored.get? := by
    funext r
    exact (hstored r).symm
  rw [hget] at hloaded
  have htracked (r : MessageRef) (server : Server) (hr : (MasterList.snapshot entries
      (listing.store.trackings.rows.map trackingOfRow)).get? r = some server) :
      listing.store.tracks r := (of_get?_current hr).1
  have hroom (r : MessageRef) (server : Server) (hr : (MasterList.snapshot entries
      (listing.store.trackings.rows.map trackingOfRow)).get? r = some server) :
      server.clients.length ≤ 2 ^ 64 :=
    length_clients_of_get?_current (P := (· ≤ 2 ^ 64)) hfit hr
  obtain ⟨result, c, hrun, hfirst, hsound, hend⟩ :=
    carryOut_interleaved others chat (.ok entries) hloaded htracked hroom
  obtain ⟨after, hafter, hgetAfter⟩ := hsound.load_run
  refine ⟨result, c, listing.store, _, after, ?_, hfirst, listTrackings_run _, hafter, ?_⟩
  · have hpoll (next : PollAnswer → Procedure (Except CycleStop CycleReport)) :
        start.perform others chat (.ok entries) (.poll next) =
          polled.perform others chat (.ok entries) (next (.ok entries)) := rfl
    rw [once_run, hpoll, perform_transact_ok others chat _ (listTrackings_run _),
      perform_transact_ok others chat _ hload]
    exact hrun
  · rcases hend with ⟨hok, hshown⟩ | ⟨hpanic, r, server, hserver, hwide⟩
    · exact .inl ⟨hok, fun r => (hgetAfter r).trans (hshown r)⟩
    · obtain ⟨-, e, he, hclients⟩ := of_get?_current hserver
      exact .inr ⟨hpanic, e, he, fun hnarrow => hwide fun c hc =>
        hnarrow c (hclients.mem_iff.1 hc)⟩

/-- Of two messages about a server in the list one is untracked after the trackings were listed, and
no edit is answered.  Only the other one shows the server then. -/
theorem once_interleaved_untracked :
    let r : MessageRef := ⟨1, 2, 3⟩
    let kept : MessageRef := ⟨1, 2, 4⟩
    let s := Write.apply (Write.apply {} (.track ⟨r, "1.2.3.4:8303"⟩))
      (.track ⟨kept, "1.2.3.4:8303"⟩)
    let entries : List ListEntry := [⟨["tw-0.6+udp://1.2.3.4:8303"], none, {}⟩]
    let others : Nat → List Interference := fun n => if n = 2 then [.untrack r] else []
    ∃ report c after,
      Course.perform others (fun _ _ => .silence) (.ok entries) once.run { store := s } =
        (.ok report, c) ∧
      load.run c.store = .ok (after, c.store) ∧ after.get? r = none ∧ (after.get? kept).isSome := by
  intro r kept s entries others
  obtain ⟨_, c, listed, trackings, after, hrun, hfirst, hlist, hafter,
    ⟨⟨report, rfl⟩, hget⟩ | ⟨-, e, he, hwide⟩⟩ := once_interleaved
      (.write _ (.write _ .fresh) : Reachable s) entries (by decide) others fun _ _ => .silence
  case inr =>
    have hnarrow : ∀ e ∈ entries, e.Narrow := by decide
    exact absurd (hnarrow e he) hwide
  have hc : c = (Course.perform others (fun _ _ => .silence) (.ok entries) once.run
      { store := s }).2 := (congrArg Prod.snd hrun).symm
  refine ⟨report, c, after, hrun, hafter, ?_, ?_⟩
  · have hdropped : ¬ (c.since 2).all (·.tracks r) := by
      rw [hc]
      decide +kernel
    rw [hget, if_neg hdropped]
  · have hkept : (c.since 2).all (·.tracks kept) := by
      rw [hc]
      decide +kernel
    have hcurrent : (c.since 2).getLast?.all fun listed => ((MasterList.snapshot entries
        (listed.trackings.rows.map trackingOfRow)).get? kept).isSome := by
      rw [hc]
      decide +kernel
    rw [hfirst, Option.all_some] at hcurrent
    rw [listTrackings_run] at hlist
    cases hlist
    rw [hget, if_pos hkept]
    exact hcurrent

end Cycle

end StatusBoard
