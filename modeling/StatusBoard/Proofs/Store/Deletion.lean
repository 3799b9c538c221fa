import StatusBoard.Proofs.Store.Reachable

/-!
# Deletions in any order

The platform reports deleted messages and channels, in any order, again and again, and also such
that the board never knew.  What is left of the store depends on the set of reports only
(`Store.purged_by_deletions`): it is the store without the named channels and without every row
about a message that was named itself or whose channel was.
-/

namespace StatusBoard

open Store

namespace Table

variable {κ α : Type} [Ord κ]

theorem filter_filter (t : Table κ α) (keep keep' : κ → α → Bool) :
    (t.filter keep).filter keep' = t.filter fun k a => keep k a && keep' k a := by
  refine Table.ext ?_
  change (t.rows.filter _).filter _ = t.rows.filter _
  rw [List.filter_filter]
  exact List.filter_congr fun row _ => Bool.and_comm _ _

theorem filter_key_eq_self [Std.LawfulEqOrd κ] {t : Table κ α} {keep : κ → Bool}
    (h : ∀ k, t.contains k → keep k) : (t.filter fun k _ => keep k) = t :=
  Table.ext (List.filter_eq_self.2 fun row hrow => h row.1 (contains_iff.2 ⟨row.2, hrow⟩))

end Table

namespace Store

/-! ### What is taken out of a store -/

/-- A store without some channels and without every row about some messages. -/
def purge (s : Store) (channels : ChannelRef → Bool) (messages : MessageRef → Bool) : Store :=
  { s with
    channels := s.channels.filter fun k _ => !channels k.toRef
    trackings := s.trackings.filter fun k _ => !messages k.toRef
    announced := s.announced.filter fun k _ => !messages k.toRef
    clients := s.clients.filter fun k _ => !messages k.owner.toRef
    subscriptions := s.subscriptions.filter fun k _ => !messages k.owner.toRef }

variable {s : Store}

theorem purge_purge (s : Store) (channels channels' : ChannelRef → Bool)
    (messages messages' : MessageRef → Bool) :
    (s.purge channels messages).purge channels' messages' =
      s.purge (fun c => channels c || channels' c) fun r => messages r || messages' r := by
  simp only [purge, Table.filter_filter, Bool.not_or]

theorem tracks_purge (s : Store) (channels : ChannelRef → Bool) (messages : MessageRef → Bool)
    (r : MessageRef) : (s.purge channels messages).tracks r = (!messages r && s.tracks r) := by
  rw [tracks, Table.contains, purge, Table.find?_filter_key, MessageRef.toRef_key]
  cases messages r <;> rfl

/-- There are no rows about messages that are not tracked. -/
theorem Sound.purge_untracked (hs : s.Sound) (channels : ChannelRef → Bool)
    {messages : MessageRef → Bool} (h : ∀ r, messages r → ¬ s.tracks r) :
    s.purge channels messages =
      { s with channels := s.channels.filter fun k _ => !channels k.toRef } := by
  have htracking (k : MessageKey) (hk : s.trackings.contains k) : !messages k.toRef := by
    rw [Bool.not_eq_true', ← Bool.not_eq_true]
    exact fun hm => h k.toRef hm hk
  have hannounced (k : MessageKey) (hk : s.announced.contains k) : !messages k.toRef :=
    htracking k (hs.tracking_of_announced k hk)
  have hclient (k : PartKey) (hk : s.clients.contains k) : !messages k.owner.toRef :=
    hannounced k.owner (hs.announced_of_client k hk)
  have hsubscription (k : PartKey) (hk : s.subscriptions.contains k) : !messages k.owner.toRef :=
    htracking k.owner (hs.tracking_of_subscription k hk)
  have hclients : (s.clients.filter fun k _ => !messages k.owner.toRef) = s.clients :=
    Table.filter_key_eq_self hclient
  have hsubscriptions : (s.subscriptions.filter fun k _ => !messages k.owner.toRef) =
      s.subscriptions := Table.filter_key_eq_self hsubscription
  rw [purge, Table.filter_key_eq_self htracking, Table.filter_key_eq_self hannounced, hclients,
    hsubscriptions]

/-- Taking out what is not there changes nothing. -/
theorem Sound.purge_eq_self (hs : s.Sound) {channels : ChannelRef → Bool}
    {messages : MessageRef → Bool} (hchannels : ∀ c, channels c → ¬ s.channels.contains c.key)
    (hmessages : ∀ r, messages r → ¬ s.tracks r) : s.purge channels messages = s := by
  have hchannel (k : ChannelKey) (hk : s.channels.contains k) : !channels k.toRef := by
    rw [Bool.not_eq_true', ← Bool.not_eq_true]
    exact fun hc => hchannels k.toRef hc hk
  rw [hs.purge_untracked channels hmessages, Table.filter_key_eq_self hchannel]

/-- Stores with the same look-ups are equal. -/
theorem ext_find? {s s' : Store} (hchannels : ∀ k, s.channels.find? k = s'.channels.find? k)
    (htrackings : ∀ k, s.trackings.find? k = s'.trackings.find? k)
    (hannounced : ∀ k, s.announced.find? k = s'.announced.find? k)
    (hclients : ∀ k, s.clients.find? k = s'.clients.find? k)
    (hsubscriptions : ∀ k, s.subscriptions.find? k = s'.subscriptions.find? k)
    (harrivals : s.arrivals = s'.arrivals) : s = s' := by
  cases s
  cases s'
  rw [Store.mk.injEq]
  exact ⟨Table.ext_find? hchannels, Table.ext_find? htrackings, Table.ext_find? hannounced,
    Table.ext_find? hclients, Table.ext_find? hsubscriptions, harrivals⟩

/-- Trackings that are dropped take every row about their messages with them, and nothing else. -/
theorem Sound.dropTrackings_eq (hs : s.Sound) (messages : MessageRef → Bool) :
    s.dropTrackings (fun k => messages k.toRef) = s.purge (fun _ => false) messages := by
  have hchannels : (s.channels.filter fun _ _ => true) = s.channels :=
    Table.filter_key_eq_self fun _ _ => rfl
  refine ext_find? (fun k => ?_) (fun k => ?_) (fun k => ?_) (fun k => ?_) (fun k => ?_) rfl
  · exact congrArg (·.find? k) hchannels.symm
  · rw [trackings_dropTrackings, purge, Table.find?_filter_key]
    cases messages k.toRef <;> rfl
  · rw [announced_dropTrackings s _ hs, purge, Table.find?_filter_key]
    cases messages k.toRef <;> rfl
  · rw [clients_dropTrackings s _ hs, purge, Table.find?_filter_key]
    cases messages k.owner.toRef <;> rfl
  · rw [subscriptions_dropTrackings s _ hs, purge, Table.find?_filter_key]
    cases messages k.owner.toRef <;> rfl

theorem erase_channels (s : Store) (c : ChannelRef) :
    s.channels.erase c.key = s.channels.filter fun k _ => !decide (k.toRef = c) := by
  refine Table.ext_find? fun k => ?_
  rw [Table.find?_erase, Table.find?_filter_key]
  by_cases h : k.toRef = c <;> simp [ChannelKey.eq_key_iff, h]

end Store

/-! ### Reports -/

/-- A report of the platform that something was deleted. -/
inductive Deletion
  | message (r : MessageRef)
  | channel (c : ChannelRef)
deriving DecidableEq

namespace Deletion

/-- What the board does then. -/
def procedure : Deletion → Procedure (Except StoreError Unit)
  | message r => Tracking.messageDeleted r
  | channel c => Tracking.channelDeleted c

/-- Whether one of these reports names a channel. -/
def names (ds : List Deletion) (c : ChannelRef) : Bool := .channel c ∈ ds

/-- Whether one of these reports names a message or its channel. -/
def covers (ds : List Deletion) (r : MessageRef) : Bool :=
  .message r ∈ ds || .channel r.inChannel ∈ ds

end Deletion

namespace Store

/-- The store without the rows that some deletions take along. -/
def without (s : Store) (ds : List Deletion) : Store :=
  s.purge (Deletion.names ds) (Deletion.covers ds)

variable {s : Store} {c : ChannelRef} {r : MessageRef}

/-- Only the set of reports matters. -/
theorem without_congr {ds ds' : List Deletion} (h : ∀ d, d ∈ ds ↔ d ∈ ds') :
    s.without ds = s.without ds' := by
  have hnames : Deletion.names ds = Deletion.names ds' := funext fun c => by
    simp only [Deletion.names, h]
  have hcovers : Deletion.covers ds = Deletion.covers ds' := funext fun r => by
    simp only [Deletion.covers, h]
  rw [without, hnames, hcovers, without]

theorem without_append (s : Store) (ds ds' : List Deletion) :
    s.without (ds ++ ds') = (s.without ds).without ds' := by
  have hnames : Deletion.names (ds ++ ds') =
      fun c => Deletion.names ds c || Deletion.names ds' c := funext fun c => by
    simp [Deletion.names]
  have hcovers : Deletion.covers (ds ++ ds') =
      fun r => Deletion.covers ds r || Deletion.covers ds' r := funext fun r => by
    simp only [Deletion.covers, List.mem_append, Bool.decide_or]
    ac_rfl
  rw [without, without, without, purge_purge, hnames, hcovers]

theorem without_message (s : Store) (r : MessageRef) :
    s.without [.message r] = s.purge (fun _ => false) fun r' => r' = r := by
  have hnames : Deletion.names [.message r] = fun _ => false := funext fun c => by
    simp [Deletion.names]
  have hcovers : Deletion.covers [.message r] = fun r' => decide (r' = r) := funext fun r' => by
    simp [Deletion.covers]
  rw [without, hnames, hcovers]

theorem without_channel (s : Store) (c : ChannelRef) :
    s.without [.channel c] = s.purge (fun c' => c' = c) fun r => r.inChannel = c := by
  have hnames : Deletion.names [.channel c] = fun c' => decide (c' = c) := funext fun c' => by
    simp [Deletion.names]
  have hcovers : Deletion.covers [.channel c] = fun r => decide (r.inChannel = c) :=
    funext fun r => by simp [Deletion.covers]
  rw [without, hnames, hcovers]

namespace Sound

/-- A message that is not tracked any more takes every row about it along. -/
theorem attempt_untrack (hs : s.Sound) (r : MessageRef) : (untrack r).attempt s =
    if s.tracks r then (.ok (), s.without [.message r])
    else (.error (.trackingNotFound r), s) := by
  have hdrop : s.dropTrackings (· = r.key) = s.without [.message r] := by
    rw [without_message, ← hs.dropTrackings_eq]
    simp only [MessageKey.eq_key_iff]
  split
  · next h => exact Transaction.attempt_of_ok (hdrop ▸ (Store.untrack_run s r).trans (if_pos h))
  · next h => exact Transaction.attempt_of_error ((Store.untrack_run s r).trans (if_neg h))

/-- A channel takes every row about its messages along. -/
theorem attempt_removeChannel (hs : s.Sound) (c : ChannelRef) : (removeChannel c).attempt s =
    if s.channels.contains c.key then (.ok (), s.without [.channel c])
    else (.error (.channelNotFound c), s) := by
  have hdrop : s.dropTrackings (fun k => k.inChannel = c.key) =
      s.purge (fun _ => false) fun r => r.inChannel = c := by
    rw [← hs.dropTrackings_eq]
    simp only [ChannelKey.eq_key_iff]
    rfl
  split
  · next h =>
    refine Transaction.attempt_of_ok ((removeChannel_run s c).trans ?_)
    rw [if_pos h, hdrop, erase_channels, without_channel]
    rfl
  · next h => exact Transaction.attempt_of_error ((removeChannel_run s c).trans (if_neg h))

theorem without_nil (hs : s.Sound) : s.without [] = s :=
  hs.purge_eq_self (fun _ hc => nomatch hc) fun _ hr => nomatch hr

/-- Nothing is left of a message that is not tracked. -/
theorem without_untracked (hs : s.Sound) (h : ¬ s.tracks r) : s.without [.message r] = s := by
  rw [without_message]
  refine hs.purge_eq_self (fun _ hc => nomatch hc) fun r' hr' => ?_
  rwa [of_decide_eq_true hr']

/-- No message of an unknown channel is tracked. -/
theorem without_unknown (hs : s.Sound) (h : ¬ s.channels.contains c.key) :
    s.without [.channel c] = s := by
  rw [without_channel]
  refine hs.purge_eq_self (fun c' hc' => ?_) fun r hr htracks => h ?_
  · rwa [of_decide_eq_true hc']
  · rw [← of_decide_eq_true hr]
    exact hs.channel_of_tracking r.key htracks

theorem store_untrack (hs : s.Sound) (r : MessageRef) :
    ((untrack r).attempt s).2 = s.without [.message r] := by
  rw [hs.attempt_untrack]
  split
  · rfl
  · next h => exact (hs.without_untracked h).symm

theorem store_removeChannel (hs : s.Sound) (c : ChannelRef) :
    ((removeChannel c).attempt s).2 = s.without [.channel c] := by
  rw [hs.attempt_removeChannel]
  split
  · rfl
  · next h => exact (hs.without_unknown h).symm

/-! ### Sequences of deletions -/

/-- A report is handled without an error and without a call, and what it names is gone then. -/
theorem perform_deletion (hs : s.Sound) (chat : Platform) (log : List Exchange)
    (polls : Nat → PollAnswer) (d : Deletion) :
    Session.perform chat d.procedure ⟨s, log, polls⟩ = (.ok (), ⟨s.without [d], log, polls⟩) ∧
      (s.without [d]).Sound := by
  cases d with
  | message r =>
    rw [← hs.store_untrack]
    refine ⟨Prod.ext ?_ rfl, (untrack_keeps r).attempt hs⟩
    change Tracking.ignoreMissing ((untrack r).attempt s).1 = .ok ()
    rw [hs.attempt_untrack]
    split <;> rfl
  | channel c =>
    rw [← hs.store_removeChannel]
    refine ⟨Prod.ext ?_ rfl, (removeChannel_keeps c).attempt hs⟩
    change Tracking.ignoreMissing ((removeChannel c).attempt s).1 = .ok ()
    rw [hs.attempt_removeChannel]
    split <;> rfl

theorem perform_deletions (hs : s.Sound) (chat : Platform) (log : List Exchange)
    (polls : Nat → PollAnswer) (ds : List Deletion) :
    Session.perform chat (ds.mapM Deletion.procedure) ⟨s, log, polls⟩ =
      (ds.map fun _ => .ok (), ⟨s.without ds, log, polls⟩) := by
  induction ds generalizing s with
  | nil =>
    rw [hs.without_nil]
    rfl
  | cons d ds ih =>
    obtain ⟨hperform, hsound⟩ := hs.perform_deletion chat log polls d
    have hcons : s.without (d :: ds) = (s.without [d]).without ds := s.without_append [d] ds
    rw [List.mapM_cons, Session.perform_bind, hperform, Session.perform_bind, ih hsound, hcons]
    rfl

/-- Trackings that are removed one after the other. -/
theorem foldl_untrack (hs : s.Sound) (refs : List MessageRef) :
    refs.foldl (fun s r => ((untrack r).attempt s).2) s = s.without (refs.map .message) ∧
      (s.without (refs.map .message)).Sound := by
  induction refs generalizing s with
  | nil =>
    rw [List.map_nil, hs.without_nil]
    exact ⟨rfl, hs⟩
  | cons r refs ih =>
    have hcons : s.without (.message r :: refs.map .message) =
        (s.without [.message r]).without (refs.map .message) := s.without_append [.message r] _
    have hsound : (s.without [.message r]).Sound :=
      hs.store_untrack r ▸ (untrack_keeps r).attempt hs
    rw [List.foldl_cons, hs.store_untrack, List.map_cons, hcons]
    exact ih hsound

/-- A channel takes its trackings along, so these may be removed before it.  Then the row of the
channel is all that is left to remove. -/
theorem without_trackings_channel {emptied : Store} (hsound : emptied.Sound)
    {refs : List MessageRef} (hrefs : ∀ r, r ∈ refs ↔ s.tracks r ∧ r.inChannel = c)
    (hemptied : emptied = s.without (refs.map .message)) :
    emptied.without [.channel c] = s.without [.channel c] ∧
      emptied.without [.channel c] = { emptied with channels := emptied.channels.erase c.key } := by
  have hmessage (r : MessageRef) : .message r ∈ refs.map Deletion.message ↔ r ∈ refs := by simp
  have hchannel (c : ChannelRef) : .channel c ∉ refs.map Deletion.message := by simp
  constructor
  · have hnames : Deletion.names (refs.map .message ++ [.channel c]) =
        Deletion.names [.channel c] :=
      funext fun c' => by simp [Deletion.names, hchannel]
    have hcovers :
        Deletion.covers (refs.map .message ++ [.channel c]) = Deletion.covers [.channel c] :=
      funext fun r => by
        have himp : r ∈ refs → r.inChannel = c := fun hr => ((hrefs r).1 hr).2
        simpa [Deletion.covers, hchannel] using himp
    rw [hemptied, ← without_append, without, hnames, hcovers, without]
  · have huntracked (r : MessageRef) (hr : decide (r.inChannel = c)) : ¬ emptied.tracks r := by
      rw [hemptied, without, tracks_purge]
      intro h
      obtain ⟨hcovered, htracks⟩ := Bool.and_eq_true_iff.1 h
      have hmem := (hrefs r).2 ⟨htracks, of_decide_eq_true hr⟩
      simp [Deletion.covers, hmem] at hcovered
    rw [without_channel, hsound.purge_untracked _ huntracked, ← erase_channels]

end Sound

/-- Messages and channels that the platform reports as deleted, in any order and however often, are
handled without an error and without a call.  What is left is the store without the channels that
were named and every row about a message that was named or whose channel was, whichever order the
reports come in.  So a channel is removed as if its trackings were removed one after the other, in
any order, and then its row.  Removing a tracking or a channel fails exactly if there is none, and
then nothing is changed. -/
theorem purged_by_deletions (h : Reachable s) :
    (∀ chat log polls (ds reports : List Deletion), (∀ d, d ∈ reports ↔ d ∈ ds) →
      Session.perform chat (reports.mapM Deletion.procedure) ⟨s, log, polls⟩ =
        (reports.map fun _ => .ok (), ⟨s.without ds, log, polls⟩)) ∧
    (∀ (c : ChannelRef) (refs : List MessageRef), (∀ r, r ∈ refs ↔ s.tracks r ∧ r.inChannel = c) →
      let emptied := refs.foldl (fun s r => ((untrack r).attempt s).2) s
      ((removeChannel c).attempt s).2 = ((removeChannel c).attempt emptied).2 ∧
      ((removeChannel c).attempt s).2 =
        { emptied with channels := emptied.channels.erase c.key }) ∧
    (∀ r, (untrack r).attempt s = if s.tracks r then (.ok (), s.without [.message r])
      else (.error (.trackingNotFound r), s)) ∧
    ∀ c, (removeChannel c).attempt s =
      if s.channels.contains c.key then (.ok (), s.without [.channel c])
      else (.error (.channelNotFound c), s) := by
  have hs := h.sound
  refine ⟨fun chat log polls ds reports hsame => ?_, fun c refs hrefs => ?_, hs.attempt_untrack,
    hs.attempt_removeChannel⟩
  · rw [hs.perform_deletions, without_congr hsame]
  · intro emptied
    obtain ⟨hemptied, hsound⟩ := hs.foldl_untrack refs
    rw [← hemptied] at hsound
    obtain ⟨hboth, hrow⟩ := hsound.without_trackings_channel hrefs hemptied
    rw [hs.store_removeChannel, hsound.store_removeChannel]
    exact ⟨hboth.symm, hboth.symm.trans hrow⟩

/-- A message is reported, then its channel, then the message again, and a channel that nobody
knows.  A subscription in another channel stays. -/
theorem purged_by_deletions_repeated :
    let gone : MessageRef := ⟨1, 2, 3⟩
    let kept : MessageRef := ⟨1, 5, 0x8000000000000006⟩
    let ten : Threshold := ⟨10, by decide, by decide⟩
    let tracking := (Write.track ⟨gone, "1.2.3.4:8303"⟩).apply
      ((Write.track ⟨kept, "1.2.3.4:8303"⟩).apply {})
    let s := (Write.setThreshold gone 7 ten).apply ((Write.setThreshold kept 7 ten).apply tracking)
    let reports : List Deletion :=
      [.message gone, .channel gone.inChannel, .message gone, .channel ⟨8, 9⟩]
    ∃ s', (∀ chat log polls,
        Session.perform chat (reports.mapM Deletion.procedure) ⟨s, log, polls⟩ =
          ([.ok (), .ok (), .ok (), .ok ()], ⟨s', log, polls⟩)) ∧
      s'.rowCounts = [1, 1, 0, 0, 1] ∧ s'.tracks kept := by
  intro gone kept ten tracking s reports
  have hreachable : Reachable s :=
    .write _ (.write _ (.write _ (.write _ .fresh)))
  obtain ⟨hrun, -⟩ := purged_by_deletions hreachable
  refine ⟨s.without [.channel ⟨8, 9⟩, .channel gone.inChannel, .message gone], fun chat log polls =>
    hrun chat log polls _ reports ?_, by decide +kernel, by decide +kernel⟩
  intro d
  simp only [reports, List.mem_cons, List.not_mem_nil, or_false]
  tauto

end Store

end StatusBoard
