import StatusBoard.Proofs.Store.Announced

/-!
# Exchanging announced servers

`replace` forgets the servers of some messages and then stores servers one after the other, client
by client.  Each of these steps is described by what the messages show afterwards, and together they
make `replace` one write to the map from messages to servers (`Store.Sound.replace_run`).
-/

namespace StatusBoard.Store

variable {s s' : Store} {r : MessageRef}

/-- Nothing differs but what is announced. -/
structure SameTrackings (s s' : Store) : Prop where
  channels : s'.channels = s.channels
  trackings : s'.trackings = s.trackings
  subscriptions : s'.subscriptions = s.subscriptions

theorem SameTrackings.refl (s : Store) : SameTrackings s s := ⟨rfl, rfl, rfl⟩

theorem SameTrackings.trans {s'' : Store} (h : SameTrackings s s') (h' : SameTrackings s' s'') :
    SameTrackings s s'' :=
  ⟨h'.channels.trans h.channels, h'.trackings.trans h.trackings,
    h'.subscriptions.trans h.subscriptions⟩

theorem SameTrackings.tracks (h : SameTrackings s s') (r : MessageRef) :
    s'.tracks r = s.tracks r := by
  rw [Store.tracks, Store.tracks, h.trackings]

/-- A write to what is announced has to care for the announced rows and the clients only. -/
theorem Sound.of_sameTrackings (hs : s.Sound) (h : SameTrackings s s')
    (htracked : ∀ k, s'.announced.contains k → s.trackings.contains k)
    (hannounced : ∀ k, s'.clients.contains k → s'.announced.contains k.owner)
    (hserver : ∀ r a, s'.announced.find? r.key = some a → ∃ server, server.IsCanonical ∧
      a = .ofServer server a.arrival ∧ s'.HoldsClients r server.clients) : s'.Sound where
  channel_of_tracking k hk := by
    rw [h.channels]
    exact hs.channel_of_tracking k (h.trackings ▸ hk)
  tracking_of_announced k hk := by
    rw [h.trackings]
    exact htracked k hk
  tracking_of_subscription k hk := by
    rw [h.trackings]
    exact hs.tracking_of_subscription k (h.subscriptions ▸ hk)
  announced_of_client := hannounced
  server_of_announced := hserver
  threshold_of_subscription k n hn :=
    hs.threshold_of_subscription k n (h.subscriptions ▸ hn)

/-! ### Forgetting -/

theorem announced_forget (s : Store) (r : MessageRef) (k : MessageKey) :
    (s.forget r).announced.find? k = if k = r.key then none else s.announced.find? k :=
  Table.find?_erase _ _ _

theorem clients_forget (s : Store) (r : MessageRef) (k : PartKey) :
    (s.forget r).clients.find? k = if k.owner = r.key then none else s.clients.find? k := by
  rw [forget, Table.find?_filter_key]
  by_cases h : k.owner = r.key <;> simp [h]

theorem sameTrackings_forget (s : Store) (r : MessageRef) : SameTrackings s (s.forget r) :=
  ⟨rfl, rfl, rfl⟩

/-- Forgetting the server of a message takes its clients along. -/
theorem Sound.forget (hs : s.Sound) (r : MessageRef) : (s.forget r).Sound := by
  refine hs.of_sameTrackings (sameTrackings_forget s r) ?_ ?_ ?_
  · intro k hk
    rw [Table.contains, announced_forget] at hk
    split at hk
    · cases hk
    · exact hs.tracking_of_announced k hk
  · intro k hk
    rw [Table.contains, clients_forget] at hk
    rw [Table.contains, announced_forget]
    split at hk
    · cases hk
    · next hne =>
      rw [if_neg hne]
      exact hs.announced_of_client k hk
  · intro r' a ha
    rw [announced_forget] at ha
    split at ha
    · cases ha
    · next hne =>
      obtain ⟨server, hcanonical, hrow, hclients⟩ := hs.server_of_announced r' a ha
      refine ⟨server, hcanonical, hrow, hclients.congr fun p => ?_⟩
      rw [clients_forget, MessageRef.partKey, if_neg hne]

/-- A forgotten message shows nothing, and every other message what it showed. -/
theorem shown?_forget (s : Store) (r r' : MessageRef) :
    (s.forget r).shown? r' = if r' = r then none else s.shown? r' := by
  split
  · next h => simp [shown?, announced_forget, h]
  · next h =>
    have hne : r'.key ≠ r.key := fun heq => h (MessageRef.key_inj.1 heq)
    apply shown?_congr
    · rw [announced_forget, if_neg hne]
    · intro p
      rw [clients_forget, MessageRef.partKey, if_neg hne]

/-- Forgetting some messages one after the other. -/
theorem forgetAll (hs : s.Sound) (refs : List MessageRef) :
    (refs.foldl (fun s r => s.forget r) s).Sound ∧
      SameTrackings s (refs.foldl (fun s r => s.forget r) s) ∧
      ∀ r, (refs.foldl (fun s r => s.forget r) s).shown? r =
        if r ∈ refs then none else s.shown? r := by
  induction refs generalizing s with
  | nil => exact ⟨hs, .refl s, fun r => by simp⟩
  | cons r₀ refs ih =>
    obtain ⟨hsound, hsame, hshown⟩ := ih (hs.forget r₀)
    refine ⟨hsound, (sameTrackings_forget s r₀).trans hsame, fun r => ?_⟩
    rw [List.foldl_cons, hshown, shown?_forget]
    by_cases hr : r = r₀ <;> by_cases hmem : r ∈ refs <;> simp [hr, hmem]

/-! ### Storing clients -/

/-- Clients with the positions that follow some others. -/
def numberedFrom (n : Nat) (clients : List Client) : List (Int64 × Client) :=
  (clients.zipIdx n).map fun (c, i) => (Int64.ofNat i, c)

/-- Store clients of a message at their positions. -/
def storeClients (r : MessageRef) (numbered : List (Int64 × Client)) : Transaction Unit :=
  numbered.forM fun (position, c) => storeClient r position c

/-- A next client is stored as long as there is a position left. -/
theorem storeClient_next {before : List Client} (h : s.HoldsClients r before)
    (hlt : before.length < 2 ^ 64) (c : Client) :
    ∃ clients, (storeClient r (Int64.ofNat before.length) c).run s =
        .ok ((), { s with clients := clients }) ∧
      HoldsClients { s with clients := clients } r (before ++ [c]) ∧
      ∀ k, k.owner ≠ r.key → clients.find? k = s.clients.find? k := by
  refine ⟨s.clients.insert (r.partKey (Int64.ofNat before.length)) c, ?_, ⟨?_, ?_⟩, ?_⟩
  · have hfree : s.clients.contains (r.partKey (Int64.ofNat before.length)) = false := by
      rw [Table.contains, h.find?, placeOf_ofNat hlt]
      simp
    rw [storeClient_run, hfree]
    rfl
  · rw [List.length_append, List.length_singleton]
    omega
  · intro p
    have hkey :
        r.partKey p = r.partKey (Int64.ofNat before.length) ↔ placeOf p = before.length := by
      rw [MessageRef.partKey, MessageRef.partKey, PartKey.mk.injEq]
      constructor
      · rintro ⟨-, rfl⟩
        exact placeOf_ofNat hlt
      · intro hplace
        rw [← hplace, ofNat_placeOf]
        exact ⟨rfl, rfl⟩
    rw [Table.find?_insert]
    by_cases hplace : placeOf p = before.length
    · rw [if_pos (hkey.2 hplace), hplace]
      simp
    · rw [if_neg (fun heq => hplace (hkey.1 heq)), h.find?, List.getElem?_append]
      split
      · rfl
      · rw [List.getElem?_eq_none (by omega), List.getElem?_eq_none (by simp; omega)]
  · intro k hk
    rw [Table.find?_insert, if_neg]
    rintro rfl
    exact hk rfl

/-- When every position is taken, no client is stored. -/
theorem storeClient_full {before : List Client} (h : s.HoldsClients r before)
    (hfull : before.length = 2 ^ 64) (c : Client) :
    (storeClient r (Int64.ofNat before.length) c).run s = .error (.duplicateKey .clients) := by
  have htaken : s.clients.contains (r.partKey (Int64.ofNat before.length)) := by
    rw [Table.contains, h.find?, List.getElem?_eq_getElem (hfull ▸ placeOf_lt _)]
    rfl
  rw [storeClient_run, if_pos htaken]

/-- Clients are stored one after the other until the positions run out. -/
theorem storeClients_run {before : List Client} (h : s.HoldsClients r before)
    (rest : List Client) :
    if before.length + rest.length ≤ 2 ^ 64 then
      ∃ clients, (storeClients r (numberedFrom before.length rest)).run s =
          .ok ((), { s with clients := clients }) ∧
        HoldsClients { s with clients := clients } r (before ++ rest) ∧
        ∀ k, k.owner ≠ r.key → clients.find? k = s.clients.find? k
    else (storeClients r (numberedFrom before.length rest)).run s =
      .error (.duplicateKey .clients) := by
  induction rest generalizing s before with
  | nil =>
    rw [if_pos (by simpa using h.length_le)]
    exact ⟨s.clients, rfl, by simpa using h, fun _ _ => rfl⟩
  | cons c rest ih =>
    have hstep : (storeClients r (numberedFrom before.length (c :: rest))).run s =
        (storeClient r (Int64.ofNat before.length) c).run s >>= fun next =>
          (storeClients r (numberedFrom (before.length + 1) rest)).run next.2 := rfl
    rw [hstep]
    by_cases hlt : before.length < 2 ^ 64
    · obtain ⟨clients, hrun, hholds, hframe⟩ := storeClient_next h hlt c
      have hrest := ih hholds
      rw [List.length_append, List.length_singleton] at hrest
      rw [hrun, List.length_cons, Nat.add_comm rest.length, ← Nat.add_assoc]
      split
      · next hfit =>
        rw [if_pos hfit] at hrest
        obtain ⟨clients', hrun', hholds', hframe'⟩ := hrest
        refine ⟨clients', hrun', by simpa using hholds', fun k hk => ?_⟩
        exact (hframe' k hk).trans (hframe k hk)
      · next hlong =>
        rw [if_neg hlong] at hrest
        exact hrest
    · have hfull : before.length = 2 ^ 64 := Nat.le_antisymm h.length_le (Nat.le_of_not_lt hlt)
      rw [storeClient_full h hfull, if_neg (by rw [List.length_cons]; omega)]
      rfl

/-! ### Storing servers -/

/-- What storing a server of a tracked message has done. -/
structure Stored (s : Store) (r : MessageRef) (server : Server) (s' : Store) : Prop where
  sound : s'.Sound
  same : SameTrackings s s'
  shown? : ∀ r', s'.shown? r' = if r' = r then some server else s.shown? r'

theorem storeServer_untracked (server : Server) (h : ¬ s.tracks r) :
    (storeServer r server).run s = .ok ((), s) := by
  rw [tracks] at h
  rw [storeServer_run, if_neg h]

theorem storeServer_taken (server : Server) (hs : s.Sound) (h : (s.shown? r).isSome) :
    (storeServer r server).run s = .error (.duplicateKey .announced) := by
  have hannounced : s.announced.contains r.key := (hs.isSome_shown? r).symm.trans h
  rw [storeServer_run, if_pos (hs.tracking_of_announced _ hannounced), if_pos hannounced]

/-- The row and the clients of a server make the message show it. -/
theorem stored_of_holds (hs : s.Sound) {server : Server} (hcanonical : server.IsCanonical)
    (htracks : s.tracks r) (hsame : SameTrackings s s')
    (hannounced : ∀ k, s'.announced.find? k =
      if k = r.key then some (.ofServer server s.arrivals) else s.announced.find? k)
    (hclients : s'.HoldsClients r server.clients)
    (hframe : ∀ k, k.owner ≠ r.key → s'.clients.find? k = s.clients.find? k) :
    Stored s r server s' := by
  have hother {r' : MessageRef} (hne : r'.key ≠ r.key) (p : Int64) :
      s'.clients.find? (r'.partKey p) = s.clients.find? (r'.partKey p) := hframe _ hne
  refine ⟨hs.of_sameTrackings hsame ?_ ?_ ?_, hsame, ?_⟩
  · intro k hk
    rw [Table.contains, hannounced] at hk
    split at hk
    · next heq => exact heq ▸ htracks
    · exact hs.tracking_of_announced k hk
  · intro k hk
    rw [Table.contains, hannounced]
    split
    · rfl
    · next hne =>
      rw [Table.contains, hframe k hne] at hk
      exact hs.announced_of_client k hk
  · intro r' a ha
    rw [hannounced] at ha
    split at ha
    · next heq =>
      cases ha
      rw [MessageRef.key_inj] at heq
      exact ⟨server, hcanonical, rfl, heq ▸ hclients⟩
    · next hne =>
      obtain ⟨server', hcanonical', hrow, hclients'⟩ := hs.server_of_announced r' a ha
      exact ⟨server', hcanonical', hrow, hclients'.congr (hother hne)⟩
  · intro r'
    split
    · next heq =>
      subst heq
      exact shown?_of_holds hcanonical (by rw [hannounced, if_pos rfl]) hclients
    · next hne =>
      have hne : r'.key ≠ r.key := fun heq => hne (MessageRef.key_inj.1 heq)
      exact shown?_congr (by rw [hannounced, if_neg hne]) (hother hne)

/-- A server is stored for a tracked message that shows none, if it has no more clients than there
are positions. -/
theorem storeServer_free (hs : s.Sound) {server : Server} (hcanonical : server.IsCanonical)
    (htracks : s.tracks r) (hfree : s.shown? r = none) :
    if server.clients.length ≤ 2 ^ 64 then
      ∃ s', (storeServer r server).run s = .ok ((), s') ∧ Stored s r server s'
    else (storeServer r server).run s = .error (.duplicateKey .clients) := by
  have habsent : ¬ s.announced.contains r.key := by
    rw [← hs.isSome_shown? r, hfree]
    exact Bool.false_ne_true
  let s₁ : Store := { s with
    announced := s.announced.insert r.key (.ofServer server s.arrivals)
    arrivals := s.arrivals + 1 }
  have hnone : s₁.HoldsClients r [] := by
    refine ⟨Nat.zero_le _, fun p => ?_⟩
    cases hc : s₁.clients.find? (r.partKey p) with
    | none => rfl
    | some c =>
      have hclient : s.clients.contains (r.partKey p) := by
        rw [Table.contains, show s.clients.find? (r.partKey p) = some c from hc]
        rfl
      exact absurd (hs.announced_of_client (r.partKey p) hclient) habsent
  have hrun :
      (storeServer r server).run s = (storeClients r (numberedFrom 0 server.clients)).run s₁ := by
    rw [tracks] at htracks
    rw [storeServer_run, if_pos htracks, if_neg habsent]
    rfl
  have hclients := storeClients_run hnone server.clients
  rw [List.length_nil, Nat.zero_add, ← hrun] at hclients
  split
  · next hfit =>
    rw [if_pos hfit] at hclients
    obtain ⟨clients, hok, hholds, hframe⟩ := hclients
    refine ⟨_, hok, stored_of_holds hs hcanonical htracks ⟨rfl, rfl, rfl⟩ (fun k => ?_)
      hholds hframe⟩
    exact Table.find?_insert _ _ _ _
  · next hlong =>
    rw [if_neg hlong] at hclients
    exact hclients

/-- All that can come of storing a server. -/
theorem storeServer_cases (hs : s.Sound) (r : MessageRef) {server : Server}
    (hcanonical : server.IsCanonical) :
    (¬ s.tracks r ∧ (storeServer r server).run s = .ok ((), s)) ∨
    ((s.shown? r).isSome ∧ (storeServer r server).run s = .error (.duplicateKey .announced)) ∨
    (2 ^ 64 < server.clients.length ∧
      (storeServer r server).run s = .error (.duplicateKey .clients)) ∨
    (s.tracks r ∧ s.shown? r = none ∧
      ∃ s', (storeServer r server).run s = .ok ((), s') ∧ Stored s r server s') := by
  by_cases htracks : s.tracks r
  · cases hshown : s.shown? r with
    | some old => exact .inr (.inl ⟨rfl, storeServer_taken server hs (by rw [hshown]; rfl)⟩)
    | none =>
      have hfree := storeServer_free hs hcanonical htracks hshown
      split at hfree
      · exact .inr (.inr (.inr ⟨htracks, rfl, hfree⟩))
      · next hlong => exact .inr (.inr (.inl ⟨Nat.lt_of_not_le hlong, hfree⟩))
  · exact .inl ⟨htracks, storeServer_untracked server htracks⟩

/-- Store the servers of some messages one after the other. -/
def storeServers (l : List (MessageRef × Server)) : Transaction Unit :=
  l.forM fun (r, server) => storeServer r server

theorem storeServers_cons (s : Store) (r : MessageRef) (server : Server)
    (l : List (MessageRef × Server)) :
    (storeServers ((r, server) :: l)).run s =
      (storeServer r server).run s >>= fun next => (storeServers l).run next.2 := rfl

/-- Storing servers leaves a sound store sound and touches what is announced only. -/
theorem storeServers_leaves {l : List (MessageRef × Server)} (hl : ∀ e ∈ l, e.2.IsCanonical)
    (hs : s.Sound) (h : (storeServers l).run s = .ok ((), s')) :
    s'.Sound ∧ SameTrackings s s' := by
  induction l generalizing s with
  | nil =>
    cases h
    exact ⟨hs, .refl _⟩
  | cons e l ih =>
    obtain ⟨r, server⟩ := e
    rw [List.forall_mem_cons] at hl
    rw [storeServers_cons] at h
    rcases storeServer_cases hs r hl.1 with ⟨-, hrun⟩ | ⟨-, hrun⟩ | ⟨-, hrun⟩ |
      ⟨-, -, s₁, hrun, hstored⟩
    · rw [hrun] at h
      exact ih hl.2 hs h
    · rw [hrun] at h
      cases h
    · rw [hrun] at h
      cases h
    · rw [hrun] at h
      obtain ⟨hsound, hsame⟩ := ih hl.2 hstored.sound h
      exact ⟨hsound, hstored.same.trans hsame⟩

/-- Servers of different messages are stored unless a message shows one already.  Each tracked
message shows its server then. -/
theorem storeServers_run (hs : s.Sound) {l : List (MessageRef × Server)}
    (hrefs : (l.map Prod.fst).Nodup) (hl : ∀ e ∈ l, e.2.IsCanonical)
    (hfit : ∀ e ∈ l, e.2.clients.length ≤ 2 ^ 64) :
    ((∃ r ∈ l.map Prod.fst, (s.shown? r).isSome) ∧
      (storeServers l).run s = .error (.duplicateKey .announced)) ∨
    ((∀ r ∈ l.map Prod.fst, s.shown? r = none) ∧
      ∃ s', (storeServers l).run s = .ok ((), s') ∧ s'.Sound ∧ SameTrackings s s' ∧
        ∀ r, s'.shown? r = if s.tracks r then (Table.lookup r l).or (s.shown? r) else none) := by
  induction l generalizing s with
  | nil =>
    refine .inr ⟨by simp, s, rfl, hs, .refl s, fun r => ?_⟩
    split
    · rfl
    · next h => exact hs.shown?_eq_none h
  | cons e l ih =>
    obtain ⟨r, server⟩ := e
    rw [List.forall_mem_cons] at hl hfit
    rw [List.map_cons, List.nodup_cons] at hrefs
    rw [storeServers_cons, List.map_cons, List.exists_mem_cons_iff, List.forall_mem_cons]
    rcases storeServer_cases hs r hl.1 with ⟨huntracked, hrun⟩ | ⟨hshown, hrun⟩ | ⟨hlong, -⟩ |
      ⟨htracks, hfree, s₁, hrun, hstored⟩
    · -- The message lost its tracking, and its server is left out.
      rw [hrun]
      rcases ih hs hrefs.2 hl.2 hfit.2 with ⟨htaken, herror⟩ |
        ⟨hnone, s', hok, hsound, hsame, hshown⟩
      · exact .inl ⟨.inr htaken, herror⟩
      · refine .inr ⟨⟨hs.shown?_eq_none huntracked, hnone⟩, s', hok, hsound, hsame, fun r' => ?_⟩
        rw [hshown, Table.lookup_cons]
        by_cases heq : r' = r
        · rw [heq, if_neg huntracked, if_neg huntracked]
        · rw [if_neg heq]
    · rw [hrun]
      exact .inl ⟨.inl hshown, rfl⟩
    · exact absurd hfit.1 (Nat.not_le_of_lt hlong)
    · -- The other servers belong to other messages, which show what they showed.
      have hother {r' : MessageRef} (hmem : r' ∈ l.map Prod.fst) : s₁.shown? r' = s.shown? r' := by
        rw [hstored.shown?, if_neg]
        rintro rfl
        exact hrefs.1 hmem
      rw [hrun]
      rcases ih hstored.sound hrefs.2 hl.2 hfit.2 with ⟨⟨r', hmem, htaken⟩, herror⟩ |
        ⟨hnone, s', hok, hsound, hsame, hshown⟩
      · rw [hother hmem] at htaken
        exact .inl ⟨.inr ⟨r', hmem, htaken⟩, herror⟩
      · refine .inr ⟨⟨hfree, ?_⟩, s', hok, hsound, hstored.same.trans hsame, fun r' => ?_⟩
        · intro r' hmem
          rw [← hother hmem]
          exact hnone r' hmem
        · rw [hshown, Table.lookup_cons, hstored.same.tracks, hstored.shown?]
          by_cases heq : r' = r
          · rw [heq, Table.lookup_of_notMem hrefs.1]
            simp
          · simp [heq]

/-! ### Exchanging -/

/-- An exchange leaves a sound store sound and touches what is announced only. -/
theorem replace_leaves {refs : List MessageRef} {entries : Snapshot} (hs : s.Sound)
    (h : (replace refs entries).run s = .ok ((), s')) : s'.Sound ∧ SameTrackings s s' := by
  obtain ⟨hforgotten, hsame, -⟩ := forgetAll hs refs
  obtain ⟨hsound, hstored⟩ := storeServers_leaves entries.canonical hforgotten h
  exact ⟨hsound, hsame.trans hstored⟩

theorem replace_keeps (refs : List MessageRef) (entries : Snapshot) :
    (replace refs entries).Keeps Sound :=
  fun _ _ _ hs h => (replace_leaves hs h).1

/-- An exchange fails if a message that is not forgotten shows a server already.  Otherwise each
tracked message shows the new server; without one, it shows nothing if it is forgotten, and what it
showed if not. -/
theorem Sound.replace_run (hs : s.Sound) (refs : List MessageRef) {entries : Snapshot}
    (hfit : ∀ r server, entries.get? r = some server → server.clients.length ≤ 2 ^ 64) :
    ((∃ r ∈ entries.refs, r ∉ refs ∧ (s.shown? r).isSome) ∧
      (replace refs entries).run s = .error (.duplicateKey .announced)) ∨
    ((∀ r ∈ entries.refs, r ∉ refs → s.shown? r = none) ∧
      ∃ s', (replace refs entries).run s = .ok ((), s') ∧ s'.Sound ∧ SameTrackings s s' ∧
        ∀ r, s'.shown? r = if s.tracks r then
          (entries.get? r).or (if r ∈ refs then none else s.shown? r) else none) := by
  obtain ⟨hforgotten, hsame, hshown⟩ := forgetAll hs refs
  rcases storeServers_run hforgotten entries.table.nodup_keys entries.canonical
    (fun e he => hfit e.1 e.2 (Table.find?_eq_some_iff.2 he)) with
    ⟨⟨r, hmem, htaken⟩, herror⟩ | ⟨hnone, s', hok, hsound, hstored, hshown'⟩
  · rw [hshown] at htaken
    have hr : r ∉ refs := fun hr => by simp [hr] at htaken
    rw [if_neg hr] at htaken
    exact .inl ⟨⟨r, hmem, hr, htaken⟩, herror⟩
  · refine .inr ⟨fun r hmem hr => ?_, s', hok, hsound, hsame.trans hstored, fun r => ?_⟩
    · rw [← hnone r hmem, hshown, if_neg hr]
    · rw [hshown', hsame.tracks, hshown]
      rfl

end StatusBoard.Store
