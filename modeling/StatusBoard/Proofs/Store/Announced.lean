import Mathlib.Data.List.Nodup
import StatusBoard.Proofs.Store.Invariant

/-!
# The store as a map from messages to servers

Seen from outside the store keeps one server for each message (`Store.shown?`).  In a sound store
`load` gives that map (`Store.Sound.load_run`).
-/

namespace StatusBoard.Store

/-- The server that is stored for a message. -/
def shown? (s : Store) (r : MessageRef) : Option Server :=
  (s.announced.find? r.key).bind fun a => (a.server? (s.clientsOf r.key)).map Server.canonical

variable {s s' : Store} {r : MessageRef}

/-! ### Rows of one message -/

/-- Only the rows about a message matter for its server. -/
theorem shown?_congr (hannounced : s'.announced.find? r.key = s.announced.find? r.key)
    (hclients : ∀ p, s'.clients.find? (r.partKey p) = s.clients.find? (r.partKey p)) :
    s'.shown? r = s.shown? r := by
  have hfilter : (s'.clients.filter fun part _ => part.owner = r.key) =
      s.clients.filter fun part _ => part.owner = r.key := by
    apply Table.ext_find?
    rintro ⟨owner, p⟩
    simp only [Table.find?_filter_key]
    by_cases h : owner = r.key
    · rw [h]
      exact congrArg (ite _ · none) (hclients p)
    · simp [h]
  rw [shown?, shown?, hannounced, clientsOf, clientsOf, hfilter]

/-- The row about a server gives the server back. -/
theorem server?_ofServer (server : Server) (arrival : Nat) (clients : List Client) :
    (Announced.ofServer server arrival).server? clients =
      some { server with clients := clients } := by
  have hprotocols : protocols? (protocolsText server.protocols) = some server.protocols :=
    Json.list?_render server.protocols
  have hsize : (server.map.size.map UInt64.toInt64).map Int64.toUInt64 = server.map.size := by
    cases server.map.size <;> rfl
  simp [Announced.ofServer, Announced.server?, hprotocols, hsize]

theorem mem_numbered {clients : List Client} {p : Int64} {c : Client}
    (hlen : clients.length ≤ 2 ^ 64) :
    (p, c) ∈ numbered clients ↔ clients[placeOf p]? = some c := by
  simp only [numbered, List.mem_map, Prod.exists, Prod.mk.injEq, List.mem_zipIdx_iff_getElem?]
  constructor
  · rintro ⟨c', i, hi, rfl, rfl⟩
    have hlt : i < clients.length := (List.getElem?_eq_some_iff.1 hi).1
    rwa [placeOf_ofNat (by omega)]
  · intro h
    exact ⟨c, placeOf p, h, ofNat_placeOf p, rfl⟩

/-- As long as positions last, no position is given twice. -/
theorem nodup_numbered {clients : List Client} (hlen : clients.length ≤ 2 ^ 64) :
    ((numbered clients).map Prod.fst).Nodup := by
  have hfst : (numbered clients).map Prod.fst = (List.range clients.length).map Int64.ofNat := by
    rw [List.range_eq_range', ← List.zipIdx_map_snd 0 clients, numbered, List.map_map, List.map_map]
    rfl
  rw [hfst]
  refine List.Nodup.map_on (fun i hi j hj heq => ?_) List.nodup_range
  rw [List.mem_range] at hi hj
  rw [← placeOf_ofNat (show i < 2 ^ 64 by omega), heq, placeOf_ofNat (by omega)]

/-- The rows that hold these clients. -/
def clientRows (k : MessageKey) (clients : List Client) : List (PartKey × Client) :=
  (numbered clients).map fun (p, c) => (⟨k, p⟩, c)

theorem HoldsClients.mem_rows {clients : List Client} (h : s.HoldsClients r clients)
    (row : PartKey × Client) :
    row ∈ (s.clients.filter fun part _ => part.owner = r.key).rows ↔
      row ∈ clientRows r.key clients := by
  obtain ⟨⟨owner, p⟩, c⟩ := row
  rw [← Table.find?_eq_some_iff, Table.find?_filter_key]
  simp only [clientRows, List.mem_map, Prod.exists, Prod.mk.injEq, PartKey.mk.injEq]
  constructor
  · intro hfind
    by_cases howner : owner = r.key
    · subst howner
      simp only [decide_true, if_true] at hfind
      exact ⟨p, c, (mem_numbered h.length_le).2 ((h.find? p).symm.trans hfind), ⟨rfl, rfl⟩, rfl⟩
    · simp [howner] at hfind
  · rintro ⟨p', c', hmem, ⟨rfl, rfl⟩, rfl⟩
    rw [if_pos (decide_eq_true rfl)]
    exact (h.find? p').trans ((mem_numbered h.length_le).1 hmem)

/-- The clients of a message are stored in the rows of their positions and in no others. -/
theorem HoldsClients.rows_perm {clients : List Client} (h : s.HoldsClients r clients) :
    (s.clients.filter fun part _ => part.owner = r.key).rows.Perm (clientRows r.key clients) := by
  have hrows : (s.clients.filter fun part _ => part.owner = r.key).rows.Nodup :=
    List.Nodup.of_map Prod.fst (Table.nodup_keys _)
  have hwritten : (clientRows r.key clients).Nodup := by
    have hnumbered := List.Nodup.of_map Prod.fst (nodup_numbered h.length_le)
    refine List.Nodup.map (fun pc pc' heq => ?_) hnumbered
    simp only [Prod.mk.injEq, PartKey.mk.injEq, true_and] at heq
    exact Prod.ext heq.1 heq.2
  exact (List.perm_ext_iff_of_nodup hrows hwritten).2 h.mem_rows

/-- The clients of a message are read in some order. -/
theorem HoldsClients.perm {clients : List Client} (h : s.HoldsClients r clients) :
    (s.clientsOf r.key).Perm clients := by
  have hclients : (clientRows r.key clients).map Prod.snd = clients := by
    rw [clientRows, List.map_map, numbered, List.map_map]
    exact List.zipIdx_map_fst 0 clients
  rw [clientsOf, Table.values, ← hclients]
  exact h.rows_perm.map Prod.snd

/-- While positions do not reach the negative numbers, they are in the order of the clients. -/
theorem ascending_clientRows (k : MessageKey) {clients : List Client}
    (hlen : clients.length ≤ 2 ^ 63) :
    (clientRows k clients).Pairwise fun a b => compare a.1 b.1 = .lt := by
  have hfst : (clientRows k clients).map Prod.fst =
      (List.range clients.length).map fun i => ⟨k, Int64.ofNat i⟩ := by
    rw [List.range_eq_range', ← List.zipIdx_map_snd 0 clients, clientRows, numbered, List.map_map,
      List.map_map, List.map_map]
    rfl
  have hpairwise : ((clientRows k clients).map Prod.fst).Pairwise fun a b => compare a b = .lt := by
    rw [hfst, List.pairwise_map]
    refine List.pairwise_lt_range.imp_of_mem fun {i j} hi hj hlt => ?_
    rw [List.mem_range] at hi hj
    have hposition : compare (Int64.ofNat i) (Int64.ofNat j) = .lt := by
      rw [Std.compare_eq_lt, Int64.lt_iff_toInt_lt, Int64.toInt_ofNat_of_lt (by omega),
        Int64.toInt_ofNat_of_lt (by omega)]
      omega
    change PartKey.order _ _ = .lt
    simp [PartKey.order, compareLex, compareOn, hposition]
  exact List.pairwise_map.1 hpairwise

/-- The rows of a canonical server show that server. -/
theorem shown?_of_holds {server : Server} {arrival : Nat} (hcanonical : server.IsCanonical)
    (hrow : s.announced.find? r.key = some (.ofServer server arrival))
    (hclients : s.HoldsClients r server.clients) : s.shown? r = some server := by
  have hsorted : server.scoring.sortClients (s.clientsOf r.key) = server.clients := by
    rw [Scoring.sortClients_congr _ hclients.perm]
    exact congrArg Server.clients hcanonical.canonical_eq
  rw [shown?, hrow, Option.bind_some, server?_ofServer, Option.map_some]
  simp [Server.canonical, hsorted, hcanonical.protocols.ascending_eq]

/-! ### Reading -/

theorem mem_announcedServers {server : Server} :
    (r, server) ∈ s.announcedServers ↔
      ∃ a, s.announced.find? r.key = some a ∧ a.server? (s.clientsOf r.key) = some server := by
  simp only [announcedServers, List.mem_filterMap, Prod.exists, Option.map_eq_some_iff,
    Prod.mk.injEq]
  constructor
  · rintro ⟨k, a, hrow, server, hserver, rfl, rfl⟩
    exact ⟨a, Table.find?_eq_some_iff.2 hrow, hserver⟩
  · rintro ⟨a, ha, hserver⟩
    exact ⟨r.key, a, Table.find?_eq_some_iff.1 ha, server, hserver, rfl, rfl⟩

/-- Distinct keys stand for distinct messages. -/
theorem nodup_map_toRef {α : Type} (t : Table MessageKey α) :
    (t.rows.map fun row => row.1.toRef).Nodup := by
  have hkeys := t.nodup_keys
  rw [Table.keys, List.Nodup, List.pairwise_map] at hkeys
  rw [List.Nodup, List.pairwise_map]
  refine hkeys.imp fun {row row'} hne heq => hne ?_
  rw [← MessageRef.key_toRef row.1, heq, MessageRef.key_toRef]

/-- No message is announced twice. -/
theorem nodup_announcedServers (s : Store) : (s.announcedServers.map Prod.fst).Nodup := by
  refine (Snapshot.sublist_map_filterMap ?_ s.announced.rows).nodup (nodup_map_toRef s.announced)
  intro row e he
  obtain ⟨server, -, rfl⟩ := Option.map_eq_some_iff.1 he
  rfl

namespace Sound

/-- A message shows a server exactly if a row is announced for it. -/
theorem isSome_shown? (hs : s.Sound) (r : MessageRef) :
    (s.shown? r).isSome = s.announced.contains r.key := by
  cases ha : s.announced.find? r.key with
  | none => simp [shown?, Table.contains, ha]
  | some a =>
    obtain ⟨server, hcanonical, hrow, hclients⟩ := hs.server_of_announced r a ha
    rw [shown?_of_holds hcanonical (ha.trans (congrArg some hrow)) hclients]
    simp [Table.contains, ha]

/-- Only tracked messages show a server. -/
theorem tracks_of_shown? (hs : s.Sound) {server : Server} (h : s.shown? r = some server) :
    s.tracks r := by
  apply hs.tracking_of_announced
  rw [← hs.isSome_shown?, h]
  rfl

theorem shown?_eq_none (hs : s.Sound) (h : ¬ s.tracks r) : s.shown? r = none := by
  cases hshown : s.shown? r with
  | none => rfl
  | some server => exact absurd (hs.tracks_of_shown? hshown) h

/-- Dropped trackings take what their messages show with them. -/
theorem shown?_dropTrackings (hs : s.Sound) (p : MessageKey → Bool) (r : MessageRef) :
    (s.dropTrackings p).shown? r = if p r.key then none else s.shown? r := by
  split
  · next hp => simp [shown?, announced_dropTrackings s p hs, hp]
  · next hp =>
    apply shown?_congr
    · rw [announced_dropTrackings s p hs, if_neg hp]
    · intro position
      rw [clients_dropTrackings s p hs, MessageRef.partKey, if_neg hp]

theorem unreadable_eq_nil (hs : s.Sound) : s.unreadable = [] := by
  have hrows : (s.announced.rows.filter fun row => (protocols? row.2.protocols).isNone) = [] := by
    refine List.filter_eq_nil_iff.2 fun ⟨k, a⟩ hmem => ?_
    obtain ⟨server, -, hrow, -⟩ :=
      hs.server_of_announced k.toRef a (Table.find?_eq_some_iff.2 hmem)
    have hprotocols : protocols? a.protocols = some server.protocols := by
      rw [hrow]
      exact Json.list?_render server.protocols
    simp [hprotocols]
  simp [unreadable, hrows]

theorem stray_eq_nil (hs : s.Sound) : s.stray = [] := by
  refine List.filter_eq_nil_iff.2 fun k hk => ?_
  obtain ⟨part, hpart, rfl⟩ := List.mem_map.1 hk
  obtain ⟨⟨part, c⟩, hrow, rfl⟩ := List.mem_map.1 hpart
  simp [hs.announced_of_client part (Table.contains_iff.2 ⟨c, hrow⟩)]

/-- Loading a sound store gives the server that each message shows. -/
theorem load_run (hs : s.Sound) :
    ∃ snapshot, load.run s = .ok (snapshot, s) ∧ ∀ r, snapshot.get? r = s.shown? r := by
  refine ⟨_, Store.load_run hs.unreadable_eq_nil hs.stray_eq_nil, fun r => ?_⟩
  cases hshown : s.shown? r with
  | none =>
    refine Snapshot.get?_ofList_of_notMem fun hmem => ?_
    obtain ⟨⟨r, server⟩, hentry, rfl⟩ := List.mem_map.1 hmem
    obtain ⟨a, ha, hserver⟩ := mem_announcedServers.1 hentry
    simp [shown?, ha, hserver] at hshown
  | some server =>
    obtain ⟨a, ha, hserver⟩ := Option.bind_eq_some_iff.1 hshown
    obtain ⟨stored, hstored, rfl⟩ := Option.map_eq_some_iff.1 hserver
    exact Snapshot.get?_ofList_of_mem (nodup_announcedServers s)
      (mem_announcedServers.2 ⟨a, ha, hstored⟩)

end Sound

end StatusBoard.Store
