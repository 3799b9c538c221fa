import StatusBoard.Proofs.Changes
import StatusBoard.Proofs.Store.Announced

/-!
# What does not depend on the order of a list

A tracked message shows the server at its address, and a server is brought into canonical form.  So
the order in which an entry lists its addresses and its clients is not seen.
-/

namespace StatusBoard

/-- The same about a server whose clients are listed in another order. -/
structure ServerInfo.Rearranged (i i' : ServerInfo) : Prop where
  clients : i'.clients.Perm i.clients
  rest : i' = { i with clients := i'.clients }

/-- An entry that lists its addresses and its clients in another order. -/
structure ListEntry.Rearranged (e e' : ListEntry) : Prop where
  addresses : e'.addresses.Perm e.addresses
  clients : e'.info.clients.Perm e.info.clients
  rest : e' = { e with
    addresses := e'.addresses
    info := { e.info with clients := e'.info.clients } }

theorem ListEntry.Rearranged.info {e e' : ListEntry} (h : e.Rearranged e') :
    e.info.Rearranged e'.info where
  clients := h.clients
  rest := congrArg ListEntry.info h.rest

/-- The canonical form shows neither the order of the clients nor the listing of the protocols. -/
theorem ServerInfo.Rearranged.canonical_server {i i' : ServerInfo} (h : i.Rearranged i')
    (address : String) {protocols protocols' : List String}
    (hprotocols : ∀ p, p ∈ protocols' ↔ p ∈ protocols) :
    (i'.server address protocols').canonical = (i.server address protocols).canonical := by
  rw [h.rest]
  unfold Server.canonical ServerInfo.server
  dsimp only
  rw [ascending_congr hprotocols, Scoring.sortClients_congr _ h.clients]

namespace MasterList

variable {l l' : List ListEntry}

/-! ### The sightings of one address -/

/-- The protocols that an entry's addresses name for one server. -/
def protocolsAt (a : String) (addresses : List String) : List String :=
  addresses.filterMap fun raw =>
    (Address.split? raw).bind fun (protocol, a') => if a' = a then some protocol else none

theorem sightings_cons (e : ListEntry) (l : List ListEntry) (a : String) :
    (sightings (e :: l)).filter (·.address = a) =
      (protocolsAt a e.addresses).map (⟨a, ·, e.info⟩) ++
        (sightings l).filter (·.address = a) := by
  have hentry (addresses : List String) :
      (addresses.filterMap fun raw => (Address.split? raw).map fun (protocol, address) =>
        (⟨address, protocol, e.info⟩ : Sighting)).filter (·.address = a) =
      (protocolsAt a addresses).map (⟨a, ·, e.info⟩) := by
    unfold protocolsAt
    induction addresses with
    | nil => rfl
    | cons raw rest ih =>
      rw [List.filterMap_cons, List.filterMap_cons]
      cases hsplit : Address.split? raw with
      | none => simpa using ih
      | some parts =>
        obtain ⟨protocol, address⟩ := parts
        by_cases ha : address = a
        · simpa [ha] using ih
        · simpa [ha] using ih
  rw [sightings, List.flatMap_cons, List.filter_append, hentry]
  rfl

theorem protocols_perm (h : List.Forall₂ ListEntry.Rearranged l l') (a : String) :
    (((sightings l').filter (·.address = a)).map Sighting.protocol).Perm
      (((sightings l).filter (·.address = a)).map Sighting.protocol) := by
  induction h with
  | nil => exact .refl _
  | cons he _ ih =>
    rw [sightings_cons, sightings_cons, List.map_append, List.map_append, List.map_map,
      List.map_map]
    exact ((he.addresses.filterMap _).map _).append ih

/-- The first sighting of an address stays with its entry. -/
theorem firstInfo_rearranged (h : List.Forall₂ ListEntry.Rearranged l l') (a : String) :
    ((sightings l').filter (·.address = a)).head?.map Sighting.info = none ∧
        ((sightings l).filter (·.address = a)).head?.map Sighting.info = none ∨
      ∃ e e', ListEntry.Rearranged e e' ∧
        ((sightings l').filter (·.address = a)).head?.map Sighting.info = some e'.info ∧
        ((sightings l).filter (·.address = a)).head?.map Sighting.info = some e.info := by
  induction h with
  | nil => exact .inl ⟨rfl, rfl⟩
  | @cons e e' l l' he _ ih =>
    have hperm : (protocolsAt a e'.addresses).Perm (protocolsAt a e.addresses) :=
      he.addresses.filterMap _
    rw [sightings_cons, sightings_cons]
    cases hprotocols : protocolsAt a e.addresses with
    | nil =>
      rw [hprotocols] at hperm
      rw [hperm.eq_nil]
      exact ih
    | cons protocol rest =>
      cases hprotocols' : protocolsAt a e'.addresses with
      | nil =>
        rw [hprotocols, hprotocols'] at hperm
        exact absurd hperm.symm.eq_nil (List.cons_ne_nil _ _)
      | cons protocol' rest' => exact .inr ⟨e, e', he, rfl, rfl⟩

theorem serverAt?_eq (l : List Sighting) (a : String) :
    serverAt? l a = ((l.filter (·.address = a)).head?.map Sighting.info).map fun info =>
      (info.server a
        (((l.filter (·.address = a)).map Sighting.protocol).filter (· ≠ ""))).canonical := by
  rw [serverAt?]
  cases l.filter (·.address = a) <;> rfl

/-- A server does not depend on the order in which entries list their addresses and clients. -/
theorem serverAt?_rearranged (h : List.Forall₂ ListEntry.Rearranged l l') (a : String) :
    serverAt? (sightings l') a = serverAt? (sightings l) a := by
  have hprotocols := (protocols_perm h a).filter (· ≠ "")
  rw [serverAt?_eq, serverAt?_eq]
  rcases firstInfo_rearranged h a with ⟨hnone', hnone⟩ | ⟨e, e', he, hinfo', hinfo⟩
  · rw [hnone, hnone']
    rfl
  · rw [hinfo, hinfo', Option.map_some, Option.map_some,
      he.info.canonical_server a fun _ => hprotocols.mem_iff]

/-! ### The servers of tracked messages -/

theorem canonical_of_serverAt? {l : List Sighting} {a : String} {server : Server}
    (h : serverAt? l a = some server) : server.canonical = server := by
  rw [serverAt?_eq] at h
  obtain ⟨info, -, rfl⟩ := Option.map_eq_some_iff.1 h
  exact (Server.canonical_isCanonical _).canonical_eq

theorem address_of_serverAt? {l : List Sighting} {a : String} {server : Server}
    (h : serverAt? l a = some server) : server.address = a := by
  rw [serverAt?_eq] at h
  obtain ⟨info, -, rfl⟩ := Option.map_eq_some_iff.1 h
  rfl

/-- A snapshot shows, for each tracking of a message, the server at its address. -/
theorem get?_snapshot_eq_some_iff {trackings : List Tracking}
    (htrackings : (trackings.map Tracking.ref).Nodup) (l : List ListEntry) {r : MessageRef}
    {server : Server} :
    (snapshot l trackings).get? r = some server ↔ ∃ t ∈ trackings, t.ref = r ∧
      serverAt? (sightings l) (Address.normalize t.address) = some server := by
  let entry (t : Tracking) : Option (MessageRef × Server) :=
    (serverAt? (sightings l) (Address.normalize t.address)).map (t.ref, ·)
  have hrefs : ((trackings.filterMap entry).map Prod.fst).Nodup := by
    refine (Snapshot.sublist_map_filterMap (g := Tracking.ref) ?_ _).nodup htrackings
    intro t e he
    obtain ⟨server, -, rfl⟩ := Option.map_eq_some_iff.1 he
    rfl
  constructor
  · intro h
    obtain ⟨raw, hmem, rfl⟩ := Snapshot.mem_of_get?_ofList h
    obtain ⟨t, ht, hraw⟩ := List.mem_filterMap.1 hmem
    obtain ⟨server, hserver, heq⟩ := Option.map_eq_some_iff.1 hraw
    cases heq
    exact ⟨t, ht, rfl, hserver.trans (congrArg some (canonical_of_serverAt? hserver).symm)⟩
  · rintro ⟨t, ht, rfl, hserver⟩
    have hmem : (t.ref, server) ∈ trackings.filterMap entry :=
      List.mem_filterMap.2 ⟨t, ht, by simp [entry, hserver]⟩
    exact (Snapshot.get?_ofList_of_mem hrefs hmem).trans
      (congrArg some (canonical_of_serverAt? hserver))

/-- A tracked message shows the server at its address. -/
theorem get?_snapshot (s : Store) (l : List ListEntry) (r : MessageRef) :
    (snapshot l (s.trackings.rows.map Store.trackingOfRow)).get? r =
      (s.trackings.find? r.key).bind fun address =>
        serverAt? (sightings l) (Address.normalize address) := by
  have hrefs : ((s.trackings.rows.map Store.trackingOfRow).map Tracking.ref).Nodup := by
    rw [List.map_map]
    exact Store.nodup_map_toRef s.trackings
  apply Option.ext
  intro server
  rw [get?_snapshot_eq_some_iff hrefs, Option.bind_eq_some_iff]
  constructor
  · rintro ⟨t, ht, rfl, hserver⟩
    obtain ⟨row, hrow, rfl⟩ := List.mem_map.1 ht
    exact ⟨row.2, Table.find?_eq_some_iff.2 hrow, hserver⟩
  · rintro ⟨address, haddress, hserver⟩
    exact ⟨⟨r, address⟩, List.mem_map.2 ⟨_, Table.find?_eq_some_iff.1 haddress, rfl⟩, rfl, hserver⟩

end MasterList

end StatusBoard
