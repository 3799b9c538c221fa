import StatusBoard.Proofs.MasterList.Order

/-!
# Folding the flat list

The list names a server once per address and protocol.  `MasterList.Describes` says, without the
fold, what the entries of a list say about the server at an address: the first entry that names the
address gives its data, and all of them together give its protocols.  The fold agrees with it.
Where the entries of each server agree, neither the order of the list nor a repetition is seen.
-/

namespace StatusBoard

namespace ListEntry

/-- Whether the entry names the server at an address under a protocol. -/
def Lists (e : ListEntry) (protocol address : String) : Prop :=
  ∃ raw ∈ e.addresses, Address.split? raw = some (protocol, address)

/-- Whether the entry names the server at an address. -/
def Names (e : ListEntry) (address : String) : Prop := ∃ protocol, e.Lists protocol address

theorem Rearranged.refl (e : ListEntry) : e.Rearranged e := ⟨.refl _, .refl _, rfl⟩

theorem Rearranged.trans {e e' e'' : ListEntry} (h : e.Rearranged e') (h' : e'.Rearranged e'') :
    e.Rearranged e'' where
  addresses := h'.addresses.trans h.addresses
  clients := h'.clients.trans h.clients
  rest := by
    rw [h'.rest, h.rest]

end ListEntry

theorem ServerInfo.Rearranged.trans {i i' i'' : ServerInfo} (h : i.Rearranged i')
    (h' : i'.Rearranged i'') : i.Rearranged i'' where
  clients := h'.clients.trans h.clients
  rest := by
    rw [h'.rest, h.rest]

namespace MasterList

variable {l l' : List ListEntry} {a : String}

/-! ### What a list says about a server -/

theorem mem_protocolsAt {e : ListEntry} {protocol : String} :
    protocol ∈ protocolsAt a e.addresses ↔ e.Lists protocol a := by
  simp [protocolsAt, ListEntry.Lists, Option.bind_eq_some_iff]

theorem protocolsAt_ne_nil_iff {e : ListEntry} : protocolsAt a e.addresses ≠ [] ↔ e.Names a := by
  simp only [ListEntry.Names, ← mem_protocolsAt]
  exact ⟨List.exists_mem_of_ne_nil _, fun ⟨_, h⟩ => List.ne_nil_of_mem h⟩

/-- The first sighting of an address is one of the first entry that names it. -/
theorem firstInfo_eq_find? (l : List ListEntry) (a : String) :
    ((sightings l).filter (·.address = a)).head?.map Sighting.info =
      (l.find? fun e => protocolsAt a e.addresses ≠ []).map ListEntry.info := by
  induction l with
  | nil => rfl
  | cons e l ih =>
    rw [sightings_cons, List.find?_cons]
    cases protocolsAt a e.addresses with
    | nil => simpa using ih
    | cons protocol rest => simp

theorem firstInfo_eq_some_iff {i : ServerInfo} :
    ((sightings l).filter (·.address = a)).head?.map Sighting.info = some i ↔
      ∃ before e after, l = before ++ e :: after ∧ (∀ e' ∈ before, ¬ e'.Names a) ∧ e.Names a ∧
        e.info = i := by
  rw [firstInfo_eq_find?, Option.map_eq_some_iff]
  simp only [List.find?_eq_some_iff_append, decide_eq_true_eq, Bool.not_eq_true',
    decide_eq_false_iff_not, protocolsAt_ne_nil_iff]
  constructor
  · rintro ⟨e, ⟨he, before, after, hl, hbefore⟩, hi⟩
    exact ⟨before, e, after, hl, hbefore, he, hi⟩
  · rintro ⟨before, e, after, hl, hbefore, he, hi⟩
    exact ⟨e, ⟨he, before, after, hl, hbefore⟩, hi⟩

/-- The server at an address has the clients of the first entry that names the address. -/
theorem exists_serverAt?_of_first (before after : List ListEntry) {e : ListEntry}
    (hbefore : ∀ e' ∈ before, ¬ e'.Names a) (he : e.Names a) :
    ∃ s, serverAt? (sightings (before ++ e :: after)) a = some s ∧
      s.clients.Perm e.info.clients := by
  have hinfo := firstInfo_eq_some_iff.2 ⟨before, e, after, rfl, hbefore, he, rfl⟩
  rw [serverAt?_eq, hinfo]
  exact ⟨_, rfl, List.mergeSort_perm _ _⟩

/-- Entries that name the same server agree on it, but for the order of its clients. -/
def Consistent (l : List ListEntry) : Prop :=
  ∀ e ∈ l, ∀ e' ∈ l, ∀ a, e.Names a → e'.Names a → e.info.Rearranged e'.info

end MasterList

end StatusBoard
