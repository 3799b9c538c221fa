import StatusBoard.Server.Canonical

/-!
# The canonical form decides equality

Two servers have the same canonical form exactly if they differ in nothing but the order of their
clients and the listing of their protocols.  The order of the canonical form is described here by
what a reader sees of it: scores first, then names, then clans.
-/

namespace StatusBoard

/-! ### The order in which clients are shown -/

/-- Whether the score of a client puts it in front of another one: it has more points, or it has a
time and the other one has none or a longer one. -/
def Scoring.Leads (k : Scoring) (a b : Client) : Prop :=
  match k with
  | points => b.score < a.score
  | time => 0 ≤ a.score ∧ (b.score < 0 ∨ a.score < b.score)

/-- Scores decide which client is shown first, then names, then clans. -/
def Client.InDisplayOrder (k : Scoring) (a b : Client) : Prop :=
  k.Leads a b ∨ ¬ k.Leads b a ∧ (a.name < b.name ∨ a.name = b.name ∧ a.clan ≤ b.clan)

namespace Scoring

theorem rank_lt_rank_iff (k : Scoring) (a b : Client) : k.rank a < k.rank b ↔ k.Leads a b := by
  have hmax : Int32.maxValue.toInt = 2147483647 := rfl
  have hzero : (0 : Int32).toInt = 0 := rfl
  have ha := a.score.toInt_le
  have hb := b.score.toInt_le
  cases k with
  | points =>
    rw [rank, rank, Leads, Int32.lt_iff_toInt_lt]
    omega
  | time =>
    simp only [rank, Leads, Client.hasTime, decide_eq_true_eq, Int32.le_iff_toInt_le,
      Int32.lt_iff_toInt_lt, hzero, hmax]
    split <;> split <;> omega

end Scoring

theorem Client.inDisplayOrder_of_mayPrecede {k : Scoring} {a b : Client} (h : mayPrecede k a b) :
    InDisplayOrder k a b := by
  rw [InDisplayOrder, ← k.rank_lt_rank_iff, ← k.rank_lt_rank_iff]
  simp only [mayPrecede, order, compareLex, compareOn, Ordering.isLE_then_iff_or,
    Std.compare_eq_lt, Std.LawfulEqCmp.compare_eq_iff_eq] at h
  rcases h with hrank | ⟨hrank, hname | ⟨hname, hclan⟩⟩
  · exact .inl hrank
  · exact .inr ⟨by omega, .inl (compareOfLessAndEq_eq_lt.1 hname)⟩
  · refine .inr ⟨by omega, .inr ⟨hname, ?_⟩⟩
    rcases hclan with hclan | ⟨hclan, -⟩
    · exact Std.le_of_lt (compareOfLessAndEq_eq_lt.1 hclan)
    · exact Std.le_of_eq hclan

namespace Server

/-! ### Servers that differ in order only -/

/-- A server with the same protocols and the same clients in any order, and else the same. -/
structure Rearranged (a b : Server) : Prop where
  protocols : ∀ p, p ∈ a.protocols ↔ p ∈ b.protocols
  clients : a.clients.Perm b.clients
  rest : b = { a with protocols := b.protocols, clients := b.clients }

theorem rearranged_canonical (s : Server) : s.Rearranged s.canonical where
  protocols _ := mem_ascending.symm
  clients := (List.mergeSort_perm _ _).symm
  rest := rfl

theorem Rearranged.canonical_eq {a b : Server} (h : a.Rearranged b) :
    a.canonical = b.canonical := by
  have hprotocols : ascending a.protocols = ascending b.protocols := ascending_congr h.protocols
  have hclients (k : Scoring) : k.sortClients a.clients = k.sortClients b.clients :=
    k.sortClients_congr h.clients
  rw [h.rest, canonical, canonical, hprotocols, hclients]

theorem rearranged_of_canonical_eq {a b : Server} (h : a.canonical = b.canonical) :
    a.Rearranged b where
  protocols p := by
    rw [a.rearranged_canonical.protocols, h, ← b.rearranged_canonical.protocols]
  clients := by
    have ha := a.rearranged_canonical.clients
    rw [h] at ha
    exact ha.trans b.rearranged_canonical.clients.symm
  rest := by
    obtain ⟨⟩ := a
    obtain ⟨⟩ := b
    simp only [canonical, mk.injEq] at h
    simp_all

/-- Two servers have the same canonical form exactly if they differ in order only.  The canonical
form is canonical itself, differs from the server in order only, lists the protocols strictly
ascending and the clients as they are shown. -/
theorem canonical_eq_iff_rearranged :
    (∀ a b : Server, a.canonical = b.canonical ↔ a.Rearranged b) ∧
      ∀ s : Server, s.canonical.canonical = s.canonical ∧ s.Rearranged s.canonical ∧
        Strict s.canonical.protocols ∧
        s.canonical.clients.Pairwise (Client.InDisplayOrder s.scoring) := by
  refine ⟨fun a b => ⟨rearranged_of_canonical_eq, Rearranged.canonical_eq⟩, fun s => ?_⟩
  have hcanonical := s.canonical_isCanonical
  refine ⟨hcanonical.canonical_eq, s.rearranged_canonical, hcanonical.protocols, ?_⟩
  exact hcanonical.clients.imp Client.inDisplayOrder_of_mayPrecede

end Server

end StatusBoard
