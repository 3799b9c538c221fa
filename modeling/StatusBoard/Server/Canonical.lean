import StatusBoard.Ascending
import StatusBoard.Server

/-!
# The canonical form of a server

The master list gives protocols and clients in no particular order.  The canonical form fixes it:
protocols ascend without repetitions, and clients stand in the order in which they are shown.
Clients are ordered by rank (`Scoring.rank`), and clients of equal rank by their remaining fields,
so that the order is total and two servers with the same clients get the same form.
-/

namespace StatusBoard

/-- The place of a client among the clients of its server, from low to high: more points come first;
a shorter time comes first, and clients without a time come last. -/
def Scoring.rank (k : Scoring) (c : Client) : Int :=
  match k with
  | points => - c.score.toInt
  | time => if c.hasTime then c.score.toInt else Int32.maxValue.toInt + 1

namespace Client

/-- Compare clients by rank, then by name, clan, score and country, players before others, and by
team. -/
def order (k : Scoring) : Client → Client → Ordering :=
  compareLex (compareOn k.rank) <| compareLex (compareOn name) <| compareLex (compareOn clan) <|
    compareLex (compareOn score) <| compareLex (compareOn country) <|
      compareLex (compareOn fun c => !c.isPlayer) (compareOn team)

instance (k : Scoring) : Std.TransCmp (order k) :=
  inferInstanceAs (Std.TransCmp (compareLex _ (compareLex _ (compareLex _ (compareLex _
    (compareLex _ (compareLex _ _)))))))

instance (k : Scoring) : Std.LawfulEqCmp (order k) where
  toReflCmp := inferInstance
  eq_of_compare {a b} h := by
    simp only [order, compareLex_eq_eq, compareOn, Std.LawfulEqCmp.compare_eq_iff_eq] at h
    cases a; cases b; simp_all

/-- Whether a client may stand before another one. -/
def mayPrecede (k : Scoring) (a b : Client) : Bool := (order k a b).isLE

end Client

/-- The clients in display order. -/
def Scoring.sortClients (k : Scoring) (clients : List Client) : List Client :=
  clients.mergeSort (Client.mayPrecede k)

theorem Scoring.sortClients_pairwise (k : Scoring) (clients : List Client) :
    (k.sortClients clients).Pairwise fun a b => Client.mayPrecede k a b := by
  refine List.pairwise_mergeSort (fun a b c => ?_) (fun a b => ?_) clients
  · exact Std.TransCmp.isLE_trans
  · have : Client.order k b a = (Client.order k a b).swap := Std.OrientedCmp.eq_swap
    rw [Client.mayPrecede, Client.mayPrecede, this]
    cases Client.order k a b <;> rfl

/-- Two clients that may each precede the other are the same client. -/
theorem Client.eq_of_mayPrecede {k : Scoring} {a b : Client} (hab : mayPrecede k a b)
    (hba : mayPrecede k b a) : a = b := by
  have hswap : order k b a = (order k a b).swap := Std.OrientedCmp.eq_swap
  rw [mayPrecede, hswap] at hba
  rw [mayPrecede] at hab
  have heq : order k a b = .eq := by cases h : order k a b <;> simp_all
  exact Std.LawfulEqCmp.eq_of_compare heq

/-- The display order does not depend on the order in which the clients came. -/
theorem Scoring.sortClients_congr (k : Scoring) {l₁ l₂ : List Client} (h : l₁.Perm l₂) :
    k.sortClients l₁ = k.sortClients l₂ := by
  have hperm : (k.sortClients l₁).Perm (k.sortClients l₂) :=
    (List.mergeSort_perm _ _).trans (h.trans (List.mergeSort_perm _ _).symm)
  exact hperm.eq_of_pairwise (fun _ _ _ _ => Client.eq_of_mayPrecede)
    (k.sortClients_pairwise l₁) (k.sortClients_pairwise l₂)

namespace Server

/-- Protocols ascend without repetitions and clients stand in display order. -/
structure IsCanonical (s : Server) : Prop where
  protocols : Strict s.protocols
  clients : s.clients.Pairwise fun a b => Client.mayPrecede s.scoring a b

instance (s : Server) : Decidable s.IsCanonical :=
  decidable_of_iff
    (Strict s.protocols ∧ s.clients.Pairwise fun a b => Client.mayPrecede s.scoring a b)
    ⟨fun h => ⟨h.1, h.2⟩, fun h => ⟨h.1, h.2⟩⟩

/-- Bring protocols and clients into canonical order. -/
def canonical (s : Server) : Server :=
  { s with protocols := ascending s.protocols, clients := s.scoring.sortClients s.clients }

theorem canonical_isCanonical (s : Server) : s.canonical.IsCanonical where
  protocols := ascending_strict _
  clients := Scoring.sortClients_pairwise s.scoring s.clients

/-- A server in canonical form is left alone. -/
theorem IsCanonical.canonical_eq {s : Server} (h : s.IsCanonical) : s.canonical = s := by
  have hc : s.scoring.sortClients s.clients = s.clients := List.mergeSort_of_pairwise h.clients
  rw [canonical, h.protocols.ascending_eq, hc]

end Server

end StatusBoard
