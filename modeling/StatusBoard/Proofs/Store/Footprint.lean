import StatusBoard.Proofs.Store.Reachable

/-!
# Footprints

A transaction reads and changes only some cells of the tables.  If two transactions change no cell
that the other one reads, they can be exchanged: each gives what it gives in the other order, and
the same rows are left (`Transaction.Within.commute`).
-/

namespace StatusBoard

open Store

namespace Store

/-! ### Cells -/

/-- The place of a row that can be read or changed on its own, apart from the rows of channels. -/
inductive Cell
  | tracking (k : MessageKey)
  | announced (k : MessageKey)
  | client (k : PartKey)
  | subscription (k : PartKey)

/-- The message that a cell is about. -/
def Cell.owner : Cell → MessageKey
  | tracking k | announced k => k
  | client k | subscription k => k.owner

/-- A row about a server without its number, which only says when the row was written. -/
def Announced.contents (a : Announced) : Announced := { a with arrival := 0 }

/-- Two stores hold the same in a cell. -/
def Cell.Same (s s' : Store) : Cell → Prop
  | tracking k => s.trackings.find? k = s'.trackings.find? k
  | announced k =>
    (s.announced.find? k).map Announced.contents = (s'.announced.find? k).map Announced.contents
  | client k => s.clients.find? k = s'.clients.find? k
  | subscription k => s.subscriptions.find? k = s'.subscriptions.find? k

theorem Cell.Same.refl (s : Store) (c : Cell) : c.Same s s := by
  cases c <;> rfl

theorem Cell.Same.symm {s s' : Store} {c : Cell} (h : c.Same s s') : c.Same s' s := by
  cases c <;> exact Eq.symm h

theorem Cell.Same.trans {s s' s'' : Store} {c : Cell} (h : c.Same s s') (h' : c.Same s' s'') :
    c.Same s s'' := by
  cases c <;> exact Eq.trans h h'

/-- Two stores hold the same rows, which may have been written in another order. -/
structure SameRows (s s' : Store) : Prop where
  channels : s.channels = s'.channels
  trackings : s.trackings = s'.trackings
  announced : ∀ k,
    (s.announced.find? k).map Announced.contents = (s'.announced.find? k).map Announced.contents
  clients : s.clients = s'.clients
  subscriptions : s.subscriptions = s'.subscriptions

theorem SameRows.of_cells {s s' : Store}
    (hchannels : ∀ k, s.channels.contains k = s'.channels.contains k)
    (h : ∀ c : Cell, c.Same s s') : SameRows s s' where
  channels := by
    refine Table.ext_find? fun k => ?_
    have hk := hchannels k
    rw [Table.contains, Table.contains] at hk
    cases hfind : s.channels.find? k <;> cases hfind' : s'.channels.find? k <;> simp_all
  trackings := Table.ext_find? fun k => h (.tracking k)
  announced k := h (.announced k)
  clients := Table.ext_find? fun k => h (.client k)
  subscriptions := Table.ext_find? fun k => h (.subscription k)

end Store

/-! ### Footprints -/

/-- What a transaction has to do with the tables: the cells that it reads or changes, those that it
changes, and the channels that it makes known. -/
structure Footprint where
  touches : Cell → Prop
  changes : Cell → Prop
  joins : ChannelKey → Bool

/-- Neither of two footprints changes what the other one touches. -/
structure Footprint.Apart (f f' : Footprint) : Prop where
  left : ∀ c, f.changes c → ¬ f'.touches c
  right : ∀ c, f'.changes c → ¬ f.touches c

theorem Footprint.Apart.symm {f f' : Footprint} (h : f.Apart f') : f'.Apart f := ⟨h.right, h.left⟩

namespace Transaction

variable {α β : Type}

/-- Two runs that end alike: with the same error, or with the same result and the same in some
cells. -/
inductive Alike (cells : Cell → Prop) :
    Except StoreError (α × Store) → Except StoreError (α × Store) → Prop
  | ok (a : α) {s s' : Store} (h : ∀ c, cells c → c.Same s s') :
    Alike cells (.ok (a, s)) (.ok (a, s'))
  | error (e : StoreError) : Alike cells (.error e) (.error e)

/-- A transaction that keeps to a footprint: it changes nothing else, and what it does depends on
nothing else. -/
structure Within (t : Transaction α) (f : Footprint) : Prop where
  touched : ∀ c, f.changes c → f.touches c
  frame : ∀ {s a s'}, t.run s = .ok (a, s') → ∀ c, ¬ f.changes c → c.Same s s'
  joins : ∀ {s a s'}, t.run s = .ok (a, s') → ∀ k,
    s'.channels.contains k = (s.channels.contains k || f.joins k)
  alike : ∀ {s s'}, (∀ c, f.touches c → c.Same s s') → Alike f.touches (t.run s) (t.run s')

namespace Within

variable {t : Transaction α} {t' : Transaction β} {f f' : Footprint} {s s' : Store}

theorem attempt_frame (h : t.Within f) (s : Store) {c : Cell} (hc : ¬ f.changes c) :
    c.Same s (t.attempt s).2 := by
  cases hrun : t.run s with
  | ok result =>
    rw [attempt_of_ok hrun]
    exact h.frame hrun c hc
  | error e =>
    rw [attempt_of_error hrun]
    exact .refl s c

theorem attempt_alike (h : t.Within f) (hsame : ∀ c, f.touches c → c.Same s s') :
    (t.attempt s).1 = (t.attempt s').1 ∧
      ∀ c, f.touches c → c.Same (t.attempt s).2 (t.attempt s').2 := by
  have halike := h.alike hsame
  generalize hrun : t.run s = result, hrun' : t.run s' = result' at halike
  cases halike with
  | ok a hcells =>
    rw [attempt_of_ok hrun, attempt_of_ok hrun']
    exact ⟨rfl, hcells⟩
  | error e =>
    rw [attempt_of_error hrun, attempt_of_error hrun']
    exact ⟨rfl, hsame⟩

theorem attempt_joins (h : t.Within f) (s : Store) (k : ChannelKey) :
    (t.attempt s).2.channels.contains k =
      (s.channels.contains k || (t.attempt s).1.isOk && f.joins k) := by
  cases hrun : t.run s with
  | ok result =>
    rw [attempt_of_ok hrun]
    exact h.joins hrun k
  | error e =>
    rw [attempt_of_error hrun]
    exact (Bool.or_false _).symm

/-- After a transaction that changes nothing it touches, another one gives what it gives before. -/
theorem result_after (h : t.Within f) (h' : t'.Within f') (hapart : f.Apart f') (s : Store) :
    (t'.attempt (t.attempt s).2).1 = (t'.attempt s).1 :=
  (h'.attempt_alike fun c hc =>
    (h.attempt_frame s fun hchanges => hapart.left c hchanges hc).symm).1

/-- A cell that the second of two transactions leaves alone holds what the first one, carried out
after the second, leaves in it. -/
theorem same_of_left (h : t.Within f) (h' : t'.Within f') (hapart : f.Apart f') (s : Store)
    {c : Cell} (hc : ¬ f'.changes c) :
    c.Same (t'.attempt (t.attempt s).2).2 (t.attempt (t'.attempt s).2).2 := by
  have hfirst := (h'.attempt_frame (t.attempt s).2 hc).symm
  by_cases htouches : f.touches c
  · have hread (c' : Cell) (hc' : f.touches c') : c'.Same s (t'.attempt s).2 :=
      h'.attempt_frame s fun hchanges => hapart.right c' hchanges hc'
    exact hfirst.trans ((h.attempt_alike hread).2 c htouches)
  · have hleave : ¬ f.changes c := fun hchanges => htouches (h.touched c hchanges)
    have hsecond := h.attempt_frame (t'.attempt s).2 hleave
    exact hfirst.trans ((h.attempt_frame s hleave).symm.trans
      ((h'.attempt_frame s hc).trans hsecond))

/-- Transactions whose footprints are apart can be exchanged. -/
theorem commute (h : t.Within f) (h' : t'.Within f') (hapart : f.Apart f') (s : Store) :
    (t'.attempt (t.attempt s).2).1 = (t'.attempt s).1 ∧
      (t.attempt (t'.attempt s).2).1 = (t.attempt s).1 ∧
      SameRows (t'.attempt (t.attempt s).2).2 (t.attempt (t'.attempt s).2).2 := by
  have hresult := h.result_after h' hapart s
  have hresult' := h'.result_after h hapart.symm s
  refine ⟨hresult, hresult', .of_cells (fun k => ?_) fun c => ?_⟩
  · rw [h'.attempt_joins, h.attempt_joins, h.attempt_joins, h'.attempt_joins, hresult, hresult']
    ac_rfl
  · by_cases hc : f'.changes c
    · have hleave : ¬ f.changes c := fun hchanges =>
        hapart.left c hchanges (h'.touched c hc)
      exact (h'.same_of_left h hapart.symm s hleave).symm
    · exact h.same_of_left h' hapart s hc

/-- What two transactions of one footprint do after each other keeps to that footprint. -/
theorem bind {u : α → Transaction β} (h : t.Within f) (hu : ∀ a, (u a).Within f) :
    (t >>= u).Within f := by
  have hrun (s : Store) : (t >>= u).run s = (t.run s).bind fun next => (u next.1).run next.2 := rfl
  constructor
  · exact h.touched
  · intro s b s'' hboth c hc
    rw [hrun] at hboth
    cases hfirst : t.run s with
    | error e =>
      rw [hfirst] at hboth
      cases hboth
    | ok next =>
      rw [hfirst] at hboth
      exact (h.frame hfirst c hc).trans ((hu next.1).frame hboth c hc)
  · intro s b s'' hboth k
    rw [hrun] at hboth
    cases hfirst : t.run s with
    | error e =>
      rw [hfirst] at hboth
      cases hboth
    | ok next =>
      rw [hfirst] at hboth
      rw [(hu next.1).joins hboth, h.joins hfirst, Bool.or_assoc, Bool.or_self]
  · intro s s' hsame
    have halike := h.alike hsame
    rw [hrun, hrun]
    generalize t.run s = result, t.run s' = result' at halike
    cases halike with
    | ok a hcells => exact (hu a).alike hcells
    | error e => exact .error e

theorem forM {l : List β} {u : β → Transaction Unit} (htouched : ∀ c, f.changes c → f.touches c)
    (hjoins : ∀ k, f.joins k = false) (hu : ∀ b ∈ l, (u b).Within f) : (l.forM u).Within f := by
  induction l with
  | nil =>
    refine ⟨htouched, ?_, ?_, fun hsame => .ok () hsame⟩
    · intro s a s' hrun c _
      cases hrun
      exact .refl s c
    · intro s a s' hrun k
      cases hrun
      rw [hjoins, Bool.or_false]
  | cons b l ih =>
    rw [List.forall_mem_cons] at hu
    exact hu.1.bind fun _ => ih hu.2

end Within

end Transaction

end StatusBoard
