import StatusBoard.Toml.Reader

/-!
# The integers of a document

TOML has integers of 64 bits, and a reader of documents gives no others (`Toml.Parser.Bounded`).
The concrete one keeps to this (`Toml.bounded_parse?`): a reader's result has a property if every
part it reads has it (`Scan.Gives`).
-/

namespace StatusBoard.Toml

/-! ### Values -/

/-- All integers of a value have 64 bits. -/
inductive Fits : Toml → Prop
  | string (s : String) : Fits (.string s)
  | integer {i : Int} (low : Int64.minValue.toInt ≤ i) (high : i ≤ Int64.maxValue.toInt) :
    Fits (.integer i)
  | float (spelling : String) : Fits (.float spelling)
  | boolean (b : Bool) : Fits (.boolean b)
  | array {items : List Toml} (h : ∀ v ∈ items, Fits v) : Fits (.array items)
  | table {members : List (String × Toml)} (h : ∀ m ∈ members, Fits m.2) : Fits (.table members)

/-- All integers of the documents that are read have 64 bits. -/
def Parser.Bounded (parse : Parser) : Prop :=
  ∀ text document, parse text = some document → ∀ m ∈ document, m.2.Fits

/-- All integers of what a key stands for have 64 bits. -/
inductive Node.Fits : Node → Prop
  | value {v : Toml} (h : v.Fits) : Fits (.value v)
  | table (origin : Origin) {members : List (String × Node)} (h : ∀ m ∈ members, Fits m.2) :
    Fits (.table origin members)
  | tables {earlier : List (List (String × Node))} {last : List (String × Node)}
    (hearlier : ∀ members ∈ earlier, ∀ m ∈ members, Fits m.2) (hlast : ∀ m ∈ last, Fits m.2) :
    Fits (.tables earlier last)

/-- All integers of an unfinished table have 64 bits. -/
def Members.Fits (members : Members) : Prop := ∀ m ∈ members, m.2.Fits

theorem ofMembers_eq (members : Members) :
    ofMembers members = members.map fun m => (m.1, ofNode m.2) := by
  induction members with
  | nil => rw [ofMembers, List.map_nil]
  | cons m rest ih => rw [ofMembers, ih, List.map_cons]

theorem ofTables_eq (tables : List Members) :
    ofTables tables = tables.map fun members => .table (ofMembers members) := by
  induction tables with
  | nil => rw [ofTables, List.map_nil]
  | cons members rest ih => rw [ofTables, ih, List.map_cons]

theorem Node.Fits.ofNode {n : Node} (h : n.Fits) : (ofNode n).Fits := by
  induction h with
  | value h =>
    rw [Toml.ofNode]
    exact h
  | table origin _ ih =>
    rw [Toml.ofNode, ofMembers_eq]
    exact .table (List.forall_mem_map.2 ih)
  | tables _ _ ihearlier ihlast =>
    rw [Toml.ofNode, ofTables_eq, ofMembers_eq]
    refine .array ?_
    rw [List.forall_mem_append, List.forall_mem_singleton, List.forall_mem_map]
    refine ⟨fun members hmembers => ?_, .table (List.forall_mem_map.2 ihlast)⟩
    rw [ofMembers_eq]
    exact .table (List.forall_mem_map.2 (ihearlier members hmembers))

theorem Members.Fits.ofMembers {members : Members} (h : members.Fits) :
    ∀ m ∈ ofMembers members, m.2.Fits := by
  rw [ofMembers_eq, List.forall_mem_map]
  exact fun m hm => (h m hm).ofNode

/-! ### Changing a table -/

namespace Members

variable {members changed : Members} {key : String} {path : List String}

theorem fits_nil : Fits [] := List.forall_mem_nil _

theorem fits_update {change : Option Node → Option Node} (h : members.Fits)
    (hnew : ∀ n, change none = some n → n.Fits)
    (hold : ∀ o n, o.Fits → change (some o) = some n → n.Fits)
    (hchanged : members.update key change = some changed) : changed.Fits := by
  induction members generalizing changed with
  | nil =>
    rw [update] at hchanged
    obtain ⟨n, hn, rfl⟩ := Option.map_eq_some_iff.1 hchanged
    exact List.forall_mem_singleton.2 (hnew n hn)
  | cons m rest ih =>
    obtain ⟨hm, hrest⟩ := List.forall_mem_cons.1 h
    rw [update] at hchanged
    split at hchanged
    · obtain ⟨n, hn, rfl⟩ := Option.map_eq_some_iff.1 hchanged
      exact List.forall_mem_cons.2 ⟨hold _ n hm hn, hrest⟩
    · obtain ⟨rest', hrest', rfl⟩ := Option.map_eq_some_iff.1 hchanged
      exact List.forall_mem_cons.2 ⟨hm, ih hrest hrest'⟩

theorem fits_descend {change : Members → Option Members}
    (hchange : ∀ m m', Fits m → change m = some m' → m'.Fits) (h : members.Fits)
    (hchanged : members.descend path change = some changed) : changed.Fits := by
  induction path generalizing members changed with
  | nil => exact hchange members changed h hchanged
  | cons first path ih =>
    rw [descend] at hchanged
    refine fits_update h ?_ ?_ hchanged
    · intro n hn
      obtain ⟨m, hm, rfl⟩ := Option.map_eq_some_iff.1 hn
      exact .table _ (ih fits_nil hm)
    · intro o n ho hn
      cases ho with
      | value _ => cases hn
      | table origin hmembers =>
        obtain ⟨m, hm, rfl⟩ := Option.map_eq_some_iff.1 hn
        exact .table _ (ih hmembers hm)
      | tables hearlier hlast =>
        obtain ⟨m, hm, rfl⟩ := Option.map_eq_some_iff.1 hn
        exact .tables hearlier (ih hlast hm)

theorem fits_assign {v : Toml} (hv : v.Fits) (h : members.Fits)
    (hchanged : members.assign path key v = some changed) : changed.Fits := by
  induction path generalizing members changed with
  | nil =>
    rw [assign] at hchanged
    refine fits_update h ?_ ?_ hchanged
    · intro n hn
      cases hn
      exact .value hv
    · intro o n _ hn
      cases hn
  | cons first path ih =>
    rw [assign] at hchanged
    refine fits_update h ?_ ?_ hchanged
    · intro n hn
      obtain ⟨m, hm, rfl⟩ := Option.map_eq_some_iff.1 hn
      exact .table _ (ih fits_nil hm)
    · intro o n ho hn
      cases ho with
      | value _ => cases hn
      | table origin hmembers =>
        cases origin with
        | header => cases hn
        | dotted =>
          obtain ⟨m, hm, rfl⟩ := Option.map_eq_some_iff.1 hn
          exact .table _ (ih hmembers hm)
        | implicit =>
          obtain ⟨-, hn⟩ := Option.ite_none_left_eq_some.1 hn
          obtain ⟨m, hm, rfl⟩ := Option.map_eq_some_iff.1 hn
          exact .table _ (ih hmembers hm)
      | tables hearlier hlast =>
        obtain ⟨-, hn⟩ := Option.ite_none_left_eq_some.1 hn
        obtain ⟨m, hm, rfl⟩ := Option.map_eq_some_iff.1 hn
        exact .tables hearlier (ih hlast hm)

theorem fits_openTable (h : members.Fits) (hchanged : members.openTable path key = some changed) :
    changed.Fits := by
  refine fits_descend (fun m m' hm hm' => fits_update hm ?_ ?_ hm') h hchanged
  · intro n hn
    cases hn
    exact .table _ fits_nil
  · intro o n ho hn
    cases ho with
    | value _ => cases hn
    | table origin hmembers =>
      cases origin with
      | implicit =>
        cases hn
        exact .table _ hmembers
      | header => cases hn
      | dotted => cases hn
    | tables _ _ => cases hn

theorem fits_openNext (h : members.Fits) (hchanged : members.openNext path key = some changed) :
    changed.Fits := by
  refine fits_descend (fun m m' hm hm' => fits_update hm ?_ ?_ hm') h hchanged
  · intro n hn
    cases hn
    exact .tables (List.forall_mem_nil _) fits_nil
  · intro o n ho hn
    cases ho with
    | value _ => cases hn
    | table _ _ => cases hn
    | tables hearlier hlast =>
      cases hn
      exact .tables (List.forall_mem_append.2 ⟨hearlier, List.forall_mem_singleton.2 hlast⟩)
        fits_nil

end Members

/-! ### Reading -/

namespace Scan

variable {α β : Type} {P : α → Prop} {Q : β → Prop}

/-- Whatever is read has a property. -/
def Gives (x : Scan α) (P : α → Prop) : Prop :=
  ∀ cs a rest, x.run cs = some (a, rest) → P a

theorem gives_pure {a : α} (h : P a) : Gives (pure a) P := by
  intro cs b rest hb
  cases hb
  exact h

theorem gives_failure : Gives failure P := by
  intro cs a rest ha
  cases ha

theorem gives_any (x : Scan α) : Gives x fun _ => True := fun _ _ _ _ => trivial

theorem Gives.bind {x : Scan α} {f : α → Scan β} (hx : Gives x P)
    (hf : ∀ a, P a → Gives (f a) Q) : Gives (x >>= f) Q := by
  intro cs b rest hb
  rw [StateT.run_bind] at hb
  obtain ⟨⟨a, mid⟩, ha, hb⟩ := Option.bind_eq_some_iff.1 hb
  exact hf a (hx cs a mid ha) mid b rest hb

/-- A part of which nothing needs to be known. -/
theorem gives_after {x : Scan α} {f : α → Scan β} (hf : ∀ a, Gives (f a) Q) :
    Gives (x >>= f) Q := (gives_any x).bind fun a _ => hf a

theorem gives_lift {o : Option α} (h : ∀ a, o = some a → P a) : Gives (liftM o) P := by
  intro cs a rest ha
  obtain ⟨b, hb, heq⟩ := Option.bind_eq_some_iff.1 ha
  cases heq
  exact h _ hb

end Scan

open Scan

theorem fits_of_bare? {cs : List Char} {v : Toml} (h : bare? cs = some v) : v.Fits := by
  unfold bare? at h
  split at h
  · cases h
    exact .boolean true
  · split at h
    · cases h
      exact .boolean false
    · split at h
      · obtain ⟨hrange, hv⟩ := Option.ite_none_right_eq_some.1 h
        cases hv
        exact .integer hrange.1 hrange.2
      · obtain ⟨-, hv⟩ := Option.ite_none_right_eq_some.1 h
        cases hv
        exact .float _

section Values

variable {fuel : Nat}

theorem gives_value (hitems : ∀ room, Gives (items room fuel) fun vs => ∀ v ∈ vs, v.Fits)
    (hmembers : ∀ room m, m.Fits → Gives (members room fuel m) Members.Fits) (room : Nat) :
    Gives (value room (fuel + 1)) Toml.Fits := by
  unfold value
  refine gives_after fun basic => ?_
  split
  · exact gives_after fun s => gives_pure (.string s)
  refine gives_after fun literal => ?_
  split
  · exact gives_after fun s => gives_pure (.string s)
  refine gives_after fun array => ?_
  split
  · cases room with
    | zero => exact gives_failure
    | succ room => exact (hitems room).bind fun vs hvs => gives_pure (.array hvs)
  refine gives_after fun table => ?_
  split
  · cases room with
    | zero => exact gives_failure
    | succ room =>
      refine gives_after fun _ => gives_after fun none => ?_
      split
      · exact gives_pure (.table (List.forall_mem_nil _))
      · exact (hmembers room [] Members.fits_nil).bind fun m hm => gives_pure (.table hm.ofMembers)
  · exact gives_after fun cs => gives_lift fun v hv => fits_of_bare? hv

theorem gives_items (hvalue : ∀ room, Gives (value room fuel) Toml.Fits)
    (hitems : ∀ room, Gives (items room fuel) fun vs => ∀ v ∈ vs, v.Fits) (room : Nat) :
    Gives (items room (fuel + 1)) fun vs => ∀ v ∈ vs, v.Fits := by
  unfold items
  refine gives_after fun _ => gives_after fun none => ?_
  split
  · exact gives_pure (List.forall_mem_nil _)
  refine (hvalue room).bind fun v hv => gives_after fun _ => gives_after fun more => ?_
  split
  · exact (hitems room).bind fun vs hvs => gives_pure (List.forall_mem_cons.2 ⟨hv, hvs⟩)
  · exact gives_after fun _ => gives_pure (List.forall_mem_singleton.2 hv)

theorem gives_members (hassignment : ∀ room, Gives (assignment room fuel) fun a => a.2.2.Fits)
    (hmembers : ∀ room m, m.Fits → Gives (members room fuel m) Members.Fits) (room : Nat)
    {m : Members} (hm : m.Fits) : Gives (members room (fuel + 1) m) Members.Fits := by
  unfold members
  refine (hassignment room).bind fun a ha => ?_
  refine (gives_lift fun m' hm' => Members.fits_assign ha hm hm').bind fun m' hm' => ?_
  refine gives_after fun _ => gives_after fun more => ?_
  split
  · exact gives_after fun _ => hmembers room m' hm'
  · exact gives_after fun _ => gives_pure hm'

theorem gives_assignment (hvalue : ∀ room, Gives (value room fuel) Toml.Fits) (room : Nat) :
    Gives (assignment room (fuel + 1)) fun a => a.2.2.Fits := by
  unfold assignment
  refine gives_after fun _ => gives_after fun _ => gives_after fun _ => ?_
  exact (hvalue room).bind fun v hv => gives_pure hv

/-- The four readers call each other with less fuel. -/
theorem gives_fits (fuel : Nat) :
    (∀ room, Gives (value room fuel) Toml.Fits) ∧
    (∀ room, Gives (items room fuel) fun vs => ∀ v ∈ vs, v.Fits) ∧
    (∀ room m, m.Fits → Gives (members room fuel m) Members.Fits) ∧
    ∀ room, Gives (assignment room fuel) fun a => a.2.2.Fits := by
  induction fuel with
  | zero =>
    refine ⟨fun room => ?_, fun room => ?_, fun room m _ => ?_, fun room => ?_⟩
    · rw [value]
      exact gives_failure
    · rw [items]
      exact gives_failure
    · rw [members]
      exact gives_failure
    · rw [assignment]
      exact gives_failure
  | succ fuel ih =>
    obtain ⟨hvalue, hitems, hmembers, hassignment⟩ := ih
    exact ⟨gives_value hitems hmembers, gives_items hvalue hitems,
      fun room m hm => gives_members hassignment hmembers room hm, gives_assignment hvalue⟩

end Values

/-! ### Documents -/

/-- All integers that have been read so far have 64 bits. -/
def Draft.Fits (d : Draft) : Prop := d.root.Fits

variable {d : Draft}

theorem gives_header (h : d.Fits) : Gives (header d) Draft.Fits := by
  unfold header
  refine gives_after fun _ => gives_after fun isArray => gives_after fun _ => ?_
  refine gives_after fun name => gives_after fun _ => ?_
  dsimp only
  split
  · refine gives_after fun _ => ?_
    exact (gives_lift fun root hroot => Members.fits_openNext h hroot).bind
      fun root hroot => gives_pure hroot
  · exact (gives_lift fun root hroot => Members.fits_openTable h hroot).bind
      fun root hroot => gives_pure hroot

theorem gives_keyValue (fuel : Nat) (h : d.Fits) : Gives (keyValue fuel d) Draft.Fits := by
  unfold keyValue
  refine ((gives_fits fuel).2.2.2 maxDepth).bind fun a ha => ?_
  refine (gives_lift fun root hroot => ?_).bind fun root hroot => gives_pure hroot
  exact Members.fits_descend (fun m m' hm hm' => Members.fits_assign ha hm hm') h hroot

theorem gives_lines (fuel : Nat) (h : d.Fits) : Gives (lines fuel d) Draft.Fits := by
  induction fuel generalizing d with
  | zero =>
    rw [lines]
    exact gives_failure
  | succ fuel ih =>
    have hrest (d : Draft) (hd : d.Fits) : Gives (do
        blanks
        comment
        if (← peek).isNone then return d
        newline
        lines fuel d : Scan Draft) Draft.Fits := by
      refine gives_after fun _ => gives_after fun _ => gives_after fun next => ?_
      split
      · exact gives_pure hd
      · exact gives_after fun _ => ih hd
    have hsame : Gives (pure d) Draft.Fits := gives_pure h
    unfold lines
    refine gives_after fun _ => gives_after fun next => ?_
    dsimp only
    split
    · exact hsame.bind hrest
    · exact hsame.bind hrest
    · exact hsame.bind hrest
    · exact hsame.bind hrest
    · exact (gives_header h).bind hrest
    · exact (gives_keyValue fuel h).bind hrest

theorem bounded_parse? : Parser.Bounded parse? := by
  intro s document h
  unfold parse? at h
  obtain ⟨d, hd, rfl⟩ := Option.map_eq_some_iff.1 h
  obtain ⟨⟨d', rest⟩, hrun, hd'⟩ := Option.map_eq_some_iff.1 hd
  cases hd'
  have hempty : Draft.Fits ⟨[], []⟩ := Members.fits_nil
  have hfits : Draft.Fits d' := gives_lines _ hempty _ _ _ hrun
  exact hfits.ofMembers

end StatusBoard.Toml
