import Mathlib.Data.List.Nodup
import StatusBoard.Proofs.Json.RoundTrip

/-!
# Written records read back

A reader restores what a writer wrote (`Json.Restores`) if every written value is read as the value
it was written for and is spelled so that its text is read as it.  Texts, truth values, integers and
lists are restored, and the fields of a record are the members it was written with.
-/

namespace StatusBoard.Json

/-- Whatever `write` writes is read from its text, and `read` reads it back. -/
structure Restores {α : Type} (write : α → Json) (read : Json → Option α) : Prop where
  plain : ∀ a, (write a).Plain
  read_write : ∀ a, read (write a) = some a

/-- A document is read back from its text. -/
theorem Restores.parse?_render {α : Type} {write : α → Json} {read : Json → Option α}
    (h : Restores write read) (a : α) : (parse? (write a).render).bind read = some a := by
  rw [Json.parse?_render (h.plain a)]
  exact h.read_write a

/-! ### Values -/

theorem restores_text : Restores ofString text? := ⟨.string, text?_ofString⟩

theorem restores_bool : Restores bool bool? := ⟨.bool, fun _ => rfl⟩

theorem Restores.list {α : Type} {write : α → Json} {read : Json → Option α}
    (h : Restores write read) : Restores (fun l : List α => array (l.map write)) (list? read) :=
  ⟨fun _ => .array (List.forall_mem_map.2 fun a _ => h.plain a), list?_array h.read_write⟩

/-- The spelling of an integer is read as that integer. -/
theorem integer?_toString (i : Int) : integer? (toString i).toList = some i := by
  cases i with
  | ofNat n =>
    rw [Text.toList_toString_ofNat]
    unfold integer?
    split
    · next digits hsign =>
      have hminus : '-' ∈ Text.numeral 10 n := hsign ▸ List.mem_cons_self
      exact absurd (Text.isDigit_of_mem_numeral hminus) (by decide)
    · rw [Text.numeral?_numeral (by decide) (by decide), Option.map_some]
  | negSucc n =>
    rw [Text.toList_toString_negSucc, integer?, Text.numeral?_numeral (by decide) (by decide),
      Option.bind_some, if_neg (Nat.succ_ne_zero n)]
    rfl

theorem int?_ofInt {low high i : Int} (hlow : low ≤ i) (hhigh : i < high) :
    (ofInt i).int? low high = some i := by
  rw [ofInt, int?, integer?_toString]
  simp [hlow, hhigh]

theorem restores_int32 : Restores (fun n : Int32 => ofInt n.toInt) int32? where
  plain n := .int n.toInt
  read_write n := by
    rw [int32?, int?_ofInt n.minValue_le_toInt (Int.lt_add_one_of_le n.toInt_le), Option.map_some,
      Int32.ofInt_toInt]

theorem ofNat_eq_ofInt (n : Nat) : ofNat n = ofInt n := rfl

theorem restores_uint32 : Restores (fun n : UInt32 => ofNat n.toNat) uint32? where
  plain n := .int n.toNat
  read_write n := by
    have hbound : (n.toNat : Int) < .ofNat UInt32.size := Int.ofNat_lt.2 n.toNat_lt_size
    rw [uint32?, ofNat_eq_ofInt, int?_ofInt (Int.natCast_nonneg _) hbound, Option.map_some,
      Int.toNat_natCast, Nat.toUInt32_eq, UInt32.ofNat_toNat]

theorem restores_uint64 : Restores (fun n : UInt64 => ofNat n.toNat) uint64? where
  plain n := .int n.toNat
  read_write n := by
    have hbound : (n.toNat : Int) < .ofNat UInt64.size := Int.ofNat_lt.2 n.toNat_lt_size
    rw [uint64?, ofNat_eq_ofInt, int?_ofInt (Int.natCast_nonneg _) hbound, Option.map_some,
      Int.toNat_natCast, Nat.toUInt64_eq, UInt64.ofNat_toNat]

/-! ### Records -/

theorem namedMembers?_ofText (members : List (String × Json)) :
    namedMembers? (members.map fun m => (.ofText m.1, m.2)) = some members := by
  rw [namedMembers?]
  induction members with
  | nil => rfl
  | cons m rest ih => simp [Literal.text?_ofText, ih]

/-- The fields of a record are its members, if no two of them have the same name. -/
theorem fields?_ofMembers {members : List (String × Json)} (h : (members.map Prod.fst).Nodup)
    (names : List String) :
    (ofMembers members).fields? names = some fun n => members.lookup n := by
  have honce (n : String) : (members.filter (·.1 = n)).length ≤ 1 := by
    have hcount := List.nodup_iff_count_le_one.1 h n
    rwa [List.count_eq_length_filter, List.filter_map, List.length_map] at hcount
  have hall : names.all (fun n => (members.filter (·.1 = n)).length ≤ 1) := by
    simp [honce]
  rw [ofMembers, fields?, namedMembers?_ofText]
  exact if_pos hall

/-- A record is restored if its fields are, and if no two of its members have the same name. -/
theorem restores_ofMembers {α : Type} (members : α → List (String × Json)) {names : List String}
    {read : Fields → Option α} (hplain : ∀ a, ∀ m ∈ members a, m.2.Plain)
    (hnames : ∀ a, ((members a).map Prod.fst).Nodup)
    (hread : ∀ a, read (fun n => (members a).lookup n) = some a) :
    Restores (fun a => ofMembers (members a)) fun j => (j.fields? names).bind read where
  plain a := .object (hplain a)
  read_write a := by
    rw [fields?_ofMembers (hnames a), Option.bind_some]
    exact hread a

section Fields

variable {α : Type} {write : α → Json} {read : Json → Option α}

theorem Restores.required (h : Restores write read) (a : α) :
    required read (some (write a)) = some a := h.read_write a

theorem Restores.withDefault (h : Restores write read) (default a : α) :
    withDefault default read (some (write a)) = some a := h.read_write a

/-- An optional field that is written if it has a value. -/
theorem Restores.nullable (h : Restores write read) (hnull : ∀ a, write a ≠ null)
    (value : Option α) : nullable read (value.map write) = some value := by
  cases value with
  | none => rfl
  | some a =>
    rw [Option.map_some, Json.nullable]
    · rw [h.read_write, Option.map_some]
    · exact hnull a

theorem lookup_optional (name n : String) (write : α → Json) (value : Option α) :
    (value.toList.map fun a => (name, write a)).lookup n =
      if n = name then value.map write else none := by
  cases value with
  | none => simp
  | some a =>
    by_cases hn : n = name
    · simp [hn]
    · simp [List.lookup_cons, beq_false_of_ne hn, hn]

end Fields

end StatusBoard.Json
