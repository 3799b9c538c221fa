/-!
# Keyed tables

A table holds rows under unique keys, in ascending key order.  The order is part of the type, so
two tables with the same look-ups are equal (`Table.ext_find?`), and every operation is described
by what a look-up finds afterwards (`find?_insert`, `find?_filter`, `find?_erase`).
-/

namespace StatusBoard

/-- Rows in strictly ascending key order; a key occurs at most once. -/
structure Table (κ α : Type) [Ord κ] where
  rows : List (κ × α)
  ascending : rows.Pairwise fun a b => compare a.1 b.1 = .lt

namespace Table

variable {κ α β : Type} [Ord κ]

/-- Two tables with the same rows are the same table. -/
@[ext]
theorem ext {t u : Table κ α} (h : t.rows = u.rows) : t = u := by
  cases t; cases u; simp_all

instance [DecidableEq κ] [DecidableEq α] : DecidableEq (Table κ α) := fun t u =>
  decidable_of_iff (t.rows = u.rows) ⟨Table.ext, fun h => h ▸ rfl⟩

/-- The table without rows. -/
def empty : Table κ α := ⟨[], .nil⟩

instance : Inhabited (Table κ α) := ⟨empty⟩

/-- Look a key up in a list of rows. -/
def lookup (k : κ) : List (κ × α) → Option α
  | [] => none
  | (k', a) :: rest => if compare k k' = .eq then some a else lookup k rest

/-- The value stored under a key. -/
def find? (t : Table κ α) (k : κ) : Option α := lookup k t.rows

/-- Whether a key has a row. -/
def contains (t : Table κ α) (k : κ) : Bool := (t.find? k).isSome

/-- How many rows the table has. -/
def size (t : Table κ α) : Nat := t.rows.length

/-- The keys, ascending. -/
def keys (t : Table κ α) : List κ := t.rows.map Prod.fst

/-- The values, in the order of their keys. -/
def values (t : Table κ α) : List α := t.rows.map Prod.snd

/-- Keep the rows that satisfy a condition. -/
def filter (keep : κ → α → Bool) (t : Table κ α) : Table κ α :=
  ⟨t.rows.filter fun r => keep r.1 r.2, t.ascending.filter _⟩

/-- Drop the row of a key, if there is one. -/
def erase (t : Table κ α) (k : κ) : Table κ α :=
  t.filter fun k' _ => compare k k' != .eq

/-- Put a row into a list of rows, in the place of the row of the same key if there is one. -/
def place (k : κ) (a : α) : List (κ × α) → List (κ × α)
  | [] => [(k, a)]
  | (k', b) :: rest =>
    match compare k k' with
    | .lt => (k, a) :: (k', b) :: rest
    | .eq => (k, a) :: rest
    | .gt => (k', b) :: place k a rest

theorem mem_place {k : κ} {a : α} {l : List (κ × α)} {r : κ × α} (h : r ∈ place k a l) :
    r = (k, a) ∨ r ∈ l := by
  induction l with
  | nil => simpa [place] using h
  | cons hd tl ih =>
    obtain ⟨k', b⟩ := hd
    rw [place] at h
    split at h
    · simpa using h
    · rcases List.mem_cons.1 h with h | h
      · exact .inl h
      · exact .inr (List.mem_cons_of_mem _ h)
    · rcases List.mem_cons.1 h with h | h
      · exact .inr (h ▸ List.mem_cons_self)
      · exact (ih h).imp_right (List.mem_cons_of_mem _)

@[simp]
theorem find?_empty (k : κ) : (empty : Table κ α).find? k = none := rfl

/-! ### What a look-up finds -/

section Lookup

variable [Std.LawfulEqOrd κ]

theorem lookup_cons [DecidableEq κ] (k k' : κ) (a : α) (l : List (κ × α)) :
    lookup k' ((k, a) :: l) = if k' = k then some a else lookup k' l := by
  simp [lookup, Std.LawfulEqCmp.compare_eq_iff_eq]

/-- A key that a list does not name is not found in it. -/
theorem lookup_of_notMem {k : κ} {l : List (κ × α)} (h : k ∉ l.map Prod.fst) :
    lookup k l = none := by
  induction l with
  | nil => rfl
  | cons hd tl ih =>
    obtain ⟨k', b⟩ := hd
    rw [List.map_cons, List.mem_cons, not_or] at h
    have hne : compare k k' ≠ .eq := fun heq => h.1 (Std.LawfulEqCmp.compare_eq_iff_eq.1 heq)
    rw [lookup, if_neg hne, ih h.2]

theorem lookup_place [DecidableEq κ] (k k' : κ) (a : α) (l : List (κ × α)) :
    lookup k' (place k a l) = if k' = k then some a else lookup k' l := by
  induction l with
  | nil => simp [place, lookup, Std.LawfulEqCmp.compare_eq_iff_eq]
  | cons hd tl ih =>
    obtain ⟨k₀, b⟩ := hd
    rw [place]
    split
    next => simp [lookup, Std.LawfulEqCmp.compare_eq_iff_eq]
    next heq =>
      obtain rfl := Std.LawfulEqCmp.compare_eq_iff_eq.1 heq
      by_cases h : k' = k <;> simp [lookup, Std.LawfulEqCmp.compare_eq_iff_eq, h]
    next hgt =>
      by_cases h : k' = k₀
      · subst h
        have : k' ≠ k := by rintro rfl; simp at hgt
        simp [lookup, this]
      · simp [lookup, Std.LawfulEqCmp.compare_eq_iff_eq, h, ih]

theorem lookup_eq_some_iff {k : κ} {a : α} {l : List (κ × α)}
    (h : l.Pairwise fun x y => compare x.1 y.1 = .lt) :
    lookup k l = some a ↔ (k, a) ∈ l := by
  induction l with
  | nil => simp [lookup]
  | cons hd tl ih =>
    obtain ⟨k', b⟩ := hd
    rw [List.pairwise_cons] at h
    by_cases hk : k = k'
    · subst hk
      simp only [lookup, Std.ReflCmp.compare_self, if_true, Option.some.injEq, List.mem_cons,
        Prod.mk.injEq, true_and]
      refine ⟨fun e => .inl e.symm, fun e => e.elim Eq.symm fun hm => ?_⟩
      have := h.1 _ hm
      simp at this
    · simp [lookup, Std.LawfulEqCmp.compare_eq_iff_eq, hk, ih h.2]

/-- A look-up finds exactly the rows of the table. -/
theorem find?_eq_some_iff {t : Table κ α} {k : κ} {a : α} :
    t.find? k = some a ↔ (k, a) ∈ t.rows :=
  lookup_eq_some_iff t.ascending

theorem contains_iff {t : Table κ α} {k : κ} : t.contains k = true ↔ ∃ a, (k, a) ∈ t.rows := by
  simp [contains, Option.isSome_iff_exists, find?_eq_some_iff]

theorem mem_keys {t : Table κ α} {k : κ} : k ∈ t.keys ↔ t.contains k := by
  simp [keys, contains_iff]

/-- Filtering hides exactly the rows that fail the condition. -/
theorem find?_filter (t : Table κ α) (keep : κ → α → Bool) (k : κ) :
    (t.filter keep).find? k = (t.find? k).filter (keep k) := by
  apply Option.ext
  intro a
  rw [find?_eq_some_iff, Option.filter_eq_some_iff, find?_eq_some_iff]
  simp [filter]

/-- Filtering by key hides the keys that fail the condition and no others. -/
theorem find?_filter_key (t : Table κ α) (keep : κ → Bool) (k : κ) :
    (t.filter fun k' _ => keep k').find? k = if keep k then t.find? k else none := by
  rw [find?_filter]
  cases t.find? k <;> cases keep k <;> simp [Option.filter]

/-- An erased key holds nothing and every other key what it held before. -/
theorem find?_erase [DecidableEq κ] (t : Table κ α) (k k' : κ) :
    (t.erase k).find? k' = if k' = k then none else t.find? k' := by
  rw [erase, find?_filter]
  by_cases h : k' = k
  · subst h
    cases t.find? k' <;> simp [Option.filter]
  · have : compare k k' ≠ .eq := fun e => h (Std.LawfulEqCmp.compare_eq_iff_eq.1 e).symm
    cases t.find? k' <;> simp [Option.filter, h, this]

theorem contains_erase [DecidableEq κ] (t : Table κ α) (k k' : κ) :
    (t.erase k).contains k' = (k' ≠ k && t.contains k') := by
  rw [contains, find?_erase]
  by_cases h : k' = k <;> simp [h, contains]

end Lookup

/-- No key occurs twice. -/
theorem nodup_keys [Std.ReflOrd κ] (t : Table κ α) : t.keys.Nodup := by
  rw [keys, List.Nodup, List.pairwise_map]
  refine t.ascending.imp fun {r r'} h heq => ?_
  simp [heq] at h

/-! ### Insertion -/

variable [Std.TransOrd κ]

theorem place_ascending {k : κ} {a : α} {l : List (κ × α)}
    (h : l.Pairwise fun x y => compare x.1 y.1 = .lt) :
    (place k a l).Pairwise fun x y => compare x.1 y.1 = .lt := by
  induction l with
  | nil => simp [place]
  | cons hd tl ih =>
    obtain ⟨k', b⟩ := hd
    rw [List.pairwise_cons] at h
    rw [place]
    split
    next hlt =>
      refine .cons (fun r hr => ?_) (.cons h.1 h.2)
      rcases List.mem_cons.1 hr with rfl | hr
      · exact hlt
      · exact Std.TransCmp.lt_trans hlt (h.1 r hr)
    next heq => exact .cons (fun r hr => Std.TransCmp.lt_of_eq_of_lt heq (h.1 r hr)) h.2
    next hgt =>
      refine .cons (fun r hr => ?_) (ih h.2)
      rcases mem_place hr with rfl | hr
      · exact Std.OrientedCmp.gt_iff_lt.1 hgt
      · exact h.1 r hr

/-- Store a value under a key, replacing the value that was there. -/
def insert (t : Table κ α) (k : κ) (a : α) : Table κ α :=
  ⟨place k a t.rows, place_ascending t.ascending⟩

/-- Store the rows of a list one after the other; of equal keys the last one stays. -/
def ofList (rows : List (κ × α)) : Table κ α :=
  rows.foldl (fun t r => t.insert r.1 r.2) empty

variable [Std.LawfulEqOrd κ]

/-- After an insertion the key holds the new value and every other key what it held before. -/
theorem find?_insert [DecidableEq κ] (t : Table κ α) (k k' : κ) (a : α) :
    (t.insert k a).find? k' = if k' = k then some a else t.find? k' :=
  lookup_place k k' a t.rows

theorem contains_insert [DecidableEq κ] (t : Table κ α) (k k' : κ) (a : α) :
    (t.insert k a).contains k' = (k' = k || t.contains k') := by
  rw [contains, find?_insert]
  by_cases h : k' = k <;> simp [h, contains]

/-- Rows in ascending key order are determined by their members. -/
theorem rows_ext {l₁ l₂ : List (κ × α)} (h₁ : l₁.Pairwise fun x y => compare x.1 y.1 = .lt)
    (h₂ : l₂.Pairwise fun x y => compare x.1 y.1 = .lt) (h : ∀ r, r ∈ l₁ ↔ r ∈ l₂) : l₁ = l₂ :=
  have nodup {l : List (κ × α)} (hl : l.Pairwise fun x y => compare x.1 y.1 = .lt) : l.Nodup :=
    hl.imp fun {x y} hxy => by rintro rfl; simp at hxy
  ((List.perm_ext_iff_of_nodup (nodup h₁) (nodup h₂)).2 h).eq_of_pairwise
    (fun _ _ _ _ hxy hyx => by have := Std.TransCmp.lt_trans hxy hyx; simp at this) h₁ h₂

/-- Tables in which every look-up finds the same are equal. -/
theorem ext_find? {t u : Table κ α} (h : ∀ k, t.find? k = u.find? k) : t = u :=
  Table.ext <| rows_ext t.ascending u.ascending fun ⟨k, a⟩ => by
    rw [← find?_eq_some_iff, ← find?_eq_some_iff, h]

end Table

end StatusBoard
