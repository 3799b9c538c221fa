import Mathlib.Data.List.Perm.Basic
import StatusBoard.Json.Record

/-!
# The fields of a record

In an object, a field is the one member with its name (`Json.fields?_of_readable`), and in an array
it is the item at its place (`Json.lookup_zip`).
-/

namespace StatusBoard.Json

/-! ### Objects -/

/-- The members with a name. -/
def membersNamed (n : String) (members : List (Literal × Json)) : List (Literal × Json) :=
  members.filter fun m => m.1.text? = some n

/-- The value of the first member with a name. -/
def memberValue? (members : List (Literal × Json)) (n : String) : Option Json :=
  (membersNamed n members).head?.map Prod.snd

/-- The names of the members are texts, and each of these names occurs once at most. -/
structure Readable (names : List String) (members : List (Literal × Json)) : Prop where
  texts : ∀ m ∈ members, m.1.text?.isSome
  once : ∀ n ∈ names, (membersNamed n members).length ≤ 1

variable {names : List String} {members : List (Literal × Json)}

theorem isSome_namedMembers? :
    (namedMembers? members).isSome ↔ ∀ m ∈ members, m.1.text?.isSome := by
  rw [namedMembers?]
  induction members with
  | nil => simp
  | cons m rest ih =>
    rw [List.forall_mem_cons, ← ih, List.mapM_cons]
    cases m.1.text? <;> cases rest.mapM fun m : Literal × Json => m.1.text?.map (·, m.2) <;> simp

theorem filter_namedMembers? {named : List (String × Json)} (h : namedMembers? members = some named)
    (n : String) :
    named.filter (·.1 = n) = (membersNamed n members).map fun m => (n, m.2) := by
  rw [namedMembers?] at h
  induction members generalizing named with
  | nil =>
    cases h
    rfl
  | cons m rest ih =>
    rw [List.mapM_cons] at h
    obtain ⟨first, hfirst, h⟩ := Option.bind_eq_some_iff.1 h
    obtain ⟨others, hothers, h⟩ := Option.bind_eq_some_iff.1 h
    obtain ⟨name, hname, rfl⟩ := Option.map_eq_some_iff.1 hfirst
    cases h
    by_cases hn : name = n
    · subst hn
      simp [membersNamed, hname, ih hothers]
    · simp [membersNamed, hname, hn, ih hothers]

theorem lookup_eq_head?_filter (named : List (String × Json)) (n : String) :
    named.lookup n = (named.filter (·.1 = n)).head?.map Prod.snd := by
  induction named with
  | nil => rfl
  | cons m rest ih =>
    obtain ⟨name, v⟩ := m
    by_cases hn : name = n
    · simp [hn]
    · rw [List.lookup_cons, beq_false_of_ne (Ne.symm hn),
        List.filter_cons_of_neg (by simpa using hn)]
      exact ih

theorem fields?_of_namedMembers? {named : List (String × Json)}
    (h : namedMembers? members = some named) (names : List String) :
    (object members).fields? names =
      if names.all fun n => (membersNamed n members).length ≤ 1 then
        some (memberValue? members) else none := by
  have hlength (n : String) :
      (named.filter (·.1 = n)).length = (membersNamed n members).length := by
    rw [filter_namedMembers? h, List.length_map]
  have hvalue (n : String) : named.lookup n = memberValue? members n := by
    rw [lookup_eq_head?_filter, filter_namedMembers? h, memberValue?, List.head?_map,
      Option.map_map]
    rfl
  rw [fields?, h]
  change (if names.all fun n => (named.filter (·.1 = n)).length ≤ 1 then
    some fun n => named.lookup n else none) = _
  simp only [hlength, hvalue]

/-- The fields of a record that is written as an object. -/
theorem fields?_of_readable (h : Readable names members) :
    (object members).fields? names = some (memberValue? members) := by
  obtain ⟨named, hnamed⟩ := Option.isSome_iff_exists.1 (isSome_namedMembers?.2 h.texts)
  have hall : names.all fun n => (membersNamed n members).length ≤ 1 :=
    List.all_eq_true.2 fun n hn => decide_eq_true (h.once n hn)
  rw [fields?_of_namedMembers? hnamed, if_pos hall]

theorem fields?_of_not_readable (h : ¬ Readable names members) :
    (object members).fields? names = none := by
  cases hnamed : namedMembers? members with
  | none =>
    rw [fields?, hnamed]
    rfl
  | some named =>
    have htexts : ∀ m ∈ members, m.1.text?.isSome :=
      isSome_namedMembers?.1 (by rw [hnamed]; rfl)
    rw [fields?_of_namedMembers? hnamed, if_neg]
    intro hall
    exact h ⟨htexts, fun n hn => of_decide_eq_true (List.all_eq_true.1 hall n hn)⟩

/-! ### Changes to an object -/

section

variable {before after : List (Literal × Json)} {name : Literal} {v : Json} {n : String}

theorem membersNamed_append (n : String) (before after : List (Literal × Json)) :
    membersNamed n (before ++ after) = membersNamed n before ++ membersNamed n after :=
  List.filter_append before after

theorem membersNamed_of_eq (h : name.text? = some n) :
    membersNamed n (before ++ (name, v) :: after) =
      membersNamed n before ++ (name, v) :: membersNamed n after := by
  rw [membersNamed_append]
  simp [membersNamed, h]

theorem membersNamed_of_ne (h : name.text? ≠ some n) :
    membersNamed n (before ++ (name, v) :: after) = membersNamed n (before ++ after) := by
  rw [membersNamed_append, membersNamed_append]
  simp [membersNamed, h]

/-- A member says nothing about fields with other names. -/
theorem memberValue?_of_ne {m : String} (hname : name.text? = some n) (hm : m ≠ n) :
    memberValue? (before ++ (name, v) :: after) m = memberValue? (before ++ after) m := by
  have hne : name.text? ≠ some m := by
    rw [hname, Ne, Option.some.injEq]
    exact Ne.symm hm
  rw [memberValue?, membersNamed_of_ne hne, memberValue?]

/-- The value of the only member with a name. -/
theorem Readable.memberValue?_of_eq (h : Readable names (before ++ (name, v) :: after))
    (hn : n ∈ names) (hname : name.text? = some n) :
    membersNamed n (before ++ after) = [] ∧
      memberValue? (before ++ (name, v) :: after) n = some v := by
  have honce := h.once n hn
  rw [membersNamed_of_eq hname, List.length_append, List.length_cons] at honce
  have hbefore : membersNamed n before = [] := List.length_eq_zero_iff.1 (by omega)
  have hafter : membersNamed n after = [] := List.length_eq_zero_iff.1 (by omega)
  rw [membersNamed_append, memberValue?, membersNamed_of_eq hname, hbefore, hafter]
  exact ⟨rfl, rfl⟩

theorem Readable.remove (h : Readable names (before ++ (name, v) :: after)) :
    Readable names (before ++ after) where
  texts m hm := by
    refine h.texts m ?_
    rw [List.mem_append] at hm ⊢
    exact hm.imp_right (List.mem_cons_of_mem _)
  once n hn := by
    refine Nat.le_trans (List.Sublist.length_le ?_) (h.once n hn)
    exact List.Sublist.filter _ ((List.sublist_cons_self _ _).append_left before)

/-- A member may come in if its name is none of the names or does not occur. -/
theorem Readable.insert (h : Readable names (before ++ after)) (hname : name.text? = some n)
    (habsent : n ∈ names → membersNamed n (before ++ after) = []) (v : Json) :
    Readable names (before ++ (name, v) :: after) where
  texts := by
    have htexts := h.texts
    rw [List.forall_mem_append] at htexts ⊢
    rw [List.forall_mem_cons]
    exact ⟨htexts.1, by rw [hname]; rfl, htexts.2⟩
  once m hm := by
    by_cases heq : name.text? = some m
    · obtain rfl := Option.some.inj (hname.symm.trans heq)
      have habsent := habsent hm
      rw [membersNamed_append, List.append_eq_nil_iff] at habsent
      rw [membersNamed_of_eq hname, habsent.1, habsent.2]
      exact Nat.le_refl 1
    · rw [membersNamed_of_ne heq]
      exact h.once m hm

/-- Another value of the same member. -/
theorem readable_replace (w : Json) (h : Readable names (before ++ (name, v) :: after)) :
    Readable names (before ++ (name, w) :: after) where
  texts := by
    have htexts := h.texts
    simp only [List.forall_mem_append, List.forall_mem_cons] at htexts ⊢
    exact htexts
  once n hn := by
    have honce := h.once n hn
    by_cases heq : name.text? = some n
    · rw [membersNamed_of_eq heq, List.length_append, List.length_cons] at honce ⊢
      exact honce
    · rwa [membersNamed_of_ne heq] at honce ⊢

end

theorem membersNamed_perm {members' : List (Literal × Json)} (h : members.Perm members')
    (n : String) : (membersNamed n members).Perm (membersNamed n members') := h.filter _

/-- The order of the members does not matter. -/
theorem Readable.perm {members' : List (Literal × Json)} (h : Readable names members)
    (hperm : members.Perm members') : Readable names members' where
  texts m hm := h.texts m (hperm.mem_iff.2 hm)
  once n hn := by
    rw [← (membersNamed_perm hperm n).length_eq]
    exact h.once n hn

theorem Readable.memberValue?_perm {members' : List (Literal × Json)} (h : Readable names members)
    (hperm : members.Perm members') {n : String} (hn : n ∈ names) :
    memberValue? members n = memberValue? members' n := by
  have hfilter := membersNamed_perm hperm n
  rw [memberValue?, memberValue?]
  rcases Nat.le_one_iff_eq_zero_or_eq_one.1 (h.once n hn) with hlength | hlength
  · rw [List.length_eq_zero_iff] at hlength
    rw [hlength, List.nil_perm] at hfilter
    rw [hlength, hfilter]
  · obtain ⟨m, hm⟩ := List.length_eq_one_iff.1 hlength
    rw [hm, List.singleton_perm] at hfilter
    rw [hm, hfilter]

/-! ### Arrays -/

/-- The item at the place of a name. -/
theorem lookup_zip (hnames : names.Nodup) (items : List Json) {i : Nat} {n : String}
    (hi : names[i]? = some n) : (names.zip items).lookup n = items[i]? := by
  induction names generalizing items i with
  | nil => cases hi
  | cons first names ih =>
    obtain ⟨hfirst, hrest⟩ := List.nodup_cons.1 hnames
    cases items with
    | nil => rfl
    | cons v items =>
      cases i with
      | zero =>
        cases hi
        simp
      | succ i =>
        have hi : names[i]? = some n := hi
        have hne : n ≠ first := by
          rintro rfl
          exact hfirst (List.mem_of_getElem? hi)
        rw [List.zip_cons_cons, List.lookup_cons, beq_false_of_ne hne]
        exact ih hrest items hi

/-- Another item leaves the items at other places as they are. -/
theorem getElem?_append_cons_of_ne (before after : List Json) (v w : Json) {i : Nat}
    (h : i ≠ before.length) : (before ++ v :: after)[i]? = (before ++ w :: after)[i]? := by
  rcases Nat.lt_or_gt_of_ne h with hi | hi
  · rw [List.getElem?_append_left hi, List.getElem?_append_left hi]
  · obtain ⟨k, rfl⟩ := Nat.exists_eq_add_of_lt hi
    simp [List.getElem?_append_right, Nat.add_assoc]

/-! ### Lists -/

section

variable {α : Type} {read : Json → Option α} {v w : Json}

theorem list?_congr (before after : List Json) (h : read v = read w) :
    (array (before ++ v :: after)).list? read = (array (before ++ w :: after)).list? read := by
  simp [list?, h]

theorem list?_eq_none (before after : List Json) (h : read v = none) :
    (array (before ++ v :: after)).list? read = none := by
  simp [list?, h]

end

end StatusBoard.Json
