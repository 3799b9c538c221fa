import Mathlib.Logic.Relation
import StatusBoard.Proofs.Json.Accepted
import StatusBoard.Proofs.MasterList.Document
import StatusBoard.Proofs.MasterList.Fields

/-!
# How a master list is written does not matter

A `Place` is a way into a document, to one of the records in it.  There the members of an object may
change their order, unknown members may be inserted, and members that say what is the default may be
dropped or written out (`Edit`).  Neither this nor blanks and escapes change what the document is
read as (`MasterList.presentation_ignored`).  A known member may not occur twice.
-/

namespace StatusBoard.MasterList

open Json (Literal list? membersNamed memberValue? Readable)

/-! ### Values inside a field -/

/-- A field is read through a value inside it: it is read alike if that value is, and not at all if
that value is not. -/
structure Field.Holds {α : Type} (f : Field) (fill : Json → Json) (read : Json → Option α) :
    Prop where
  congr : ∀ v w, read v = read w → f.SameRead (some (fill v)) (some (fill w))
  strict : ∀ v, read v = none → ¬ f.Reads (some (fill v))

section

variable {α : Type} (name : String) (readValue : Json → Option α)

theorem Field.Holds.plain (default : α) :
    (Field.plain name readValue default).Holds id readValue where
  congr _ _ h := h
  strict v h := by simp [Json.withDefault, h]

theorem Field.Holds.needed : (Field.needed name readValue).Holds id readValue where
  congr _ _ h := h
  strict v h := by simp [Json.required, h]

theorem Field.Holds.list (default : List α) (before after : List Json) :
    (Field.plain name (list? readValue) default).Holds (fun v => .array (before ++ v :: after))
      readValue where
  congr _ _ h := Json.list?_congr before after h
  strict v h := by simp [Json.withDefault, Json.list?_eq_none before after h]

end

/-- A field of a record in which there is another record, and what stands around that one. -/
inductive Spot : Part → Part → Type
  | server (before after : List Json) : Spot .list .entry
  | info : Spot .entry .info
  | map : Spot .info .map
  | client (before after : List Json) : Spot .info .client

namespace Spot

variable {p q : Part}

def fieldName : Spot p q → String
  | server .. => "servers"
  | info => "info"
  | map => "map"
  | client .. => "clients"

/-- The value of the field. -/
def fill : Spot p q → Json → Json
  | server before after, v | client before after, v => .array (before ++ v :: after)
  | info, v | map, v => v

theorem exists_field (spot : Spot p q) :
    ∃ f ∈ p.fields, f.name = spot.fieldName ∧ f.Holds spot.fill q.ofJson? := by
  cases spot with
  | server before after =>
    exact ⟨.plain "servers" (list? ListEntry.ofJson?) [], by simp [Part.fields], rfl, .list ..⟩
  | info => exact ⟨.needed "info" ServerInfo.ofJson?, by simp [Part.fields], rfl, .needed ..⟩
  | map =>
    exact ⟨.plain "map" MapInfo.ofJson? ⟨"", none, none⟩, by simp [Part.fields], rfl, .plain ..⟩
  | client before after =>
    exact ⟨.plain "clients" (list? Client.ofJson?) [], by simp [Part.fields], rfl, .list ..⟩

end Spot

/-! ### Fields inside a record -/

/-- What stands around the field of a name in a record, which may be written as an object or as an
array. -/
inductive Around (p : Part) (n : String)
  | object (before after : List (Literal × Json)) (name : Literal) (hname : name.text? = some n)
  | array (before after : List Json) (hplace : p.names[before.length]? = some n)

namespace Around

variable {p : Part} {n : String}

/-- The record in which the field has this value. -/
def fill : Around p n → Json → Json
  | object before after name _, v => .object (before ++ (name, v) :: after)
  | array before after _, v => .array (before ++ v :: after)

/-- Another value of the field leaves the other fields as they are. -/
theorem exists_fields {F : Json.Fields} {v : Json} (around : Around p n) (hn : n ∈ p.names)
    (hF : (around.fill v).fields? p.names = some F) (w : Json) :
    F n = some v ∧ ∃ G, (around.fill w).fields? p.names = some G ∧ G n = some w ∧
      ∀ m ∈ p.names, m ≠ n → F m = G m := by
  cases around with
  | object before after name hname =>
    by_cases hreadable : Readable p.names (before ++ (name, v) :: after)
    · have hreadable' := Json.readable_replace w hreadable
      rw [fill, Json.fields?_of_readable hreadable, Option.some.injEq] at hF
      subst hF
      refine ⟨(hreadable.memberValue?_of_eq hn hname).2, _, Json.fields?_of_readable hreadable',
        (hreadable'.memberValue?_of_eq hn hname).2, fun m _ hm => ?_⟩
      rw [Json.memberValue?_of_ne hname hm, Json.memberValue?_of_ne hname hm]
    · rw [fill, Json.fields?_of_not_readable hreadable] at hF
      cases hF
  | array before after hplace =>
    have hitem (v : Json) : (before ++ v :: after)[before.length]? = some v := by simp
    rw [fill, Json.fields?] at hF
    split at hF
    · cases hF
    · next hlength =>
      cases hF
      have hlength' : ¬ p.names.length < (before ++ w :: after).length := by
        simpa using hlength
      refine ⟨?_, _, if_neg hlength', ?_, fun m hm hne => ?_⟩
      · exact (Json.lookup_zip p.nodup_names _ hplace).trans (hitem v)
      · exact (Json.lookup_zip p.nodup_names _ hplace).trans (hitem w)
      · obtain ⟨i, hi⟩ := List.mem_iff_getElem?.1 hm
        have hother : i ≠ before.length := by
          rintro rfl
          rw [hplace, Option.some.injEq] at hi
          exact hne hi.symm
        have hitem' (v : Json) := Json.lookup_zip p.nodup_names (before ++ v :: after) hi
        calc (p.names.zip (before ++ v :: after)).lookup m = (before ++ v :: after)[i]? := hitem' v
          _ = (before ++ w :: after)[i]? := Json.getElem?_append_cons_of_ne before after v w hother
          _ = (p.names.zip (before ++ w :: after)).lookup m := (hitem' w).symm

variable {f : Field} {v w : Json}

theorem ofJson?_eq_none (around : Around p n) (hf : f ∈ p.fields) (hn : f.name = n)
    (h : ¬ f.Reads (some v)) : p.ofJson? (around.fill v) = none := by
  subst hn
  rw [Option.eq_none_iff_forall_ne_some]
  intro a ha
  obtain ⟨F, hF, hreads⟩ := Part.reads_of_ofJson? ha
  obtain ⟨hv, -⟩ := around.exists_fields (Part.name_mem hf) hF v
  have hreads := hreads f hf
  rw [hv] at hreads
  exact h hreads

theorem ofJson?_congr (around : Around p n) (hf : f ∈ p.fields) (hn : f.name = n)
    (h : f.SameRead (some v) (some w)) :
    p.ofJson? (around.fill v) = p.ofJson? (around.fill w) := by
  subst hn
  cases hF : (around.fill v).fields? p.names with
  | some F =>
    obtain ⟨hv, G, hG, hw, hothers⟩ := around.exists_fields (Part.name_mem hf) hF w
    refine Part.ofJson?_congr hF hG fun g hg => ?_
    by_cases hname : g.name = f.name
    · cases Part.eq_of_name_eq hg hf hname
      rwa [hv, hw]
    · rw [hothers g.name (Part.name_mem hg) hname]
      rfl
  | none =>
    cases hG : (around.fill w).fields? p.names with
    | some G =>
      obtain ⟨-, F, hF', -⟩ := around.exists_fields (Part.name_mem hf) hG v
      rw [hF] at hF'
      cases hF'
    | none => rw [Part.ofJson?_of_fields?_eq_none hF, Part.ofJson?_of_fields?_eq_none hG]

end Around

/-! ### Records inside a document -/

/-- A way into a record, to a record inside it. -/
inductive Place : Part → Part → Type
  | top {p : Part} : Place p p
  | within {p q r : Part} (spot : Spot p q) (around : Around p spot.fieldName) (rest : Place q r) :
    Place p r

namespace Place

variable {p q : Part} {v w : Json}

/-- The record in which there is this value at the place. -/
def fill {p q : Part} : Place p q → Json → Json
  | top, v => v
  | within spot around rest, v => around.fill (spot.fill (rest.fill v))

/-- Values that are read alike may stand for each other. -/
theorem ofJson?_congr (place : Place p q) (h : q.ofJson? v = q.ofJson? w) :
    p.ofJson? (place.fill v) = p.ofJson? (place.fill w) := by
  induction place with
  | top => exact h
  | within spot around rest ih =>
    obtain ⟨f, hf, hname, hholds⟩ := spot.exists_field
    exact around.ofJson?_congr hf hname (hholds.congr _ _ (ih h))

/-- A document is not read if a record in it is not. -/
theorem ofJson?_eq_none (place : Place p q) (h : q.ofJson? v = none) :
    p.ofJson? (place.fill v) = none := by
  induction place with
  | top => exact h
  | within spot around rest ih =>
    obtain ⟨f, hf, hname, hholds⟩ := spot.exists_field
    exact around.ofJson?_eq_none hf hname (hholds.strict _ (ih h))

end Place

/-! ### Changes to an object -/

/-- A change to the members of an object that is written for a record. -/
inductive Edit (p : Part) : List (Literal × Json) → List (Literal × Json) → Prop
  | permute {members members' : List (Literal × Json)} (h : members.Perm members') :
    Edit p members members'
  /-- A member that is no field, whatever its value is.  Its name has to be a text. -/
  | insert {before after : List (Literal × Json)} {name : Literal} {n : String} (v : Json)
    (hname : name.text? = some n) (hn : n ∉ p.names) :
    Edit p (before ++ after) (before ++ (name, v) :: after)
  /-- A field that is what it is without being written. -/
  | drop {before after : List (Literal × Json)} {name : Literal} {v : Json} {f : Field}
    (hf : f ∈ p.fields) (hname : name.text? = some f.name) (hv : f.IsDefault v) :
    Edit p (before ++ (name, v) :: after) (before ++ after)
  | write {before after : List (Literal × Json)} {name : Literal} {v : Json} {f : Field}
    (hf : f ∈ p.fields) (hname : name.text? = some f.name) (hv : f.IsDefault v)
    (habsent : membersNamed f.name (before ++ after) = []) :
    Edit p (before ++ after) (before ++ (name, v) :: after)

section

variable {p : Part} {before after members members' : List (Literal × Json)} {name : Literal}
  {v : Json} {f : Field}

theorem Part.readable_of_ofJson? {a : p.Value} (h : p.ofJson? (.object members) = some a) :
    Readable p.names members := by
  by_contra hreadable
  rw [ofJson?_of_fields?_eq_none (Json.fields?_of_not_readable hreadable)] at h
  cases h

/-- Objects with the same fields are the same record. -/
theorem Part.ofJson?_object (h : Readable p.names members) (h' : Readable p.names members')
    (hsame : ∀ f ∈ p.fields, f.SameRead (memberValue? members f.name)
      (memberValue? members' f.name)) :
    p.ofJson? (.object members) = p.ofJson? (.object members') :=
  ofJson?_congr (Json.fields?_of_readable h) (Json.fields?_of_readable h') hsame

/-- A field need not be written if it is the default. -/
theorem Part.ofJson?_default (hf : f ∈ p.fields) (hname : name.text? = some f.name)
    (hv : f.IsDefault v) (h : Readable p.names (before ++ (name, v) :: after)) :
    p.ofJson? (.object (before ++ (name, v) :: after)) = p.ofJson? (.object (before ++ after)) := by
  refine ofJson?_object h h.remove fun g hg => ?_
  by_cases hgf : g.name = f.name
  · cases eq_of_name_eq hg hf hgf
    obtain ⟨d, hdefault, hread⟩ := hv
    obtain ⟨habsent, hvalue⟩ := h.memberValue?_of_eq (name_mem hf) hname
    rw [hvalue, memberValue?, habsent]
    exact hread.trans hdefault.symm
  · rw [Json.memberValue?_of_ne hname hgf]
    rfl

theorem Edit.ofJson? {a : p.Value} (hedit : Edit p members members')
    (h : p.ofJson? (.object members) = some a) : p.ofJson? (.object members') = some a := by
  have hreadable := Part.readable_of_ofJson? h
  rw [← h]
  cases hedit with
  | permute hperm =>
    refine (Part.ofJson?_object hreadable (hreadable.perm hperm) fun f hf => ?_).symm
    rw [hreadable.memberValue?_perm hperm (Part.name_mem hf)]
    rfl
  | @insert before after name n v hname hn =>
    have hreadable' := hreadable.insert hname (fun hmem => absurd hmem hn) v
    refine (Part.ofJson?_object hreadable hreadable' fun f hf => ?_).symm
    rw [Json.memberValue?_of_ne hname fun heq => hn (heq ▸ Part.name_mem hf)]
    rfl
  | drop hf hname hv => exact (Part.ofJson?_default hf hname hv hreadable).symm
  | write hf hname hv habsent =>
    exact Part.ofJson?_default hf hname hv (hreadable.insert hname (fun _ => habsent) _)

end

/-! ### Documents -/

/-- One object in a document is changed. -/
inductive Restyles : Json → Json → Prop
  | edit {p : Part} (place : Place .list p) {members members' : List (Literal × Json)}
    (h : Edit p members members') :
    Restyles (place.fill (.object members)) (place.fill (.object members'))

theorem Restyles.ofJson? {v v' : Json} {l : List ListEntry} (hv : Restyles v v')
    (h : MasterList.ofJson? v = some l) : MasterList.ofJson? v' = some l := by
  obtain @⟨p, place, members, members', hedit⟩ := hv
  -- A document that is read has no unreadable record in it, so the changed object was readable.
  cases hrecord : p.ofJson? (.object members) with
  | none =>
    have hnone : MasterList.ofJson? (place.fill (.object members)) = none :=
      place.ofJson?_eq_none hrecord
    rw [hnone] at h
    cases h
  | some a =>
    rw [← h]
    exact place.ofJson?_congr ((hedit.ofJson? hrecord).trans hrecord.symm)

theorem ofJson?_of_restyled {v v' : Json} {l : List ListEntry}
    (hv : Relation.ReflTransGen Restyles v v') (h : ofJson? v = some l) : ofJson? v' = some l := by
  induction hv with
  | refl => exact h
  | tail _ hstep ih => exact hstep.ofJson? ih

/-- A text is read as what the value it spells is read as. -/
theorem parse?_of_spells {v : Json} {s : String} (h : v.Spells s) : parse? s = ofJson? v := by
  rw [parse?, Json.parse?_of_spells h, Option.bind_some]

/-- An object is unreadable if one of its fields occurs twice, or if a name in it is no text, and
then the document is. -/
theorem parse?_of_not_readable {p : Part} (place : Place .list p)
    {members : List (Literal × Json)} {s : String} (h : ¬ Readable p.names members)
    (hs : (place.fill (.object members)).Spells s) : parse? s = none := by
  rw [parse?_of_spells hs]
  exact place.ofJson?_eq_none (Part.ofJson?_of_fields?_eq_none (Json.fields?_of_not_readable h))

/-- However a document is written, with its objects changed in any way that does not matter, it is
read as the same list.  So a list is read from all that its own document can be changed to.  A field
that occurs twice in an object makes the document unreadable. -/
theorem presentation_ignored :
    (∀ s l, parse? s = some l → (∃ v : Json, v.Spells s) ∧
      ∀ (v v' : Json) (s' : String), v.Spells s → Relation.ReflTransGen Restyles v v' →
        v'.Spells s' → parse? s' = some l) ∧
    (∀ (l : List ListEntry) (v : Json) (s : String), Relation.ReflTransGen Restyles (toJson l) v →
      v.Spells s → parse? s = some l) ∧
    ∀ (p : Part) (place : Place .list p) (members : List (Literal × Json)) (n : String)
      (s : String), n ∈ p.names → 1 < (membersNamed n members).length →
        (place.fill (.object members)).Spells s → parse? s = none := by
  refine ⟨fun s l h => ⟨?spelled, fun v v' s' hs hv hs' => ?same⟩, fun l v s hv hs => ?written,
    fun p place members n s hn htwice hs => ?twice⟩
  case spelled =>
    obtain ⟨v, hv, -⟩ := Option.bind_eq_some_iff.1 h
    exact ⟨v, Json.parse?_eq_some_iff.1 hv⟩
  case same =>
    rw [parse?_of_spells hs] at h
    rw [parse?_of_spells hs']
    exact ofJson?_of_restyled hv h
  case written =>
    rw [parse?_of_spells hs]
    exact ofJson?_of_restyled hv (restores.read_write l)
  case twice =>
    refine parse?_of_not_readable place (fun hreadable => ?_) hs
    exact Nat.not_lt_of_le (hreadable.once n hn) htwice

/-- A default is written out for the only server of a list, and the list gets a member that is no
field.  With a second list of servers it is unreadable. -/
theorem presentation_ignored_one_server :
    let plain := "\x7b\"servers\":[\x7b\"info\":\x7b\x7d\x7d]\x7d"
    let changed := "\x7b\"x\":[1e999, \"\\ud800\"],\n" ++
      " \"servers\": [\x7b\"info\": \x7b\"passworded\": false\x7d\x7d]\x7d"
    let twice := "\x7b\"servers\":[],\"x\":null,\"servers\":[]\x7d"
    (parse? plain).isSome ∧ parse? changed = parse? plain ∧ parse? twice = none := by
  intro plain changed twice
  have hread : (parse? plain).isSome := by decide +kernel
  let servers : Literal := .ofText "servers"
  let info : Literal := .ofText "info"
  let x : Literal := .ofText "x"
  let place : Place .list .info :=
    .within (.server [] []) (.object [] [] servers (Literal.text?_ofText _))
      (.within .info (.object [] [] info (Literal.text?_ofText _)) .top)
  let flags : List (Literal × Json) := [(.ofText "passworded", .bool false)]
  let unknown : Json := .array [.number "1e999", .string [.surrogate 0xD800]]
  have hwrite : Restyles (place.fill (.object [])) (place.fill (.object flags)) := by
    refine .edit place (@Edit.write .info [] [] _ _ (.plain "passworded" Json.bool? false) ?_
      (Literal.text?_ofText _) ⟨false, rfl, rfl⟩ rfl)
    simp [Part.fields]
  have hinsert : Restyles (place.fill (.object flags)) (.object [(x, unknown),
      (servers, .array [.object [(info, .object flags)]])]) :=
    .edit .top (@Edit.insert .list [] _ _ _ unknown (Literal.text?_ofText "x") (by decide))
  have hplain : (place.fill (.object [])).Spells plain :=
    Json.spaced_of_tokens? (by decide +kernel)
  have hchanged : (Json.object [(x, unknown),
      (servers, .array [.object [(info, .object flags)]])]).Spells changed :=
    Json.spaced_of_tokens? (by decide +kernel)
  obtain ⟨l, hl⟩ := Option.isSome_iff_exists.1 hread
  refine ⟨hread, ?_, ?_⟩
  · rw [hl]
    exact (presentation_ignored.1 plain l hl).2 _ _ changed hplain
      (.tail (.single hwrite) hinsert) hchanged
  · exact presentation_ignored.2.2 .list .top [(servers, .array []), (x, .null),
      (servers, .array [])] "servers" twice (by decide) (by decide +kernel)
      (Json.spaced_of_tokens? (by decide +kernel))

end StatusBoard.MasterList
