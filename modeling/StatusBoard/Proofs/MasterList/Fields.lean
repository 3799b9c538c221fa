import Mathlib.Data.List.Nodup
import StatusBoard.MasterList.Document
import StatusBoard.Proofs.Json.Members

/-!
# The records of a master list

Every record of a master list is made from what its fields are read as (`MasterList.Builds`).  So
two values are read as the same record if their fields are read alike (`Part.ofJson?_congr`), and a
value with a field that cannot be read is no record (`Part.reads_of_ofJson?`).
-/

namespace StatusBoard.MasterList

open Json (Literal withDefault required nullable)

/-! ### Fields -/

/-- A field of a record: its name, how its value is read, and what it is if it is missing.  Without
a default it has to be there. -/
structure Field where
  name : String
  Value : Type
  readValue : Json → Option Value
  default : Option Value

namespace Field

/-- Read a field that may be missing. -/
def read (f : Field) : Option Json → Option f.Value
  | none => f.default
  | some j => f.readValue j

/-- The field can be read. -/
def Reads (f : Field) (x : Option Json) : Prop := (f.read x).isSome

/-- The field is read alike, or it cannot be read in either case. -/
def SameRead (f : Field) (x y : Option Json) : Prop := f.read x = f.read y

/-- A value is read as the default. -/
def IsDefault (f : Field) (v : Json) : Prop := ∃ d, f.default = some d ∧ f.readValue v = some d

/-- A field with a default. -/
def plain {α : Type} (name : String) (readValue : Json → Option α) (default : α) : Field :=
  ⟨name, α, readValue, some default⟩

/-- A field that may be null, which is as good as missing. -/
def optional {α : Type} (name : String) (readValue : Json → Option α) : Field :=
  ⟨name, Option α, fun j => nullable readValue (some j), some none⟩

/-- A field that has to be there. -/
def needed {α : Type} (name : String) (readValue : Json → Option α) : Field :=
  ⟨name, α, readValue, none⟩

section

variable {α : Type} (name : String) (readValue : Json → Option α) (default : α) (x y : Option Json)

@[simp]
theorem name_plain : (plain name readValue default).name = name := rfl

@[simp]
theorem name_optional : (optional name readValue).name = name := rfl

@[simp]
theorem name_needed : (needed name readValue).name = name := rfl

theorem read_plain :
    (plain name readValue default).read x = withDefault default readValue x := by
  cases x <;> rfl

theorem read_optional : (optional name readValue).read x = nullable readValue x := by
  cases x <;> rfl

theorem read_needed : (needed name readValue).read x = required readValue x := by
  cases x <;> rfl

@[simp]
theorem sameRead_plain : (plain name readValue default).SameRead x y ↔
    withDefault default readValue x = withDefault default readValue y := by
  rw [SameRead, read_plain, read_plain]
  rfl

@[simp]
theorem sameRead_optional : (optional name readValue).SameRead x y ↔
    nullable readValue x = nullable readValue y := by
  rw [SameRead, read_optional, read_optional]
  rfl

@[simp]
theorem sameRead_needed : (needed name readValue).SameRead x y ↔
    required readValue x = required readValue y := by
  rw [SameRead, read_needed, read_needed]
  rfl

@[simp]
theorem reads_plain : (plain name readValue default).Reads x ↔
    (withDefault default readValue x).isSome := by
  rw [Reads, read_plain]
  rfl

@[simp]
theorem reads_optional : (optional name readValue).Reads x ↔ (nullable readValue x).isSome := by
  rw [Reads, read_optional]
  rfl

@[simp]
theorem reads_needed : (needed name readValue).Reads x ↔ (required readValue x).isSome := by
  rw [Reads, read_needed]
  rfl

end

end Field

/-- A record is made from what its fields are read as, and each of them has to be read. -/
structure Builds {α : Type} (fields : List Field) (read : Json → Option α)
    (build : Json.Fields → Option α) : Prop where
  read : ∀ j, read j = (j.fields? (fields.map Field.name)).bind build
  congr : ∀ F G, (∀ f ∈ fields, f.SameRead (F f.name) (G f.name)) → build F = build G
  strict : ∀ F a, build F = some a → ∀ f ∈ fields, f.Reads (F f.name)

/-! ### Records -/

/-- The kinds of records in a master list. -/
inductive Part
  | list
  | entry
  | info
  | map
  | client

namespace Part

/-- What a record is read as. -/
def Value : Part → Type
  | list => List ListEntry
  | entry => ListEntry
  | info => ServerInfo
  | map => MapInfo
  | client => Client

/-- Read a record. -/
def ofJson? : (p : Part) → Json → Option p.Value
  | list => MasterList.ofJson?
  | entry => ListEntry.ofJson?
  | info => ServerInfo.ofJson?
  | map => MapInfo.ofJson?
  | client => Client.ofJson?

/-- The fields of a record. -/
def fields : Part → List Field
  | list => [.plain "servers" (Json.list? ListEntry.ofJson?) []]
  | entry => [.plain "addresses" (Json.list? Json.text?) [], .optional "location" Json.text?,
    .needed "info" ServerInfo.ofJson?]
  | info => [.plain "max_clients" Json.uint32? 0, .plain "max_players" Json.uint32? 0,
    .plain "passworded" Json.bool? false, .plain "game_type" Json.text? "",
    .plain "name" Json.text? "", .plain "map" MapInfo.ofJson? ⟨"", none, none⟩,
    .plain "version" Json.text? "", .optional "client_score_kind" Json.text?,
    .plain "clients" (Json.list? Client.ofJson?) []]
  | map => [.plain "name" Json.text? "", .optional "sha256" Json.text?,
    .optional "size" Json.uint64?]
  | client => [.plain "name" Json.text? "", .plain "clan" Json.text? "",
    .plain "country" Json.int32? (-1), .plain "score" Json.int32? 0,
    .plain "is_player" Json.bool? true, .plain "team" Json.int32? 0]

/-- The names of a record's fields. -/
def names (p : Part) : List String := p.fields.map Field.name

theorem nodup_names (p : Part) : p.names.Nodup := by
  cases p <;> decide

theorem builds_list : ∃ build, Builds list.fields MasterList.ofJson? build := by
  refine ⟨_, fun _ => rfl, fun F G h => ?congr, fun F a h => ?strict⟩
  case congr => simpa [fields] using h
  case strict => simp [fields, h]

theorem builds_entry : ∃ build, Builds entry.fields ListEntry.ofJson? build := by
  refine ⟨_, fun _ => rfl, fun F G h => ?congr, fun F a h => ?strict⟩
  case congr =>
    obtain ⟨haddresses, hlocation, hinfo⟩ := by simpa [fields] using h
    simp only [haddresses, hlocation, hinfo]
  case strict =>
    simp only [Option.bind_eq_bind, Option.bind_eq_some_iff] at h
    obtain ⟨_, haddresses, _, hlocation, _, hinfo, -⟩ := h
    simp [fields, haddresses, hlocation, hinfo]

theorem builds_info : ∃ build, Builds info.fields ServerInfo.ofJson? build := by
  refine ⟨_, fun _ => rfl, fun F G h => ?congr, fun F a h => ?strict⟩
  case congr =>
    obtain ⟨hclients, hplayers, hpassworded, htype, hname, hmap, hversion, hkind, hlist⟩ := by
      simpa [fields] using h
    simp only [hclients, hplayers, hpassworded, htype, hname, hmap, hversion, hkind, hlist]
  case strict =>
    simp only [Option.bind_eq_bind, Option.bind_eq_some_iff] at h
    obtain ⟨_, hclients, _, hplayers, _, hpassworded, _, htype, _, hname, _, hmap, _, hversion, _,
      hkind, _, hlist, -⟩ := h
    simp [fields, hclients, hplayers, hpassworded, htype, hname, hmap, hversion, hkind, hlist]

theorem builds_map : ∃ build, Builds map.fields MapInfo.ofJson? build := by
  refine ⟨_, fun _ => rfl, fun F G h => ?congr, fun F a h => ?strict⟩
  case congr =>
    obtain ⟨hname, hsha256, hsize⟩ := by simpa [fields] using h
    simp only [hname, hsha256, hsize]
  case strict =>
    simp only [Option.bind_eq_bind, Option.bind_eq_some_iff] at h
    obtain ⟨_, hname, _, hsha256, _, hsize, -⟩ := h
    simp [fields, hname, hsha256, hsize]

theorem builds_client : ∃ build, Builds client.fields Client.ofJson? build := by
  refine ⟨_, fun _ => rfl, fun F G h => ?congr, fun F a h => ?strict⟩
  case congr =>
    obtain ⟨hname, hclan, hcountry, hscore, hplayer, hteam⟩ := by simpa [fields] using h
    simp only [hname, hclan, hcountry, hscore, hplayer, hteam]
  case strict =>
    simp only [Option.bind_eq_bind, Option.bind_eq_some_iff] at h
    obtain ⟨_, hname, _, hclan, _, hcountry, _, hscore, _, hplayer, _, hteam, -⟩ := h
    simp [fields, hname, hclan, hcountry, hscore, hplayer, hteam]

theorem exists_builds (p : Part) : ∃ build, Builds p.fields p.ofJson? build := by
  cases p with
  | list => exact builds_list
  | entry => exact builds_entry
  | info => exact builds_info
  | map => exact builds_map
  | client => exact builds_client

/-! ### Values with the same fields -/

variable {p : Part} {j j' : Json} {F G : Json.Fields} {a : p.Value}

/-- A value with readable fields only. -/
theorem reads_of_ofJson? (h : p.ofJson? j = some a) :
    ∃ F, j.fields? p.names = some F ∧ ∀ f ∈ p.fields, f.Reads (F f.name) := by
  obtain ⟨build, hbuilds⟩ := p.exists_builds
  rw [hbuilds.read, Option.bind_eq_some_iff] at h
  obtain ⟨F, hF, hbuild⟩ := h
  exact ⟨F, hF, hbuilds.strict F a hbuild⟩

theorem ofJson?_congr (hF : j.fields? p.names = some F) (hG : j'.fields? p.names = some G)
    (h : ∀ f ∈ p.fields, f.SameRead (F f.name) (G f.name)) : p.ofJson? j = p.ofJson? j' := by
  obtain ⟨build, hbuilds⟩ := p.exists_builds
  calc p.ofJson? j = build F := by rw [hbuilds.read, ← names, hF, Option.bind_some]
    _ = build G := hbuilds.congr F G h
    _ = p.ofJson? j' := by rw [hbuilds.read, ← names, hG, Option.bind_some]

theorem ofJson?_of_fields?_eq_none (h : j.fields? p.names = none) : p.ofJson? j = none := by
  rw [Option.eq_none_iff_forall_ne_some]
  intro a ha
  obtain ⟨F, hF, -⟩ := reads_of_ofJson? ha
  rw [h] at hF
  cases hF

theorem name_mem {f : Field} (hf : f ∈ p.fields) : f.name ∈ p.names := List.mem_map_of_mem hf

/-- A record has one field with a name. -/
theorem eq_of_name_eq {f g : Field} (hf : f ∈ p.fields) (hg : g ∈ p.fields)
    (h : f.name = g.name) : f = g :=
  List.inj_on_of_nodup_map p.nodup_names hf hg h

end Part

end StatusBoard.MasterList
