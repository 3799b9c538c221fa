import Mathlib.Data.List.Forall2
import StatusBoard.Config
import StatusBoard.Proofs.Text.Numeral
import StatusBoard.Proofs.Toml.Integers

/-!
# The layers of the configuration

Every setting has the value of its variable, else that of the file, else the default, and a file is
refused for what it contains, whatever the variables say (`Config.load_layers`).  This holds for any
reader of documents whose integers have 64 bits.  A setting is data here: its variable, its place in
a document and its field (`Config.Setting`).
-/

namespace StatusBoard

/-! ### Parts of a document -/

namespace Toml

variable {names : List String} {name : String} {v w : Toml} {document : List (String × Toml)}

/-- What a section gives for a name.  In an array that is the item at the place of the name. -/
def field? (names : List String) (name : String) : Toml → Option Toml
  | table members => members.lookup name
  | array items => (names.idxOf? name).bind (items[·]?)
  | _ => none

/-- Whether a value has the form of a section. -/
inductive IsSection : Toml → Prop
  | table (members : List (String × Toml)) : IsSection (.table members)
  | array (items : List Toml) : IsSection (.array items)

theorem isSection_of_field? (h : v.field? names name = some w) : v.IsSection := by
  cases v with
  | table members => exact .table members
  | array items => exact .array items
  | _ => cases h

theorem lookup_zip (names : List String) (items : List Toml) (name : String) :
    (names.zip items).lookup name = (names.idxOf? name).bind (items[·]?) := by
  induction names generalizing items with
  | nil => rfl
  | cons first names ih =>
    rw [List.idxOf?_cons]
    cases items with
    | nil => simp
    | cons v items =>
      rw [List.zip_cons_cons, List.lookup_cons, ih]
      by_cases h : first = name
      · simp [h]
      · have h' : name ≠ first := fun heq => h heq.symm
        simp only [beq_eq_false_iff_ne.2 h', beq_eq_false_iff_ne.2 h, Bool.false_eq_true, if_false,
          Option.bind_map]
        rfl

theorem section?_eq_some_iff {f : Section} : v.section? names = some f ↔
    v.IsSection ∧ f = fun n => v.field? names n := by
  cases v with
  | table members => simp [section?, field?, IsSection.table, eq_comm]
  | array items => simp [section?, field?, IsSection.array, lookup_zip, eq_comm]
  | _ =>
    refine iff_of_false (fun h => ?_) fun h => ?_
    · cases h
    · cases h.1

theorem sectionOf?_eq_some_iff {f : Section} : sectionOf? document name names = some f ↔
    (∀ v ∈ document.lookup name, v.IsSection) ∧
    f = fun n => (document.lookup name).bind (field? names n) := by
  rw [sectionOf?]
  cases document.lookup name with
  | none => simp [eq_comm]
  | some v => simp [section?_eq_some_iff]

theorem setting?_eq_some_iff {α : Type} {read : Toml → Option α} {o : Option Toml}
    {r : Option α} :
    setting? read o = some r ↔ (∀ v ∈ o, (read v).isSome) ∧ r = o.bind read := by
  cases o with
  | none => exact ⟨fun h => ⟨nofun, (Option.some.inj h).symm⟩, fun h => congrArg some h.2.symm⟩
  | some v =>
    rw [setting?, Option.map_eq_some_iff]
    constructor
    · rintro ⟨a, ha, rfl⟩
      refine ⟨fun w hw => ?_, ha.symm⟩
      rw [← Option.some.inj hw, ha]
      rfl
    · rintro ⟨hread, rfl⟩
      obtain ⟨a, ha⟩ := Option.isSome_iff_exists.1 (hread v rfl)
      exact ⟨a, ha, ha.symm⟩

theorem text?_eq_some_iff {s : String} : v.text? = some s ↔ v = .string s := by
  cases v <;> simp [text?]

theorem fits_of_lookup (h : ∀ m ∈ document, m.2.Fits) (hv : document.lookup name = some v) :
    v.Fits := by
  obtain ⟨before, after, rfl, -⟩ := List.lookup_eq_some_iff.1 hv
  exact h (name, v) (List.mem_append_right _ List.mem_cons_self)

theorem Fits.field? (h : v.Fits) (hw : v.field? names name = some w) : w.Fits := by
  cases h with
  | table hmembers => exact fits_of_lookup hmembers hw
  | array hitems =>
    obtain ⟨i, -, hi⟩ := Option.bind_eq_some_iff.1 hw
    exact hitems w (List.mem_of_getElem? hi)
  | _ => cases hw

/-- A number of a document is read as itself, as it is below `2 ^ 63`. -/
theorem nat64?_eq_some_iff (h : v.Fits) {n : UInt64} :
    v.nat64? = some n ↔ v = .integer n.toNat := by
  cases h with
  | @integer i low high =>
    have hhigh : i < 2 ^ 63 := by
      have hmax : Int64.maxValue.toInt = 2 ^ 63 - 1 := by decide
      omega
    rw [nat64?, Option.ite_none_right_eq_some, Option.some_inj, integer.injEq, ← UInt64.toNat_inj]
    have hsize : i.toNat.toUInt64.toNat = i.toNat := by
      rw [Nat.toUInt64_eq, UInt64.toNat_ofNat_of_lt']
      rw [UInt64.size]
      omega
    rw [hsize]
    omega
  | _ => exact iff_of_false nofun nofun

end Toml

/-! ### Watched servers -/

namespace Watch

open Toml (field?)

/-- The names of an entry, in their order. -/
def names : List String := ["guild_id", "channel_id", "address"]

/-- Whether an item of a file is a watched server.  None of its parts may be missing. -/
structure Written (v : Toml) (w : Watch) : Prop where
  guild : v.field? names "guild_id" = some (.integer w.guild.toNat)
  channel : v.field? names "channel_id" = some (.integer w.channel.toNat)
  address : v.field? names "address" = some (.string w.address)

/-- The watched servers of a document, in the document's order. -/
inductive Listed (document : List (String × Toml)) : List Watch → Prop
  | nil (h : document.lookup "watch" = none) : Listed document []
  | items {items : List Toml} {ws : List Watch}
    (h : document.lookup "watch" = some (.array items)) (hws : List.Forall₂ Written items ws) :
    Listed document ws

theorem ofToml?_eq_some_iff {v : Toml} (h : v.Fits) {w : Watch} :
    ofToml? v = some w ↔ Written v w := by
  have hnat (n : String) (i : UInt64) : (v.field? names n).bind Toml.nat64? = some i ↔
      v.field? names n = some (.integer i.toNat) := by
    cases hfield : v.field? names n with
    | none => simp
    | some x => simp [Toml.nat64?_eq_some_iff (h.field? hfield)]
  have htext (n : String) (s : String) : (v.field? names n).bind Toml.text? = some s ↔
      v.field? names n = some (.string s) := by
    cases hfield : v.field? names n with
    | none => simp
    | some x => simp [Toml.text?_eq_some_iff]
  constructor
  · intro hw
    obtain ⟨f, hf, hw⟩ := Option.bind_eq_some_iff.1 hw
    obtain ⟨-, rfl⟩ := Toml.section?_eq_some_iff.1 hf
    obtain ⟨guild, hguild, hw⟩ := Option.bind_eq_some_iff.1 hw
    obtain ⟨channel, hchannel, hw⟩ := Option.bind_eq_some_iff.1 hw
    obtain ⟨address, haddress, hw⟩ := Option.bind_eq_some_iff.1 hw
    cases hw
    exact ⟨(hnat _ _).1 hguild, (hnat _ _).1 hchannel, (htext _ _).1 haddress⟩
  · intro hw
    have hsection : Toml.section? names v = some fun n => v.field? names n :=
      Toml.section?_eq_some_iff.2 ⟨Toml.isSection_of_field? hw.guild, rfl⟩
    have hguild := (hnat _ _).2 hw.guild
    have hchannel := (hnat _ _).2 hw.channel
    have haddress := (htext _ _).2 hw.address
    rw [names] at hsection hguild hchannel haddress
    simp [ofToml?, hsection, hguild, hchannel, haddress]

theorem mapM_ofToml?_eq_some_iff {items : List Toml} (h : ∀ v ∈ items, v.Fits)
    {ws : List Watch} : items.mapM ofToml? = some ws ↔ List.Forall₂ Written items ws := by
  induction items generalizing ws with
  | nil => simp [eq_comm]
  | cons v items ih =>
    obtain ⟨hv, hitems⟩ := List.forall_mem_cons.1 h
    rw [List.mapM_cons, List.forall₂_cons_left_iff]
    simp only [Option.bind_eq_bind, Option.bind_eq_some_iff, ofToml?_eq_some_iff hv, ih hitems]
    constructor
    · rintro ⟨w, hw, ws', hws, heq⟩
      cases heq
      exact ⟨w, ws', hw, hws, rfl⟩
    · rintro ⟨w, ws', hw, hws, rfl⟩
      exact ⟨w, hw, ws', hws, rfl⟩

theorem listOfToml?_eq_some_iff {document : List (String × Toml)}
    (h : ∀ m ∈ document, m.2.Fits) {ws : List Watch} :
    listOfToml? document = some ws ↔ Listed document ws := by
  rw [listOfToml?]
  cases hlookup : document.lookup "watch" with
  | none =>
    constructor
    · intro hws
      cases hws
      exact .nil hlookup
    · intro hws
      cases hws with
      | nil _ => rfl
      | items hitems _ => cases hlookup.symm.trans hitems
  | some v =>
    have hfits := Toml.fits_of_lookup h hlookup
    cases hfits with
    | array hitems =>
      refine (mapM_ofToml?_eq_some_iff hitems).trans ⟨.items hlookup, fun hws => ?_⟩
      cases hws with
      | nil hnone => cases hlookup.symm.trans hnone
      | items hsame hws =>
        cases hlookup.symm.trans hsame
        exact hws
    | _ =>
      refine iff_of_false nofun fun hws => ?_
      cases hws with
      | nil hnone => cases hlookup.symm.trans hnone
      | items hsame _ => cases hlookup.symm.trans hsame

end Watch

/-! ### Settings as data -/

namespace Config

/-- A section of the file, with the names of its settings in their order. -/
structure Part where
  name : String
  names : List String

namespace Part

def discord : Part := ⟨"discord", ["token"]⟩
def database : Part := ⟨"database", ["url"]⟩
def poll : Part := ⟨"poll", ["url", "interval_secs", "timeout_secs"]⟩
def chat : Part := ⟨"chat", ["timeout_secs"]⟩
def all : List Part := [discord, database, poll, chat]

theorem forall_all {P : Part → Prop} :
    (∀ p ∈ all, P p) ↔ P discord ∧ P database ∧ P poll ∧ P chat := by simp [all]

end Part

/-- A setting: its variable, its place in the file, and its place in what a layer gives and in the
configuration.  It is replaced if a layer gives it, and only then. -/
structure Setting (α : Type) where
  variableName : String
  part : Part
  name : String
  given : Settings → Option α
  field : Config → α
  field_override : ∀ c s, field (c.override s) = (given s).getD (field c)
  field_watch : ∀ c ws, field { c with watch := ws } = field c

namespace Setting

variable {α : Type} {document : List (String × Toml)}

def token : Setting String :=
  ⟨"DISCORD_TOKEN", .discord, "token", Settings.token, Config.token, fun _ _ => rfl, fun _ _ => rfl⟩
def databaseUrl : Setting String :=
  ⟨"DATABASE_URL", .database, "url", Settings.databaseUrl, Config.databaseUrl, fun _ _ => rfl,
    fun _ _ => rfl⟩
def pollUrl : Setting String :=
  ⟨"POLL_URL", .poll, "url", Settings.pollUrl, Config.pollUrl, fun _ _ => rfl, fun _ _ => rfl⟩
def pollInterval : Setting UInt64 :=
  ⟨"POLL_INTERVAL_SECS", .poll, "interval_secs", Settings.pollInterval, Config.pollInterval,
    fun _ _ => rfl, fun _ _ => rfl⟩
def pollTimeout : Setting UInt64 :=
  ⟨"POLL_TIMEOUT_SECS", .poll, "timeout_secs", Settings.pollTimeout, Config.pollTimeout,
    fun _ _ => rfl, fun _ _ => rfl⟩
def chatTimeout : Setting UInt64 :=
  ⟨"CHAT_TIMEOUT_SECS", .chat, "timeout_secs", Settings.chatTimeout, Config.chatTimeout,
    fun _ _ => rfl, fun _ _ => rfl⟩

/-- The settings that are texts. -/
def texts : List (Setting String) := [token, databaseUrl, pollUrl]

/-- The settings that are numbers of seconds. -/
def numbers : List (Setting UInt64) := [pollInterval, pollTimeout, chatTimeout]

/-- What a document gives for a setting. -/
def fileValue? (t : Setting α) (document : List (String × Toml)) : Option Toml :=
  (document.lookup t.part.name).bind (Toml.field? t.part.names t.name)

theorem forall_texts {P : Setting String → Prop} :
    (∀ t ∈ texts, P t) ↔ P token ∧ P databaseUrl ∧ P pollUrl := by simp [texts]

theorem forall_numbers {P : Setting UInt64 → Prop} :
    (∀ t ∈ numbers, P t) ↔ P pollInterval ∧ P pollTimeout ∧ P chatTimeout := by simp [numbers]

theorem fits_fileValue? (h : ∀ m ∈ document, m.2.Fits) (t : Setting α) {v : Toml}
    (hv : t.fileValue? document = some v) : v.Fits := by
  obtain ⟨part, hpart, hv⟩ := Option.bind_eq_some_iff.1 hv
  exact (Toml.fits_of_lookup h hpart).field? hv

end Setting

end Config

namespace Settings

open Config (Part Setting)
open Toml (sectionOf? setting? text? nat64?)

/-- The settings that a document gives, wrong ones left out. -/
def ofValues (document : List (String × Toml)) : Settings where
  token := (Setting.token.fileValue? document).bind text?
  databaseUrl := (Setting.databaseUrl.fileValue? document).bind text?
  pollUrl := (Setting.pollUrl.fileValue? document).bind text?
  pollInterval := (Setting.pollInterval.fileValue? document).bind nat64?
  pollTimeout := (Setting.pollTimeout.fileValue? document).bind nat64?
  chatTimeout := (Setting.chatTimeout.fileValue? document).bind nat64?

variable {document : List (String × Toml)} {environment : String → Option String} {s : Settings}

theorem ofToml?_eq_some_iff : ofToml? document = some s ↔
    (∀ p ∈ Part.all, ∀ v ∈ document.lookup p.name, v.IsSection) ∧
    (∀ t ∈ Setting.texts, ∀ v ∈ t.fileValue? document, v.text?.isSome) ∧
    (∀ t ∈ Setting.numbers, ∀ v ∈ t.fileValue? document, v.nat64?.isSome) ∧
    ofValues document = s := by
  rw [Part.forall_all, Setting.forall_texts, Setting.forall_numbers]
  -- The sections are found and the settings read one after the other.
  simp only [ofToml?, Option.bind_eq_bind, Option.bind_eq_some_iff, Toml.sectionOf?_eq_some_iff,
    Toml.setting?_eq_some_iff, Option.pure_def, Option.some_inj, and_assoc, exists_and_left,
    exists_eq_left]
  rfl

theorem given_ofValues_text : ∀ t ∈ Setting.texts,
    t.given (ofValues document) = (t.fileValue? document).bind text? :=
  Setting.forall_texts.2 ⟨rfl, rfl, rfl⟩

theorem given_ofValues_number : ∀ t ∈ Setting.numbers,
    t.given (ofValues document) = (t.fileValue? document).bind nat64? :=
  Setting.forall_numbers.2 ⟨rfl, rfl, rfl⟩

/-! ### The environment -/

theorem given_ofEnvironment_text : ∀ t ∈ Setting.texts,
    t.given (ofEnvironment environment) = environment t.variableName :=
  Setting.forall_texts.2 ⟨rfl, rfl, rfl⟩

theorem given_ofEnvironment_number : ∀ t ∈ Setting.numbers,
    t.given (ofEnvironment environment) = (environment t.variableName).bind number? :=
  Setting.forall_numbers.2 ⟨rfl, rfl, rfl⟩

/-- Whether a text is a number below `2 ^ 64`: decimal digits, and in front of them perhaps a
plus. -/
def SpellsNumber (text : String) (n : UInt64) : Prop :=
  ∃ digits, (text.toList = digits ∨ text.toList = '+' :: digits) ∧ digits ≠ [] ∧
    (∀ c ∈ digits, c.isDigit) ∧ Nat.ofDigitChars 10 digits 0 = n.toNat

theorem numeralBelow?_eq_some_iff {cs : List Char} {n : UInt64} :
    (Text.numeralBelow? UInt64.size 10 cs).map Nat.toUInt64 = some n ↔
      cs ≠ [] ∧ (∀ c ∈ cs, c.isDigit) ∧ Nat.ofDigitChars 10 cs 0 = n.toNat := by
  rw [← Text.numeral?_ten_eq_some_iff, Text.numeralBelow?, Option.map_eq_some_iff]
  simp only [Option.filter_eq_some_iff, decide_eq_true_eq]
  constructor
  · rintro ⟨i, ⟨hi, hlt⟩, rfl⟩
    rwa [Nat.toUInt64_eq, UInt64.toNat_ofNat_of_lt' hlt]
  · intro h
    exact ⟨n.toNat, ⟨h, n.toNat_lt⟩, UInt64.ofNat_toNat⟩

theorem number?_eq_some_iff {text : String} {n : UInt64} :
    number? text = some n ↔ SpellsNumber text n := by
  -- A plus is no digit, so it is clear whether a text has one in front of its digits.
  have hplus : ¬ '+'.isDigit := by decide
  rw [number?, numeralBelow?_eq_some_iff]
  split
  · next cs hcs =>
    constructor
    · intro h
      exact ⟨cs, .inr hcs, h⟩
    · rintro ⟨digits, hdigits | hdigits, h⟩
      · have hall := h.2.1
        rw [← hdigits, hcs, List.forall_mem_cons] at hall
        exact absurd hall.1 hplus
      · cases hcs.symm.trans hdigits
        exact h
  · next hno =>
    constructor
    · intro h
      exact ⟨_, .inl rfl, h⟩
    · rintro ⟨digits, hdigits | hdigits, h⟩
      · rwa [hdigits]
      · exact absurd hdigits (hno digits)

end Settings

/-! ### The layers -/

namespace Config

/-- What is chosen from three layers: what the upper one gives, else what the lower one gives, else
the default. -/
inductive Layered {α : Type} (upper lower : α → Prop) (default : α) : α → Prop
  | upper {a : α} (h : upper a) : Layered upper lower default a
  | lower {a : α} (hupper : ∀ b, ¬ upper b) (h : lower a) : Layered upper lower default a
  | default (hupper : ∀ b, ¬ upper b) (hlower : ∀ b, ¬ lower b) :
    Layered upper lower default default

theorem layered_iff {α : Type} {upper lower : α → Prop} {u l : Option α} {d a : α}
    (hu : ∀ b, u = some b ↔ upper b) (hl : ∀ b, l = some b ↔ lower b) :
    Layered upper lower d a ↔ a = u.getD (l.getD d) := by
  cases u with
  | some b =>
    have hb : upper b := (hu b).1 rfl
    constructor
    · intro h
      cases h with
      | upper h => cases (hu a).2 h; rfl
      | lower hupper _ => exact absurd hb (hupper b)
      | default hupper _ => exact absurd hb (hupper b)
    · rintro rfl
      exact .upper hb
  | none =>
    have hnone (b : α) : ¬ upper b := fun h => by cases (hu b).2 h
    cases l with
    | some b =>
      have hb : lower b := (hl b).1 rfl
      constructor
      · intro h
        cases h with
        | upper h => exact absurd h (hnone _)
        | lower _ h => cases (hl a).2 h; rfl
        | default _ hlower => exact absurd hb (hlower b)
      · rintro rfl
        exact .lower hnone hb
    | none =>
      have hnone' (b : α) : ¬ lower b := fun h => by cases (hl b).2 h
      constructor
      · intro h
        cases h with
        | upper h => exact absurd h (hnone _)
        | lower _ h => exact absurd h (hnone' _)
        | default _ _ => rfl
      · rintro rfl
        exact .default hnone hnone'

/-- Whether a document has the form of a configuration.  Sections, settings and the list of watched
servers may be missing. -/
structure WellFormed (document : List (String × Toml)) : Prop where
  parts : ∀ p ∈ Part.all, ∀ v ∈ document.lookup p.name, v.IsSection
  texts : ∀ t ∈ Setting.texts, ∀ v ∈ t.fileValue? document, ∃ s, v = .string s
  numbers : ∀ t ∈ Setting.numbers, ∀ v ∈ t.fileValue? document, ∃ n : UInt64, v = .integer n.toNat
  watch : ∃ ws, Watch.Listed document ws

/-- A configuration is made of the variables, a document and the defaults. -/
structure Layers (document : List (String × Toml)) (environment : String → Option String)
    (c : Config) : Prop where
  texts : ∀ t ∈ Setting.texts, Layered
    (fun s => environment t.variableName = some s)
    (fun s => t.fileValue? document = some (.string s))
    (t.field {}) (t.field c)
  numbers : ∀ t ∈ Setting.numbers, Layered
    (fun n => ∃ s, environment t.variableName = some s ∧ Settings.SpellsNumber s n)
    (fun n => t.fileValue? document = some (.integer n.toNat))
    (t.field {}) (t.field c)
  watch : Watch.Listed document c.watch

/-- The document of a file.  A missing file is as good as an empty one. -/
inductive Reads (parse : Toml.Parser) : Option ByteArray → List (String × Toml) → Prop
  | missing : Reads parse none []
  | file {text : String} {document : List (String × Toml)} (h : parse text = some document) :
    Reads parse (some text.toUTF8) document

variable {document : List (String × Toml)} {environment : String → Option String} {c : Config}

theorem ofToml?_eq_some_iff : ofToml? document = some c ↔
    ∃ s ws, Settings.ofToml? document = some s ∧ Watch.listOfToml? document = some ws ∧
      { ({} : Config).override s with watch := ws } = c := by
  simp only [ofToml?, Option.bind_eq_bind, Option.bind_eq_some_iff, Option.pure_def,
    Option.some_inj, exists_and_left]

theorem isSome_ofToml?_iff (h : ∀ m ∈ document, m.2.Fits) :
    (ofToml? document).isSome ↔ WellFormed document := by
  have htext (v : Toml) : v.text?.isSome ↔ ∃ s, v = .string s := by
    simp only [Option.isSome_iff_exists, Toml.text?_eq_some_iff]
  have hnumber (t : Setting UInt64) : (∀ v ∈ t.fileValue? document, v.nat64?.isSome) ↔
      ∀ v ∈ t.fileValue? document, ∃ n : UInt64, v = .integer n.toNat := by
    refine forall₂_congr fun v hv => ?_
    simp only [Option.isSome_iff_exists, Toml.nat64?_eq_some_iff (Setting.fits_fileValue? h t hv)]
  rw [Option.isSome_iff_exists]
  simp only [ofToml?_eq_some_iff, Settings.ofToml?_eq_some_iff, Watch.listOfToml?_eq_some_iff h,
    htext, hnumber]
  constructor
  · rintro ⟨c, s, ws, ⟨hparts, htexts, hnumbers, -⟩, hws, -⟩
    exact ⟨hparts, htexts, hnumbers, ws, hws⟩
  · rintro ⟨hparts, htexts, hnumbers, ws, hws⟩
    exact ⟨_, _, ws, ⟨hparts, htexts, hnumbers, rfl⟩, hws, rfl⟩

/-- A configuration has no more to it than its settings and the watched servers. -/
theorem eq_iff_fields {c' : Config} : c = c' ↔
    (∀ t ∈ Setting.texts, t.field c = t.field c') ∧
    (∀ t ∈ Setting.numbers, t.field c = t.field c') ∧ c.watch = c'.watch := by
  rw [Setting.forall_texts, Setting.forall_numbers]
  constructor
  · rintro rfl
    exact ⟨⟨rfl, rfl, rfl⟩, ⟨rfl, rfl, rfl⟩, rfl⟩
  · intro h
    cases c
    cases c'
    obtain ⟨⟨htoken, hdatabaseUrl, hpollUrl⟩, ⟨hinterval, htimeout, hchatTimeout⟩, hwatch⟩ := h
    cases htoken
    cases hdatabaseUrl
    cases hpollUrl
    cases hinterval
    cases htimeout
    cases hchatTimeout
    cases hwatch
    rfl

/-- The configuration of two layers and a list of watched servers. -/
def ofLayers (above below : Settings) (ws : List Watch) : Config :=
  override { ({} : Config).override below with watch := ws } above

theorem Setting.layered_iff {α : Type} (t : Setting α) {upper lower : α → Prop}
    {above below : Settings} (ws : List Watch) {a : α}
    (habove : ∀ b, t.given above = some b ↔ upper b)
    (hbelow : ∀ b, t.given below = some b ↔ lower b) :
    Layered upper lower (t.field {}) a ↔ a = t.field (ofLayers above below ws) := by
  rw [ofLayers, t.field_override, t.field_watch, t.field_override]
  exact Config.layered_iff habove hbelow

theorem layered_text {t : Setting String} (ht : t ∈ Setting.texts) (ws : List Watch) {s : String} :
    Layered (fun s => environment t.variableName = some s)
      (fun s => t.fileValue? document = some (.string s)) (t.field {}) s ↔
    s = t.field (ofLayers (.ofEnvironment environment) (.ofValues document) ws) := by
  refine t.layered_iff ws (fun s => ?_) fun s => ?_
  · rw [Settings.given_ofEnvironment_text t ht]
  · rw [Settings.given_ofValues_text t ht, Option.bind_eq_some_iff]
    simp only [Toml.text?_eq_some_iff, exists_eq_right]

theorem layered_number (h : ∀ m ∈ document, m.2.Fits) {t : Setting UInt64}
    (ht : t ∈ Setting.numbers) (ws : List Watch) {n : UInt64} :
    Layered (fun n => ∃ s, environment t.variableName = some s ∧ Settings.SpellsNumber s n)
      (fun n => t.fileValue? document = some (.integer n.toNat)) (t.field {}) n ↔
    n = t.field (ofLayers (.ofEnvironment environment) (.ofValues document) ws) := by
  refine t.layered_iff ws (fun n => ?_) fun n => ?_
  · rw [Settings.given_ofEnvironment_number t ht, Option.bind_eq_some_iff]
    simp only [Settings.number?_eq_some_iff]
  · rw [Settings.given_ofValues_number t ht]
    cases hv : t.fileValue? document with
    | none => exact iff_of_false nofun nofun
    | some v =>
      rw [Option.bind_some, Toml.nat64?_eq_some_iff (t.fits_fileValue? h hv), Option.some_inj]

/-- A document and an environment make just one configuration. -/
theorem layers_iff (h : ∀ m ∈ document, m.2.Fits) {c₀ : Config} (hc₀ : ofToml? document = some c₀) :
    Layers document environment c ↔ c = c₀.override (.ofEnvironment environment) := by
  obtain ⟨s, ws, hs, hws, rfl⟩ := ofToml?_eq_some_iff.1 hc₀
  obtain ⟨-, -, -, rfl⟩ := Settings.ofToml?_eq_some_iff.1 hs
  have hwatch : Watch.Listed document c.watch ↔ c.watch = ws := by
    rw [← Watch.listOfToml?_eq_some_iff h, hws, Option.some_inj, eq_comm]
  rw [← ofLayers, eq_iff_fields]
  constructor
  · intro hc
    exact ⟨fun t ht => (layered_text ht ws).1 (hc.texts t ht),
      fun t ht => (layered_number h ht ws).1 (hc.numbers t ht), hwatch.1 hc.watch⟩
  · rintro ⟨htexts, hnumbers, hws⟩
    exact ⟨fun t ht => (layered_text ht ws).2 (htexts t ht),
      fun t ht => (layered_number h ht ws).2 (hnumbers t ht), hwatch.2 hws⟩

/-- A section that is there in part leaves the other defaults alone. -/
example : ofToml? [("poll", .table [("interval_secs", .integer 30)])] =
    some { pollInterval := 30 } := by decide

/-! ### Loading -/

theorem fromUTF8?_eq_some_iff {bytes : ByteArray} {text : String} :
    String.fromUTF8? bytes = some text ↔ bytes = text.toUTF8 := by
  rw [String.fromUTF8?]
  split
  · rw [Option.some_inj, ← String.toByteArray_inj, eq_comm, eq_comm (a := bytes)]
    rfl
  · next hvalid =>
    refine iff_of_false nofun fun h => hvalid ?_
    rw [h]
    exact text.isValidUTF8

/-- Whether a file has bytes that are no text. -/
def Unreadable (contents : Option ByteArray) : Prop :=
  ∃ bytes, contents = some bytes ∧ ∀ text : String, bytes ≠ text.toUTF8

/-- Whether a file has a text that is no configuration. -/
def Malformed (parse : Toml.Parser) (contents : Option ByteArray) : Prop :=
  ∃ text : String, contents = some text.toUTF8 ∧
    ∀ document, parse text = some document → ¬ WellFormed document

section Parser

variable {parse : Toml.Parser} (hparse : parse.Bounded) {path : String}
  {contents : Option ByteArray}

include hparse

theorem Reads.fits (h : Reads parse contents document) : ∀ m ∈ document, m.2.Fits := by
  cases h with
  | missing => exact List.forall_mem_nil _
  | file h => exact hparse _ _ h

theorem reads_or (contents : Option ByteArray) :
    (∃ document c, Reads parse contents document ∧ ofToml? document = some c) ∨
      Unreadable contents ∨ Malformed parse contents := by
  cases contents with
  | none => exact .inl ⟨[], {}, .missing, rfl⟩
  | some bytes =>
    by_cases hbytes : ∀ text : String, bytes ≠ text.toUTF8
    · exact .inr (.inl ⟨bytes, rfl, hbytes⟩)
    · obtain ⟨text, htext⟩ := not_forall.1 hbytes
      obtain rfl := not_ne_iff.1 htext
      by_cases hform : ∃ document, parse text = some document ∧ WellFormed document
      · obtain ⟨document, hdocument, hform⟩ := hform
        rw [← isSome_ofToml?_iff (hparse _ _ hdocument), Option.isSome_iff_exists] at hform
        obtain ⟨c, hc⟩ := hform
        exact .inl ⟨document, c, .file hdocument, hc⟩
      · exact .inr (.inr ⟨text, rfl, fun document hdocument h => hform ⟨document, hdocument, h⟩⟩)

omit hparse in
theorem ofFile_of_reads (path : String) (h : Reads parse contents document)
    (hc : ofToml? document = some c) : ofFile parse path contents = .ok c := by
  cases h with
  | missing =>
    cases hc
    rfl
  | file h => simp only [ofFile, fromUTF8?_eq_some_iff.2 rfl, h, Option.bind_some, hc]

omit hparse in
theorem ofFile_of_unreadable (path : String) (h : Unreadable contents) :
    ofFile parse path contents = .error (.unreadable path) := by
  obtain ⟨bytes, rfl, hbytes⟩ := h
  have hnone : String.fromUTF8? bytes = none := by
    refine Option.eq_none_iff_forall_ne_some.2 fun text htext => ?_
    exact hbytes text (fromUTF8?_eq_some_iff.1 htext)
  simp only [ofFile, hnone]

theorem ofFile_of_malformed (path : String) (h : Malformed parse contents) :
    ofFile parse path contents = .error (.malformed path) := by
  obtain ⟨text, rfl, hform⟩ := h
  have hnone : (parse text).bind ofToml? = none := by
    refine Option.bind_eq_none_iff.2 fun document hdocument => ?_
    have hsome := isSome_ofToml?_iff (hparse _ _ hdocument)
    exact Option.not_isSome_iff_eq_none.1 fun h => hform document hdocument (hsome.1 h)
  simp only [ofFile, fromUTF8?_eq_some_iff.2 rfl, hnone]

theorem load_eq_ok_iff : load parse path contents environment = .ok c ↔
    ∃ document, Reads parse contents document ∧ WellFormed document ∧
      Layers document environment c := by
  constructor
  · intro h
    rcases reads_or hparse contents with ⟨document, c₀, hreads, hc₀⟩ | hbad | hbad
    · have hfits := hreads.fits hparse
      rw [load, ofFile_of_reads path hreads hc₀] at h
      cases h
      exact ⟨document, hreads, (isSome_ofToml?_iff hfits).1 (Option.isSome_of_eq_some hc₀),
        (layers_iff hfits hc₀).2 rfl⟩
    · rw [load, ofFile_of_unreadable path hbad] at h
      cases h
    · rw [load, ofFile_of_malformed hparse path hbad] at h
      cases h
  · rintro ⟨document, hreads, hform, hlayers⟩
    have hfits := hreads.fits hparse
    rw [← isSome_ofToml?_iff hfits, Option.isSome_iff_exists] at hform
    obtain ⟨c₀, hc₀⟩ := hform
    rw [load, ofFile_of_reads path hreads hc₀, (layers_iff hfits hc₀).1 hlayers]
    rfl

theorem load_eq_error_iff {e : ConfigError} : load parse path contents environment = .error e ↔
    e = .unreadable path ∧ Unreadable contents ∨
      e = .malformed path ∧ Malformed parse contents := by
  constructor
  · intro h
    rcases reads_or hparse contents with ⟨document, c₀, hreads, hc₀⟩ | hbad | hbad
    · rw [load, ofFile_of_reads path hreads hc₀] at h
      cases h
    · rw [load, ofFile_of_unreadable path hbad] at h
      cases h
      exact .inl ⟨rfl, hbad⟩
    · rw [load, ofFile_of_malformed hparse path hbad] at h
      cases h
      exact .inr ⟨rfl, hbad⟩
  · rintro (⟨rfl, hbad⟩ | ⟨rfl, hbad⟩)
    · rw [load, ofFile_of_unreadable path hbad]
      rfl
    · rw [load, ofFile_of_malformed hparse path hbad]
      rfl

end Parser

/-! ### Variables by themselves -/

variable {parse : Toml.Parser} {path : String} {contents : Option ByteArray}
  {environment' : String → Option String}

theorem map_load {β : Type} (f : Config → β) : (load parse path contents environment).map f =
    (ofFile parse path contents).map fun c => f (c.override (.ofEnvironment environment)) := by
  rw [load]
  cases ofFile parse path contents <;> rfl

/-- A setting does not depend on the other settings' variables. -/
theorem map_field_load {α : Type} (t : Setting α)
    (h : t.given (.ofEnvironment environment) = t.given (.ofEnvironment environment')) :
    (load parse path contents environment).map t.field =
      (load parse path contents environment').map t.field := by
  rw [map_load, map_load]
  simp only [t.field_override, h]

theorem toNat_max (m n : UInt64) : (max m n).toNat = max m.toNat n.toNat := by
  have hmax : max m n = if m ≤ n then n else m := rfl
  rw [hmax, apply_ite UInt64.toNat, max_def]
  simp only [UInt64.le_iff_toNat_le]

/-- For every reader of documents, every file and every environment: a configuration is loaded if
the file is missing or has the right form, and it is made of the variables, the file and the
defaults.  Otherwise loading fails, whatever the variables are.  A variable that is set to another
value changes its own field alone.  No period or limit is shorter than a second.  The integers of
what the reader gives have 64 bits. -/
theorem load_layers {parse : Toml.Parser} (hparse : parse.Bounded) (path : String)
    (contents : Option ByteArray) :
    (∀ environment c, load parse path contents environment = .ok c ↔
      ∃ document, Reads parse contents document ∧ WellFormed document ∧
        Layers document environment c) ∧
    (∀ environment e, load parse path contents environment = .error e ↔
      e = .unreadable path ∧ Unreadable contents ∨
        e = .malformed path ∧ Malformed parse contents) ∧
    (∀ environment environment',
      (∀ t ∈ Setting.texts, environment t.variableName = environment' t.variableName →
        (load parse path contents environment).map t.field =
          (load parse path contents environment').map t.field) ∧
      (∀ t ∈ Setting.numbers, environment t.variableName = environment' t.variableName →
        (load parse path contents environment).map t.field =
          (load parse path contents environment').map t.field) ∧
      (load parse path contents environment).map watch =
        (load parse path contents environment').map watch) ∧
    ∀ c : Config,
      c.pollPeriod.toNat = max 1 c.pollInterval.toNat ∧
      c.pollLimit.toNat = max 1 c.pollTimeout.toNat ∧
      c.chatLimit.toNat = max 1 c.chatTimeout.toNat := by
  refine ⟨fun environment c => load_eq_ok_iff hparse,
    fun environment e => load_eq_error_iff hparse,
    fun environment environment' => ⟨fun t ht heq => ?_, fun t ht heq => ?_, ?_⟩, fun c => ?_⟩
  · refine map_field_load t ?_
    rw [Settings.given_ofEnvironment_text t ht, Settings.given_ofEnvironment_text t ht, heq]
  · refine map_field_load t ?_
    rw [Settings.given_ofEnvironment_number t ht, Settings.given_ofEnvironment_number t ht, heq]
  · rw [map_load, map_load]
    rfl
  · exact ⟨toNat_max _ _, toNat_max _ _, toNat_max _ _⟩

/-- A file gives the interval and a server to watch, and the variables a token and a number that is
none.  The interval is that of the file, and a file with a text for it is refused. -/
theorem load_layers_file :
    let environment (name : String) : Option String :=
      if name = "DISCORD_TOKEN" then some ""
      else if name = "POLL_INTERVAL_SECS" then some "1x" else none
    let text := "[poll]\ninterval_secs = 30\n" ++
      "[[watch]]\nguild_id = 1\nchannel_id = 2\naddress = 'a'\n"
    let c : Config := { token := "", pollInterval := 30, watch := [⟨1, 2, "a"⟩] }
    Toml.Parser.Bounded Toml.parse? ∧
      load Toml.parse? "f" (some text.toUTF8) environment = .ok c ∧
      (∃ document, Reads Toml.parse? (some text.toUTF8) document ∧ WellFormed document ∧
        Layers document environment c) ∧
      Malformed Toml.parse? (some "poll.interval_secs = '30'".toUTF8) := by
  intro environment text c
  have hload : load Toml.parse? "f" (some text.toUTF8) environment = .ok c := by decide +kernel
  have hbad : load Toml.parse? "f" (some "poll.interval_secs = '30'".toUTF8) environment =
      .error (.malformed "f") := by decide +kernel
  obtain ⟨hok, -⟩ := load_layers Toml.bounded_parse? "f" (some text.toUTF8)
  obtain ⟨-, herror, -⟩ :=
    load_layers Toml.bounded_parse? "f" (some "poll.interval_secs = '30'".toUTF8)
  refine ⟨Toml.bounded_parse?, hload, (hok environment c).1 hload, ?_⟩
  rcases (herror environment _).1 hbad with ⟨heq, -⟩ | ⟨-, hmalformed⟩
  · cases heq
  · exact hmalformed

/-- A variable that is empty still counts, unless it has to be a number. -/
example : load Toml.parse? "" none
    (fun name => if name = "CHAT_TIMEOUT_SECS" then some "+07" else some "") =
      .ok { token := "", databaseUrl := "", pollUrl := "", chatTimeout := 7 } := by decide +kernel

end Config

end StatusBoard
