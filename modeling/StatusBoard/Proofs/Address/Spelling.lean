import StatusBoard.Address
import StatusBoard.Proofs.Address.Socket

/-!
# Spellings of an address

A raw address denotes the socket address that stands behind its protocol (`Address.Denotes`).  What
users give and what the master list gives meet in the canonical text: a stored address is found
under exactly those raw addresses that denote the same socket address.
-/

namespace StatusBoard.Address

variable {raw raw' address address' : String} {x y : SocketAddress}

/-- The raw address names this socket address behind its protocol, up to blanks around it and
slashes at its end. -/
def Denotes (raw : String) (x : SocketAddress) : Prop :=
  SocketAddress.ofText? (String.ofList (core (splitScheme raw).2)) = some x

theorem Denotes.unique (hx : Denotes raw x) (hy : Denotes raw y) : x = y :=
  Option.some.inj (hx.symm.trans hy)

/-! ### Canonical texts -/

theorem normalize_of_ofText? (h : SocketAddress.ofText? address = some x) :
    normalize address = x.text := by
  rw [normalize, h]

theorem normalize_text (x : SocketAddress) : normalize x.text = x.text :=
  normalize_of_ofText? x.ofText?_text

theorem normalize_normalize (address : String) :
    normalize (normalize address) = normalize address := by
  cases h : SocketAddress.ofText? address with
  | none => simp [normalize, h]
  | some x => rw [normalize_of_ofText? h, normalize_text]

/-- A text is normalized to the text of a socket address only if it is read as that address. -/
theorem normalize_eq_text_iff :
    normalize address = x.text ↔ SocketAddress.ofText? address = some x := by
  cases h : SocketAddress.ofText? address with
  | none =>
    rw [normalize, h]
    refine ⟨?_, nofun⟩
    rintro rfl
    rw [x.ofText?_text] at h
    exact h.symm
  | some y => rw [normalize_of_ofText? h, SocketAddress.text_inj, Option.some.injEq]

theorem slash_notMem_text (x : SocketAddress) : '/' ∉ x.text.toList := fun h =>
  SocketAddress.forall_mem_text (p := (· ≠ '/')) (by decide) (by simp) x _ h rfl

theorem not_isBlank_of_mem_text (x : SocketAddress) : ∀ c ∈ x.text.toList, ¬ Text.isBlank c :=
  SocketAddress.forall_mem_text (by decide) (by simp [Text.isBlank]) x

theorem splitScheme_text (x : SocketAddress) : splitScheme x.text = ("", x.text.toList) := by
  rw [splitScheme, Text.cut?_eq_none (s := '/') (by simp) (slash_notMem_text x)]

theorem core_text (x : SocketAddress) : core x.text.toList = x.text.toList := by
  rw [core, Text.trim_eq_self (not_isBlank_of_mem_text x)]
  refine Text.dropEndWhile_eq_self fun c hc => ?_
  rw [decide_eq_true_eq]
  rintro rfl
  exact slash_notMem_text x hc

theorem denotes_text (x : SocketAddress) : Denotes x.text x := by
  rw [Denotes, splitScheme_text, core_text, String.ofList_toList, x.ofText?_text]

/-! ### Splitting -/

theorem split?_eq_some_iff {protocol : String} : split? raw = some (protocol, address) ↔
    protocol = (splitScheme raw).1 ∧ core (splitScheme raw).2 ≠ [] ∧
      address = normalize (String.ofList (core (splitScheme raw).2)) := by
  rw [split?]
  dsimp only
  split
  · next hcore => simp [hcore]
  · next hcore =>
    rw [Option.some.injEq, Prod.mk.injEq]
    exact ⟨fun h => ⟨h.1.symm, hcore, h.2.symm⟩, fun h => ⟨h.1.symm, h.2.2.symm⟩⟩

theorem Denotes.core_ne_nil (h : Denotes raw x) : core (splitScheme raw).2 ≠ [] := by
  intro hcore
  rw [Denotes, hcore] at h
  cases h

/-- A raw address is split into the text of a socket address only if it denotes that address. -/
theorem exists_split?_iff : (∃ protocol, split? raw = some (protocol, x.text)) ↔ Denotes raw x := by
  simp only [split?_eq_some_iff, exists_and_right, exists_eq, true_and, eq_comm (a := x.text),
    normalize_eq_text_iff]
  exact ⟨And.right, fun h => ⟨Denotes.core_ne_nil h, h⟩⟩

theorem split?_text (x : SocketAddress) : split? x.text = some ("", x.text) := by
  have hcore := (denotes_text x).core_ne_nil
  rw [splitScheme_text, core_text] at hcore
  rw [split?_eq_some_iff, splitScheme_text, core_text, String.ofList_toList, normalize_text]
  exact ⟨rfl, hcore, rfl⟩

/-! ### Checking -/

theorem snd_splitScheme (raw : String) : (splitScheme raw).2 =
    ((Text.cut? [':', '/', '/'] raw.toList).map Prod.snd).getD raw.toList := by
  rw [splitScheme]
  cases Text.cut? [':', '/', '/'] raw.toList <;> rfl

/-- Blanks around a raw address do not matter. -/
theorem denotes_trim : Denotes (String.ofList (Text.trim raw.toList)) x ↔ Denotes raw x := by
  have hcore : core (splitScheme (String.ofList (Text.trim raw.toList))).2 =
      core (splitScheme raw).2 := by
    obtain ⟨start, stop, happend, hstart, hstop⟩ := Text.exists_append_trim raw.toList
    have hcolon : ':' ∉ start := fun h => absurd (hstart _ h) (by decide)
    have hseparator : ∀ s ∈ [':', '/', '/'], s ∉ stop := by
      have hmarks : ∀ s ∈ [':', '/', '/'], ¬ Text.isBlank s := by simp [Text.isBlank]
      exact fun s hs h => hmarks s hs (hstop s h)
    have hcut : Text.cut? [':', '/', '/'] raw.toList =
        (Text.cut? [':', '/', '/'] (Text.trim raw.toList)).map
          fun p => (start ++ p.1, p.2 ++ stop) := by
      conv_lhs => rw [happend]
      rw [List.append_assoc, Text.cut?_append_left hcolon,
        Text.cut?_append_right (List.cons_ne_nil _ _) hseparator, Option.map_map]
      rfl
    rw [snd_splitScheme, snd_splitScheme, String.toList_ofList, hcut]
    unfold core
    cases Text.cut? [':', '/', '/'] (Text.trim raw.toList) with
    | none => exact congrArg _ (Text.trim_trim _)
    | some parts => exact congrArg _ (Text.trim_append hstop _).symm
  rw [Denotes, hcore, Denotes]

/-- An address is accepted if it denotes a socket address with a port. -/
theorem validate_eq_ok_iff :
    validate raw = .ok address ↔ ∃ x, Denotes raw x ∧ x.port ≠ 0 ∧ address = x.text := by
  unfold validate
  constructor
  · intro h
    split at h
    · cases h
    · next protocol found hsplit =>
      split at h
      · cases h
      · next x hx =>
        have hfound : found = x.text := by
          obtain ⟨-, -, hnormal⟩ := split?_eq_some_iff.1 hsplit
          rw [← normalize_of_ofText? hx, hnormal, normalize_normalize]
        split at h
        · cases h
        · next hport =>
          cases h
          exact ⟨x, denotes_trim.1 (exists_split?_iff.1 ⟨protocol, hfound ▸ hsplit⟩), hport, rfl⟩
  · rintro ⟨x, hx, hport, rfl⟩
    obtain ⟨protocol, hsplit⟩ := exists_split?_iff.2 (denotes_trim.2 hx)
    rw [hsplit]
    dsimp only
    rw [x.ofText?_text]
    dsimp only
    rw [if_neg hport]

/-- What users give and what the master list gives meet: an accepted address is stored as the
canonical text of the socket address that it denotes.  That text is left alone by all further
normalization, a raw address of the master list is split into it exactly if it denotes the same
socket address, and two accepted addresses are stored alike exactly if they denote the same one. -/
theorem validate_meets_split? :
    (∀ raw address, validate raw = .ok address ↔
      ∃ x, Denotes raw x ∧ x.port ≠ 0 ∧ address = x.text) ∧
    (∀ raw address, validate raw = .ok address →
      normalize address = address ∧ split? address = some ("", address) ∧
      validate address = .ok address ∧
      (∀ raw', (∃ protocol, split? raw' = some (protocol, address)) ↔
        ∃ x, Denotes raw' x ∧ Denotes raw x) ∧
      ∀ raw' address', validate raw' = .ok address' →
        (address = address' ↔ ∃ x, Denotes raw x ∧ Denotes raw' x)) ∧
    ∀ address, normalize (normalize address) = normalize address := by
  refine ⟨fun raw address => validate_eq_ok_iff, fun raw address h => ?_, normalize_normalize⟩
  obtain ⟨x, hx, hport, rfl⟩ := validate_eq_ok_iff.1 h
  refine ⟨normalize_text x, split?_text x, validate_eq_ok_iff.2 ⟨x, denotes_text x, hport, rfl⟩,
    fun raw' => ?_, fun raw' address' h' => ?_⟩
  · rw [exists_split?_iff]
    refine ⟨fun hx' => ⟨x, hx', hx⟩, ?_⟩
    rintro ⟨y, hy', hy⟩
    rw [hx.unique hy]
    exact hy'
  · obtain ⟨x', hx', -, rfl⟩ := validate_eq_ok_iff.1 h'
    rw [SocketAddress.text_inj]
    constructor
    · rintro rfl
      exact ⟨x, hx, hx'⟩
    · rintro ⟨y, hy, hy'⟩
      rw [hx.unique hy, hx'.unique hy']

/-- An IPv4 address in the last two groups of an IPv6 address, spelled in three ways. -/
theorem validate_meets_split?_mapped :
    let raw := " tw-0.7+udp://[0:0:0:0:0:FFFF:102:304]:08303// "
    let raw' := "[0::ffff:1.2.3.4]:8303"
    let address := "[::ffff:1.2.3.4]:8303"
    validate raw = .ok address ∧ validate raw' = .ok address ∧
      split? address = some ("", address) ∧ validate address = .ok address ∧
      (∃ protocol, split? ("tw-0.6+udp://" ++ raw') = some (protocol, address)) ∧
      ∃ x, Denotes raw x ∧ Denotes raw' x := by
  intro raw raw' address
  have haddress : validate raw = .ok address := by decide +kernel
  have haddress' : validate raw' = .ok address := by decide +kernel
  obtain ⟨-, hmeet, -⟩ := validate_meets_split?
  obtain ⟨-, hsplit, hvalid, hfound, hsame⟩ := hmeet raw address haddress
  obtain ⟨x, hx, hx'⟩ := (hsame raw' address haddress').1 rfl
  have hlisted : Denotes ("tw-0.6+udp://" ++ raw') x := by
    have hsplit' : core (splitScheme ("tw-0.6+udp://" ++ raw')).2 = core (splitScheme raw').2 := by
      decide +kernel
    rw [Denotes, hsplit']
    exact hx'
  exact ⟨haddress, haddress', hsplit, hvalid, (hfound _).2 ⟨x, hlisted, hx⟩, x, hx, hx'⟩

end StatusBoard.Address
