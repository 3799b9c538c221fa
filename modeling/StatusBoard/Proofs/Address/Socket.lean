import StatusBoard.Address.Socket
import StatusBoard.Proofs.Text.Cut
import StatusBoard.Proofs.Text.Numeral

/-!
# Socket addresses read back

The canonical text of a socket address is read as that address (`SocketAddress.ofText?_text`).  So
different addresses have different texts, whatever is elided in them.
-/

namespace StatusBoard

/-! ### IPv4 addresses -/

namespace Ipv4

theorem octet?_numeral (n : UInt8) : octet? (Text.numeral 10 n.toNat) = some n := by
  have hlength : (Text.numeral 10 n.toNat).length ≤ 3 :=
    Text.length_numeral_le (by decide) (Nat.lt_trans n.toNat_lt (by decide))
  have hzero : ¬ (1 < (Text.numeral 10 n.toNat).length ∧
      (Text.numeral 10 n.toNat).head? = some '0') := by
    rintro ⟨hlong, hhead⟩
    rcases Nat.eq_zero_or_pos n.toNat with hn | hn
    · rw [hn] at hlong
      exact absurd hlong (by decide)
    · exact Text.head?_numeral_ne_zero (by decide) (by decide) hn hhead
  rw [octet?, if_neg (not_or.2 ⟨Nat.not_lt.2 hlength, hzero⟩),
    Text.numeralBelow?_numeral (by decide) (by decide) n.toNat_lt, Option.map_some]
  exact congrArg some UInt8.ofNat_toNat

theorem dot_notMem_numeral {base : Nat} (hbase : 1 < base) (hbase' : base ≤ 16) (n : Nat) :
    '.' ∉ Text.numeral base n := by
  have hdigit : ∀ d < 16, d.digitChar ≠ '.' := by decide
  have hnumeral := Text.forall_mem_numeral (p := (· ≠ '.')) hbase fun d hd =>
    hdigit d (Nat.lt_of_lt_of_le hd hbase')
  exact fun h => hnumeral n _ h rfl

theorem ofText?_text (ip : Ipv4) : ofText? ip.text = some ip := by
  have hsplit : ip.text.splitOn '.' = [Text.numeral 10 ip.a.toNat, Text.numeral 10 ip.b.toNat,
      Text.numeral 10 ip.c.toNat, Text.numeral 10 ip.d.toNat] := by
    refine List.splitOn_intercalate '.' ?_ (List.cons_ne_nil _ _)
    simp [dot_notMem_numeral]
  rw [ofText?, hsplit]
  simp [octet?_numeral]

/-- A text that does not start with a digit is no address. -/
theorem ofText?_cons_eq_none {c : Char} (hdot : c ≠ '.') (hc : Text.digit? 10 c = none)
    (cs : List Char) : ofText? (c :: cs) = none := by
  have hoctet (cs : List Char) : octet? (c :: cs) = none := by
    simp [octet?, Text.numeralBelow?, Text.numeral?, hc]
  rw [ofText?, List.splitOn_cons_eq_if_modifyHead, if_neg (by simpa using hdot)]
  split
  · next a b d e hsplit =>
    obtain ⟨part, parts, hparts⟩ := List.exists_cons_of_ne_nil (List.splitOn_ne_nil '.' cs)
    rw [hparts, List.modifyHead_cons] at hsplit
    cases hsplit
    rw [hoctet]
    rfl
  · rfl

/-- Two groups are the bytes of an IPv4 address. -/
theorem groups_ofGroups (g h : UInt16) : (ofGroups g h).groups = [g, h] := by
  have hgroup (g : UInt16) : (g >>> 8).toUInt8.toUInt16 <<< 8 ||| g.toUInt8.toUInt16 = g := by
    have hg : g.toNat < 65536 := g.toNat_lt
    have hlow : g.toNat % 256 < 2 ^ 8 := Nat.mod_lt _ (by decide)
    have hhigh : g.toNat / 256 % 256 = g.toNat / 256 := by omega
    have hfit : g.toNat / 256 * 256 < 65536 := by omega
    have hbytes : ((g >>> 8).toUInt8.toUInt16 <<< 8 ||| g.toUInt8.toUInt16).toNat =
        g.toNat / 256 % 256 * 256 % 65536 ||| g.toNat % 256 := by
      simp [Nat.shiftRight_eq_div_pow, Nat.shiftLeft_eq]
    apply UInt16.toNat_inj.1
    rw [hbytes, hhigh, Nat.mod_eq_of_lt hfit, Nat.mul_comm, ← Nat.two_pow_add_eq_or_of_lt hlow]
    exact Nat.div_add_mod _ _
  rw [groups, ofGroups, hgroup, hgroup]

theorem forall_mem_text {p : Char → Prop} (hdigit : ∀ d < 16, p d.digitChar) (hdot : p '.')
    (ip : Ipv4) : ∀ c ∈ ip.text, p c := by
  have hnumeral : ∀ n, ∀ c ∈ Text.numeral 10 n, p c := Text.forall_mem_numeral (by decide)
    fun d hd => hdigit d (Nat.lt_trans hd (by decide))
  intro c hc
  simp only [text, List.intercalate_cons_cons, List.intercalate_singleton, List.mem_append,
    List.mem_singleton] at hc
  rcases hc with (hc | rfl) | (hc | rfl) | (hc | rfl) | hc
  · exact hnumeral _ c hc
  · exact hdot
  · exact hnumeral _ c hc
  · exact hdot
  · exact hnumeral _ c hc
  · exact hdot
  · exact hnumeral _ c hc

end Ipv4

/-! ### IPv6 addresses -/

namespace Ipv6

variable {groups : List UInt16}

theorem group?_numeral (g : UInt16) : group? (Text.numeral 16 g.toNat) = some g := by
  have hlength : (Text.numeral 16 g.toNat).length ≤ 4 :=
    Text.length_numeral_le (by decide) g.toNat_lt
  rw [group?, if_neg (Nat.not_lt.2 hlength),
    Text.numeralBelow?_numeral (by decide) (by decide) g.toNat_lt, Option.map_some]
  exact congrArg some UInt16.ofNat_toNat

theorem colon_notMem_numeral (n : Nat) : ':' ∉ Text.numeral 16 n := fun h =>
  Text.forall_mem_numeral (p := (· ≠ ':')) (by decide) (by decide) n _ h rfl

/-! #### Groups without an elision -/

theorem groupsText_cons_cons (g g' : UInt16) (groups : List UInt16) :
    groupsText (g :: g' :: groups) =
      Text.numeral 16 g.toNat ++ ':' :: groupsText (g' :: groups) := by
  simp [groupsText, List.intercalate_cons_cons]

theorem groupsText_singleton (g : UInt16) : groupsText [g] = Text.numeral 16 g.toNat :=
  List.intercalate_singleton

/-- Groups start with a digit. -/
theorem exists_groupsText_cons (g : UInt16) (groups : List UInt16) :
    ∃ c cs, groupsText (g :: groups) = c :: cs ∧ c ≠ ':' := by
  obtain ⟨c, cs, hnumeral⟩ := List.exists_cons_of_ne_nil (Text.numeral_ne_nil 16 g.toNat)
  have hc : c ≠ ':' := by
    rintro rfl
    exact colon_notMem_numeral g.toNat (hnumeral ▸ List.mem_cons_self)
  cases groups with
  | nil => exact ⟨c, cs, by rw [groupsText_singleton, hnumeral], hc⟩
  | cons g' groups => exact ⟨c, _, by rw [groupsText_cons_cons, hnumeral, List.cons_append], hc⟩

theorem groupsText_ne_nil (h : groups ≠ []) : groupsText groups ≠ [] := by
  obtain ⟨g, groups, rfl⟩ := List.exists_cons_of_ne_nil h
  obtain ⟨c, cs, htext, -⟩ := exists_groupsText_cons g groups
  exact htext ▸ List.cons_ne_nil c cs

theorem splitOn_groupsText (h : groups ≠ []) :
    (groupsText groups).splitOn ':' = groups.map fun g => Text.numeral 16 g.toNat := by
  refine List.splitOn_intercalate ':' ?_ (by simpa using h)
  simp [colon_notMem_numeral]

theorem mapM_group?_numerals (groups : List UInt16) :
    (groups.map fun g => Text.numeral 16 g.toNat).mapM group? = some groups := by
  induction groups with
  | nil => rfl
  | cons g groups ih => simp [group?_numeral, ih]

theorem headGroups?_groupsText (groups : List UInt16) :
    headGroups? (groupsText groups) = some groups := by
  by_cases h : groups = []
  · rw [h]
    rfl
  · rw [headGroups?, if_neg (by simpa using groupsText_ne_nil h), splitOn_groupsText h,
      mapM_group?_numerals]

/-- The last group is no IPv4 address, as it has no dots. -/
theorem ofText?_numeral (n : Nat) : Ipv4.ofText? (Text.numeral 16 n) = none := by
  rw [Ipv4.ofText?,
    List.splitOn_eq_singleton (Ipv4.dot_notMem_numeral (by decide) (by decide) n)]

theorem lastGroups?_numerals (groups : List UInt16) :
    lastGroups? (groups.map fun g => Text.numeral 16 g.toNat) = some groups := by
  induction groups with
  | nil => rfl
  | cons g groups ih =>
    cases groups with
    | nil => simp [lastGroups?, ofText?_numeral, group?_numeral]
    | cons g' groups =>
      rw [List.map_cons] at ih
      rw [List.map_cons, List.map_cons, lastGroups?.eq_3 _ _ (by simp), ih, group?_numeral]
      rfl

theorem tailGroups?_groupsText (groups : List UInt16) :
    tailGroups? (groupsText groups) = some groups := by
  by_cases h : groups = []
  · rw [h]
    rfl
  · rw [tailGroups?, if_neg (by simpa using groupsText_ne_nil h), splitOn_groupsText h,
      lastGroups?_numerals]

/-! #### Elisions -/

/-- Groups have no elision in them, also not together with what follows them. -/
theorem cut?_groupsText_append (groups : List UInt16) (cs : List Char) :
    Text.cut? [':', ':'] (groupsText groups ++ cs) =
      (Text.cut? [':', ':'] cs).map fun p => (groupsText groups ++ p.1, p.2) := by
  induction groups with
  | nil => simp [groupsText]
  | cons g groups ih =>
    cases groups with
    | nil =>
      rw [groupsText_singleton, Text.cut?_append_left (colon_notMem_numeral _)]
    | cons g' groups =>
      obtain ⟨c, rest, hrest, hc⟩ := exists_groupsText_cons g' groups
      -- The colon after a group is followed by the next group, not by another colon.
      have hcolon : Text.rest? [':', ':'] (':' :: (groupsText (g' :: groups) ++ cs)) = none := by
        rw [hrest]
        simp [Text.rest?, Ne.symm hc]
      rw [groupsText_cons_cons, List.append_assoc, List.cons_append,
        Text.cut?_append_left (colon_notMem_numeral _),
        Text.cut?_cons_of_rest?_eq_none hcolon, ih, Option.map_map, Option.map_map]
      refine congrArg (Option.map · _) (funext fun p => ?_)
      simp

theorem cut?_groupsText (groups : List UInt16) :
    Text.cut? [':', ':'] (groupsText groups) = none := by
  simpa [Text.cut?] using cut?_groupsText_append groups []

theorem cut?_elision (groups : List UInt16) (cs : List Char) :
    Text.cut? [':', ':'] (groupsText groups ++ "::".toList ++ cs) =
      some (groupsText groups, cs) := by
  rw [List.append_assoc, cut?_groupsText_append]
  simp [Text.cut?, Text.rest?]

/-- The run of zero groups that is elided stands between the groups in front of it and those
behind it. -/
theorem append_longestZeroRun (groups : List UInt16) :
    groups.take (longestZeroRun groups).1 ++
      List.replicate (longestZeroRun groups).2 0 ++
        groups.drop ((longestZeroRun groups).1 + (longestZeroRun groups).2) = groups := by
  induction groups with
  | nil => rfl
  | cons g groups ih =>
    unfold longestZeroRun
    dsimp only
    split
    · -- The run starts here.
      have hzeros : (g :: groups).takeWhile (· = 0) =
          List.replicate ((g :: groups).takeWhile (· = 0)).length 0 :=
        List.eq_replicate_of_mem fun x hx => by simpa using List.mem_takeWhile_imp hx
      rw [List.take_zero, List.nil_append, Nat.zero_add, ← hzeros]
      exact List.prefix_iff_eq_append.1 (List.takeWhile_prefix _)
    · rw [List.take_succ_cons, Nat.add_right_comm, List.drop_succ_cons, List.cons_append,
        List.cons_append, ih]

theorem ofGroups?_toList (ip : Ipv6) : ofGroups? ip.toList = some ip :=
  dif_pos ip.length_toList

/-- An elision stands for the zero groups that are missing. -/
theorem ofText?_elision {ip : Ipv6} {before after : List UInt16} {zeros : Nat} (hzeros : 0 < zeros)
    (h : before ++ List.replicate zeros 0 ++ after = ip.toList) :
    ofText? (groupsText before ++ "::".toList ++ groupsText after) = some ip := by
  have hlength : before.length + zeros + after.length = 8 := by
    simpa [Nat.add_assoc] using congrArg List.length h
  have hmissing : 8 - (before.length + after.length) = zeros := by omega
  have hshort : ¬ 8 ≤ before.length + after.length := by omega
  rw [ofText?, cut?_elision]
  dsimp only
  rw [headGroups?_groupsText, tailGroups?_groupsText]
  change (if 8 ≤ before.length + after.length then none else
    ofGroups? (before ++ List.replicate (8 - (before.length + after.length)) 0 ++ after)) = some ip
  rw [if_neg hshort, hmissing, h, ofGroups?_toList]

theorem ofText?_text (ip : Ipv6) : ofText? ip.text = some ip := by
  have hlength : ip.toList.length = 8 := ip.length_toList
  unfold text
  split
  · next g h hgroups =>
    have hcut : Text.cut? [':', ':'] ("::ffff:".toList ++ (Ipv4.ofGroups g h).text) =
        some ([], "ffff:".toList ++ (Ipv4.ofGroups g h).text) := rfl
    have hcolon : ':' ∉ (Ipv4.ofGroups g h).text := fun hmem =>
      Ipv4.forall_mem_text (p := (· ≠ ':')) (by decide) (by decide) _ _ hmem rfl
    have hsplit : ("ffff:".toList ++ (Ipv4.ofGroups g h).text).splitOn ':' =
        ["ffff".toList, (Ipv4.ofGroups g h).text] := by
      have hprefix : ':' ∉ "ffff".toList := by decide
      have hfirst := List.splitOn_append_cons_self_of_not_mem hprefix (Ipv4.ofGroups g h).text
      rwa [List.splitOn_eq_singleton hcolon] at hfirst
    have hafter : tailGroups? ("ffff:".toList ++ (Ipv4.ofGroups g h).text) =
        some [0xffff, g, h] := by
      have hgroup : group? "ffff".toList = some 0xffff := by decide
      rw [tailGroups?, if_neg (by simp), hsplit, lastGroups?.eq_3 _ _ (by simp), lastGroups?,
        Ipv4.ofText?_text, hgroup]
      simp [Ipv4.groups_ofGroups]
    rw [ofText?, hcut]
    dsimp only
    rw [hafter]
    exact (congrArg ofGroups? hgroups).symm.trans (ofGroups?_toList ip)
  · dsimp only
    split
    · rw [ofText?, cut?_groupsText, splitOn_groupsText (List.ne_nil_of_length_eq_add_one hlength),
        lastGroups?_numerals]
      exact ofGroups?_toList ip
    · next hrun =>
      exact ofText?_elision (by omega) (append_longestZeroRun ip.toList)

theorem forall_mem_text {p : Char → Prop} (hdigit : ∀ d < 16, p d.digitChar) (hdot : p '.')
    (hcolon : p ':') (ip : Ipv6) : ∀ c ∈ ip.text, p c := by
  have hgroups (groups : List UInt16) : ∀ c ∈ groupsText groups, p c := by
    induction groups with
    | nil => exact List.forall_mem_nil _
    | cons g groups ih =>
      have hg : ∀ c ∈ Text.numeral 16 g.toNat, p c :=
        Text.forall_mem_numeral (by decide) hdigit g.toNat
      cases groups with
      | nil => rwa [groupsText_singleton]
      | cons g' groups =>
        rw [groupsText_cons_cons, List.forall_mem_append, List.forall_mem_cons]
        exact ⟨hg, hcolon, ih⟩
  unfold text
  split
  · next g h _ =>
    rw [List.forall_mem_append]
    refine ⟨?_, Ipv4.forall_mem_text hdigit hdot _⟩
    have hf : p 'f' := hdigit 15 (by decide)
    simp [hcolon, hf]
  · dsimp only
    split
    · exact hgroups _
    · rw [List.forall_mem_append, List.forall_mem_append]
      refine ⟨⟨hgroups _, ?_⟩, hgroups _⟩
      simp [hcolon]

end Ipv6

/-! ### Socket addresses -/

namespace SocketAddress

theorem port?_numeral (port : UInt16) : port? (Text.numeral 10 port.toNat) = some port := by
  rw [port?, Text.numeralBelow?_numeral (by decide) (by decide) port.toNat_lt, Option.map_some]
  exact congrArg some UInt16.ofNat_toNat

theorem scope?_scopeText (scope : UInt32) : scope? (scopeText scope) = some scope := by
  unfold scopeText
  split
  · next hscope =>
    rw [hscope]
    rfl
  · rw [scope?, Text.numeralBelow?_numeral (by decide) (by decide) scope.toNat_lt, Option.map_some]
    exact congrArg some UInt32.ofNat_toNat

theorem forall_mem_scopeText {p : Char → Prop} (hdigit : ∀ d < 16, p d.digitChar)
    (hpercent : p '%') (scope : UInt32) : ∀ c ∈ scopeText scope, p c := by
  unfold scopeText
  split
  · exact List.forall_mem_nil _
  · rw [List.forall_mem_cons]
    exact ⟨hpercent, Text.forall_mem_numeral (by decide)
      (fun d hd => hdigit d (Nat.lt_trans hd (by decide))) _⟩

theorem ofTextV4?_text (ip : Ipv4) (port : UInt16) :
    ofTextV4? (ip.text ++ ':' :: Text.numeral 10 port.toNat) = some (v4 ip port) := by
  have hip : ':' ∉ ip.text := fun hmem =>
    Ipv4.forall_mem_text (p := (· ≠ ':')) (by decide) (by decide) _ _ hmem rfl
  have hport : ':' ∉ Text.numeral 10 port.toNat := fun hmem =>
    Text.forall_mem_numeral (p := (· ≠ ':')) (by decide) (by decide) _ _ hmem rfl
  rw [ofTextV4?, List.splitOn_append_cons_self_of_not_mem hip, List.splitOn_eq_singleton hport]
  simp [Ipv4.ofText?_text, port?_numeral]

/-- A bracket does not start an IPv4 address. -/
theorem ofTextV4?_bracket (cs : List Char) : ofTextV4? ('[' :: cs) = none := by
  rw [ofTextV4?, List.splitOn_cons_eq_if_modifyHead, if_neg (by decide)]
  split
  · next ip port hsplit =>
    obtain ⟨part, parts, hparts⟩ := List.exists_cons_of_ne_nil (List.splitOn_ne_nil ':' cs)
    rw [hparts, List.modifyHead_cons] at hsplit
    cases hsplit
    rw [Ipv4.ofText?_cons_eq_none (by decide) rfl]
    rfl
  · rfl

theorem ofTextV6?_text (ip : Ipv6) (scope : UInt32) (port : UInt16) :
    ofTextV6? ('[' :: ip.text ++ scopeText scope ++ ']' :: ':' :: Text.numeral 10 port.toNat) =
      some (v6 ip scope port) := by
  have hinside : ∀ c ∈ ip.text ++ scopeText scope, decide (c ≠ ']') = true := by
    rw [List.forall_mem_append]
    exact ⟨Ipv6.forall_mem_text (by decide) (by decide) (by decide) ip,
      forall_mem_scopeText (by decide) (by decide) scope⟩
  have hip : ∀ c ∈ ip.text, decide (c ≠ '%') = true :=
    Ipv6.forall_mem_text (by decide) (by decide) (by decide) ip
  have hscope : (scopeText scope).takeWhile (· ≠ '%') = [] ∧
      (scopeText scope).dropWhile (· ≠ '%') = scopeText scope := by
    unfold scopeText
    split <;> simp
  change ofTextV6?
    ('[' :: (ip.text ++ scopeText scope ++ ']' :: ':' :: Text.numeral 10 port.toNat)) = _
  rw [ofTextV6?, List.dropWhile_append_of_pos hinside, List.takeWhile_append_of_pos hinside,
    List.dropWhile_cons_of_neg (by decide), List.takeWhile_cons_of_neg (by decide), List.append_nil,
    List.takeWhile_append_of_pos hip, List.dropWhile_append_of_pos hip, hscope.1, hscope.2,
    List.append_nil, Ipv6.ofText?_text, scope?_scopeText]
  simp [port?_numeral]

theorem forall_mem_text {p : Char → Prop} (hdigit : ∀ d < 16, p d.digitChar)
    (hmark : ∀ c ∈ ['.', ':', '[', ']', '%'], p c) (a : SocketAddress) :
    ∀ c ∈ a.text.toList, p c := by
  have hdot : p '.' := hmark _ (by simp)
  have hcolon : p ':' := hmark _ (by simp)
  have hnumeral : ∀ n, ∀ c ∈ Text.numeral 10 n, p c := Text.forall_mem_numeral (by decide)
    fun d hd => hdigit d (Nat.lt_trans hd (by decide))
  cases a with
  | v4 ip port =>
    rw [text, String.toList_ofList, List.forall_mem_append, List.forall_mem_cons]
    exact ⟨Ipv4.forall_mem_text hdigit hdot ip, hcolon, hnumeral _⟩
  | v6 ip scope port =>
    rw [text, String.toList_ofList, List.forall_mem_append, List.forall_mem_append,
      List.forall_mem_cons, List.forall_mem_cons, List.forall_mem_cons]
    exact ⟨⟨⟨hmark _ (by simp), Ipv6.forall_mem_text hdigit hdot hcolon ip⟩,
      forall_mem_scopeText hdigit (hmark _ (by simp)) scope⟩, hmark _ (by simp), hcolon, hnumeral _⟩

/-- The text of an address is read as that address. -/
@[simp]
theorem ofText?_text (a : SocketAddress) : ofText? a.text = some a := by
  cases a with
  | v4 ip port =>
    rw [ofText?, text, String.toList_ofList, ofTextV4?_text]
    rfl
  | v6 ip scope port =>
    rw [ofText?, text, String.toList_ofList, ofTextV6?_text, List.cons_append, List.cons_append,
      ofTextV4?_bracket]
    rfl

theorem text_inj {a b : SocketAddress} : a.text = b.text ↔ a = b := by
  refine ⟨fun h => ?_, congrArg text⟩
  simpa using congrArg ofText? h

end SocketAddress

end StatusBoard
