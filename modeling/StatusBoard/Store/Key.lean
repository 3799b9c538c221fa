import StatusBoard.MessageRef

/-!
# Keys of stored rows

Rows are stored under signed 64-bit numbers, while ids are unsigned.  Storing an id keeps its bits,
so no id is lost (`toRef_key`), but rows are in the order of the signed numbers.
-/

namespace StatusBoard

namespace Store

/-- The key of a channel. -/
structure ChannelKey where
  guild : Int64
  channel : Int64
deriving DecidableEq, Inhabited

/-- The key of a row about a message. -/
structure MessageKey where
  guild : Int64
  channel : Int64
  message : Int64
deriving DecidableEq, Inhabited

/-- The key of one of several rows about a message: the position of a client or the id of a
user. -/
structure PartKey where
  owner : MessageKey
  part : Int64
deriving DecidableEq, Inhabited

/-- Guilds first, then channels. -/
def ChannelKey.order : ChannelKey → ChannelKey → Ordering :=
  compareLex (compareOn guild) (compareOn channel)

/-- Guilds first, then channels, then messages. -/
def MessageKey.order : MessageKey → MessageKey → Ordering :=
  compareLex (compareOn guild) (compareLex (compareOn channel) (compareOn message))

instance : Ord ChannelKey := ⟨ChannelKey.order⟩

instance : Std.TransOrd ChannelKey := inferInstanceAs (Std.TransCmp (compareLex _ _))

instance : Std.LawfulEqOrd ChannelKey where
  toReflCmp := inferInstance
  eq_of_compare {a b} h := by
    have h : ChannelKey.order a b = .eq := h
    simp only [ChannelKey.order, compareLex_eq_eq, compareOn,
      Std.LawfulEqCmp.compare_eq_iff_eq] at h
    cases a; cases b; simp_all

instance : Ord MessageKey := ⟨MessageKey.order⟩

instance : Std.TransOrd MessageKey := inferInstanceAs (Std.TransCmp (compareLex _ (compareLex _ _)))

instance : Std.LawfulEqOrd MessageKey where
  toReflCmp := inferInstance
  eq_of_compare {a b} h := by
    have h : MessageKey.order a b = .eq := h
    simp only [MessageKey.order, compareLex_eq_eq, compareOn,
      Std.LawfulEqCmp.compare_eq_iff_eq] at h
    cases a; cases b; simp_all

/-- The messages in their order, then the parts of each. -/
def PartKey.order : PartKey → PartKey → Ordering := compareLex (compareOn owner) (compareOn part)

instance : Ord PartKey := ⟨PartKey.order⟩

instance : Std.TransOrd PartKey := inferInstanceAs (Std.TransCmp (compareLex _ _))

instance : Std.LawfulEqOrd PartKey where
  toReflCmp := inferInstance
  eq_of_compare {a b} h := by
    have h : PartKey.order a b = .eq := h
    simp only [PartKey.order, compareLex_eq_eq, compareOn, Std.LawfulEqCmp.compare_eq_iff_eq] at h
    cases a; cases b; simp_all

/-- The channel that a key stands for. -/
def ChannelKey.toRef (k : ChannelKey) : ChannelRef := ⟨k.guild.toUInt64, k.channel.toUInt64⟩

/-- The message that a key stands for. -/
def MessageKey.toRef (k : MessageKey) : MessageRef :=
  ⟨k.guild.toUInt64, k.channel.toUInt64, k.message.toUInt64⟩

/-- The channel of a message's key. -/
def MessageKey.inChannel (k : MessageKey) : ChannelKey := ⟨k.guild, k.channel⟩

end Store

open Store

/-- The key under which a channel is stored. -/
def ChannelRef.key (c : ChannelRef) : ChannelKey := ⟨c.guild.toInt64, c.channel.toInt64⟩

namespace MessageRef

/-- The key under which rows about a message are stored. -/
def key (r : MessageRef) : MessageKey := ⟨r.guild.toInt64, r.channel.toInt64, r.message.toInt64⟩

/-- The key of one of several rows about a message. -/
def partKey (r : MessageRef) (part : Int64) : PartKey := ⟨r.key, part⟩

/-- Storing a message's ids loses nothing. -/
@[simp]
theorem toRef_key (r : MessageRef) : r.key.toRef = r := rfl

/-- Every key is the key of a message. -/
@[simp]
theorem key_toRef (k : MessageKey) : k.toRef.key = k := rfl

/-- Different messages have different keys. -/
theorem key_inj {r r' : MessageRef} : r.key = r'.key ↔ r = r' :=
  ⟨fun h => by rw [← toRef_key r, h, toRef_key], congrArg key⟩

end MessageRef

namespace Store

theorem ChannelKey.eq_key_iff {k : ChannelKey} {c : ChannelRef} : k = c.key ↔ k.toRef = c :=
  ⟨fun h => h ▸ rfl, fun h => h ▸ rfl⟩

theorem MessageKey.eq_key_iff {k : MessageKey} {r : MessageRef} : k = r.key ↔ k.toRef = r :=
  ⟨fun h => h ▸ rfl, fun h => h ▸ rfl⟩

end Store

end StatusBoard
