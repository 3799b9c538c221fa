/-!
# Where a status message is

A status message is found by its guild, its channel in that guild and its own id.  References are
ordered by these three numbers in turn.
-/

namespace StatusBoard

/-- A channel of a guild. -/
structure ChannelRef where
  guild : UInt64
  channel : UInt64
deriving DecidableEq, Inhabited

/-- One message of a channel. -/
structure MessageRef where
  guild : UInt64
  channel : UInt64
  message : UInt64
deriving DecidableEq, Inhabited

namespace ChannelRef

/-- `guild/channel`. -/
def text (c : ChannelRef) : String := s!"{c.guild}/{c.channel}"

/-- A message of this channel. -/
def toMessage (c : ChannelRef) (message : UInt64) : MessageRef := ⟨c.guild, c.channel, message⟩

end ChannelRef

namespace MessageRef

/-- The channel that holds the message. -/
def inChannel (r : MessageRef) : ChannelRef := ⟨r.guild, r.channel⟩

/-- `guild/channel/message`. -/
def text (r : MessageRef) : String := s!"{r.guild}/{r.channel}/{r.message}"

/-- Guilds first, then channels, then messages. -/
def order : MessageRef → MessageRef → Ordering :=
  compareLex (compareOn guild) (compareLex (compareOn channel) (compareOn message))

instance : Ord MessageRef := ⟨order⟩

instance : Std.TransOrd MessageRef := inferInstanceAs (Std.TransCmp (compareLex _ (compareLex _ _)))

instance : Std.LawfulEqOrd MessageRef where
  toReflCmp := inferInstance
  eq_of_compare {a b} h := by
    have h : order a b = .eq := h
    simp only [order, compareLex_eq_eq, compareOn, Std.LawfulEqCmp.compare_eq_iff_eq] at h
    cases a; cases b; simp_all

end MessageRef

end StatusBoard
