/-! The two channels of a link: snapshots come in on one and commands go out on the other. -/

namespace TwinLink

inductive ChannelKind where
  | live
  | command
  deriving DecidableEq, Repr

namespace ChannelKind

def name : ChannelKind → String
  | live => "live"
  | command => "command"

def other : ChannelKind → ChannelKind
  | live => command
  | command => live

@[simp] theorem other_other (c : ChannelKind) : c.other.other = c := by cases c <;> rfl

theorem other_ne (c : ChannelKind) : c.other ≠ c := by cases c <;> decide

end ChannelKind

end TwinLink
