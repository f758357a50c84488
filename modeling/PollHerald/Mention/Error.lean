set_option autoImplicit false

/-! The ways in which mentions and a text do not fit together. -/

namespace PollHerald.Mention

inductive Error where
  /-- The number of accounts is not the number of places for them. -/
  | count (expected found : Nat)
  /-- The position is beyond the text or inside one of its characters. -/
  | offset (position length : Nat)
  deriving DecidableEq, Repr

def Error.message : Error → String
  | .count expected found => s!"invalid mention count: expected {expected}, got {found}"
  | .offset position length => s!"invalid mention offset {position} for text of {length} bytes"

end PollHerald.Mention
