import PollHerald.Width

set_option autoImplicit false

/-! The two clocks. A hub counts seconds from its own epoch, everything else from the Unix epoch.
Times are held in 64 bits. -/

namespace PollHerald.Clock

/-- The hub's epoch in Unix seconds, the start of the year 2021. -/
def epoch : Nat := 1609459200

/-- Turns Unix seconds into hub seconds. A time that is not after the hub's epoch stays as it is. -/
def toHub (unix : Nat) : Nat :=
  if epoch < unix then unix - epoch else unix

def toUnix? (hub : Nat) : Option Nat :=
  if epoch + hub < Width.bound64 then some (epoch + hub) else none

/-- The hub time of a message signed at `unix`, in the 32 bits that a message has for it. -/
def stamp (unix : Nat) : Nat :=
  min (toHub unix) (Width.bound32 - 1)

end PollHerald.Clock
