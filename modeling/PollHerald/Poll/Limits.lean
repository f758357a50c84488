import PollHerald.Poll.Duration

set_option autoImplicit false

/-! The limits that a poll has to keep. Settings write the durations as text. -/

namespace PollHerald.Poll

structure Settings where
  minOptions : Nat := 2
  maxOptions : Nat := 4
  minDuration : String := "1h"
  maxDuration : String := "15d"
  defaultDuration : String := "24h"
  deriving DecidableEq, Repr

/-- Limits as they are applied, with durations in nanoseconds. -/
structure Limits where
  minOptions : Nat
  maxOptions : Nat
  minDuration : Nat
  maxDuration : Nat
  /-- The duration of a poll that states none. -/
  defaultDuration : Nat
  deriving DecidableEq, Repr

def Limits.standard : Limits where
  minOptions := 2
  maxOptions := 4
  minDuration := TimeUnit.hour.nanoseconds
  maxDuration := 15 * TimeUnit.day.nanoseconds
  defaultDuration := TimeUnit.day.nanoseconds

/-- Reads the durations of the settings, of which the first wrong one is reported. -/
def Settings.toLimits (settings : Settings) : Except Error Limits := do
  let minDuration ← parseDuration settings.minDuration
  let maxDuration ← parseDuration settings.maxDuration
  let defaultDuration ← parseDuration settings.defaultDuration
  return {
    minOptions := settings.minOptions
    maxOptions := settings.maxOptions
    minDuration, maxDuration, defaultDuration }

end PollHerald.Poll
