import PollHerald.Poll.Limits
import PollHerald.Text.Lines

set_option autoImplicit false

/-! Poll commands. The lines before the first option are the question, each line that starts with a
hyphen is an option, and the first other line after an option is the duration, which ends the
command. Lines are read without the blanks around them, and blank lines are passed over. -/

namespace PollHerald

structure Poll where
  question : String
  options : List String
  /-- In nanoseconds. -/
  duration : Nat
  deriving DecidableEq, Repr

namespace Poll

structure Outline where
  question : List (List Char) := []
  options : List (List Char) := []
  /-- The duration that the command states. -/
  duration : Option Nat := none
  deriving DecidableEq, Repr

/-- Reads the duration line of a command and checks it against the limits. -/
def readDuration (limits : Limits) (line : List Char) : Except Error Nat := do
  let duration ← parseDuration (String.ofList line)
  if duration < limits.minDuration ∨ limits.maxDuration < duration then
    throw (.durationOutOfRange (String.ofList line))
  return duration

/-- Reads trimmed lines after those in `outline`. An option beyond the most allowed and a bad
duration end the reading at once. -/
def readLines (limits : Limits) (outline : Outline) : List (List Char) → Except Error Outline
  | [] => .ok outline
  | [] :: rest => readLines limits outline rest
  | (first :: text) :: rest =>
    if first = '-' then
      if outline.options.length = limits.maxOptions then
        .error (.tooManyOptions limits.maxOptions)
      else
        readLines limits { outline with options := outline.options ++ [Text.trim text] } rest
    else if outline.options.isEmpty then
      readLines limits { outline with question := outline.question ++ [first :: text] } rest
    else do
      let duration ← readDuration limits (first :: text)
      return { outline with duration := some duration }

def Outline.toPoll (limits : Limits) (outline : Outline) : Except Error Poll :=
  let question := Text.trim (List.intercalate [' '] outline.question)
  if question.isEmpty then
    .error .questionNotSet
  else if outline.options.length < limits.minOptions then
    .error (.tooFewOptions limits.minOptions outline.options.length)
  else
    .ok {
      question := String.ofList question
      options := outline.options.map String.ofList
      duration := outline.duration.getD limits.defaultDuration }

def parse (limits : Limits) (text : String) : Except Error Poll := do
  let outline ← readLines limits {} ((Text.lines text.toList).map Text.trim)
  outline.toPoll limits

end Poll

end PollHerald
