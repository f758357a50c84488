import PollHerald.Binary64
import PollHerald.Poll.Error
import PollHerald.Text.Blank
import PollHerald.Text.Digit
import PollHerald.Width

set_option autoImplicit false

/-! Durations such as `24h`, `1h30m` or `.5d`. A duration is one or more components, each a decimal
number with a unit directly after it. An automaton decides whether a text is a duration at all, and
a scan from the left then lists its components. Durations are held in nanoseconds. -/

namespace PollHerald.Poll

inductive TimeUnit where
  | nanosecond | microsecond | millisecond | second | minute | hour | day
  deriving DecidableEq, Repr

def TimeUnit.nanoseconds : TimeUnit → Nat
  | .nanosecond => 1
  | .microsecond => 1000
  | .millisecond => 1000000
  | .second => 1000000000
  | .minute => 60 * 1000000000
  | .hour => 3600 * 1000000000
  | .day => 86400 * 1000000000

inductive Progress where
  /-- A number comes next. -/
  | start
  /-- The digits before a point were read. -/
  | whole
  /-- A point without digits before it was read. -/
  | point
  /-- A point and some digits around it were read. -/
  | fraction
  /-- The first letter of a unit that ends in `s` was read. -/
  | halfUnit
  /-- An `m` was read, which is a unit and may also become `ms`. -/
  | minute
  /-- A unit was read. -/
  | complete
  /-- The text is no duration, whatever follows. -/
  | failed
  deriving DecidableEq, Repr

def Progress.ofUnitLetter (letter : Char) : Progress :=
  if letter = 'n' ∨ letter = 'u' ∨ letter = 'µ' then .halfUnit
  else if letter = 'm' then .minute
  else if letter = 's' ∨ letter = 'h' ∨ letter = 'd' then .complete
  else .failed

def Progress.ofNumberStart (character : Char) : Progress :=
  if Text.isDigit character then .whole
  else if character = '.' then .point
  else .failed

def Progress.step (progress : Progress) (character : Char) : Progress :=
  match progress with
  | .start | .complete => .ofNumberStart character
  | .whole =>
    if Text.isDigit character then .whole
    else if character = '.' then .fraction
    else .ofUnitLetter character
  | .point => if Text.isDigit character then .fraction else .failed
  | .fraction => if Text.isDigit character then .fraction else .ofUnitLetter character
  | .halfUnit => if character = 's' then .complete else .failed
  | .minute => if character = 's' then .complete else .ofNumberStart character
  | .failed => .failed

/-- Whether the whole text is one or more components. -/
def isDuration (text : List Char) : Bool :=
  match text.foldl Progress.step .start with
  | .minute | .complete => true
  | _ => false

structure Component where
  number : List Char
  unit : TimeUnit
  deriving DecidableEq, Repr

def takeNumber (text : List Char) : Option (List Char × List Char) :=
  let digits := text.takeWhile Text.isDigit
  match digits, text.dropWhile Text.isDigit with
  | [], '.' :: rest =>
    let places := rest.takeWhile Text.isDigit
    if places.isEmpty then none
    else some ('.' :: places, rest.dropWhile Text.isDigit)
  | [], _ => none
  | _, '.' :: rest =>
    some (digits ++ '.' :: rest.takeWhile Text.isDigit, rest.dropWhile Text.isDigit)
  | _, rest => some (digits, rest)

/-- Reads a unit, the longer of two units that share a first letter. -/
def takeUnit : List Char → Option (TimeUnit × List Char)
  | 'n' :: 's' :: rest => some (.nanosecond, rest)
  | 'u' :: 's' :: rest => some (.microsecond, rest)
  | 'µ' :: 's' :: rest => some (.microsecond, rest)
  | 'm' :: 's' :: rest => some (.millisecond, rest)
  | 's' :: rest => some (.second, rest)
  | 'm' :: rest => some (.minute, rest)
  | 'h' :: rest => some (.hour, rest)
  | 'd' :: rest => some (.day, rest)
  | _ => none

def takeComponent (text : List Char) : Option (Component × List Char) := do
  let (number, afterNumber) ← takeNumber text
  let (unit, rest) ← takeUnit afterNumber
  return ({ number, unit }, rest)

/-- The components of a text from left to right, with whatever stands between them passed over.
No component is longer than the fuel. -/
def componentsWithin : Nat → List Char → List Component
  | 0, _ => []
  | _, [] => []
  | fuel + 1, character :: text =>
    match takeComponent (character :: text) with
    | some (component, rest) => component :: componentsWithin fuel rest
    | none => componentsWithin fuel text

def components (text : List Char) : List Component :=
  componentsWithin text.length text

def digitsValue (digits : List Char) : Nat :=
  digits.foldl (fun value digit => 10 * value + (digit.toNat - '0'.toNat)) 0

/-- The double precision value of a number. Digits of other scripts have no value. -/
def numberValue? (number : List Char) : Option Nat :=
  let whole := number.takeWhile (· ≠ '.')
  let places := (number.dropWhile (· ≠ '.')).drop 1
  if (whole ++ places).all Char.isDigit then
    some (Binary64.ofDecimal (digitsValue (whole ++ places)) places.length)
  else
    none

def Component.value? (component : Component) : Option Nat :=
  (numberValue? component.number).map fun number =>
    Binary64.times number component.unit.nanoseconds

/-- The nanoseconds of the components together. A sum above the bound cannot be held, and the bound
itself becomes the greatest number below it. -/
def total? (parts : List Component) : Option Nat := do
  let values ← parts.mapM Component.value?
  let sum := values.foldl Binary64.plus 0
  if Width.bound64 * Binary64.one < sum then
    none
  else
    return min (Binary64.toWhole sum) (Width.bound64 - 1)

/-- The nanoseconds of a text without blanks around it. A lone zero needs no unit. -/
def durationOf? (text : List Char) : Option Nat :=
  if text = ['0'] then some 0
  else if isDuration text then total? (components text)
  else none

/-- Reads a duration. The error shows the text as it was given. -/
def parseDuration (text : String) : Except Error Nat :=
  match durationOf? (Text.trim text.toList) with
  | some nanoseconds => .ok nanoseconds
  | none => .error (.durationParse text)

end PollHerald.Poll
