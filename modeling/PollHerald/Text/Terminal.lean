import PollHerald.Text.Bytes
import PollHerald.Text.Quoted

set_option autoImplicit false

/-! Texts for a terminal. A control sequence starts with an escape character and tells how the text
after it looks, or something else that is not shown. Where nobody looks at a terminal, a text is
written without the sequences in it. -/

namespace PollHerald.Text.Terminal

inductive Look where
  | failure | wrong | literal

def Look.start : Look → String
  | .failure => "\x1b[1m\x1b[31m"
  | .wrong => "\x1b[33m"
  | .literal => "\x1b[1m"

def styled (look : Look) (text : String) : String :=
  look.start ++ text ++ "\x1b[0m"

inductive State where
  | text
  /-- What follows an escape character. -/
  | escape
  /-- An escape of several characters. -/
  | longEscape
  | sequence
  /-- A command, which ends with a bell. -/
  | command
  /-- A hidden text. -/
  | hidden
  deriving DecidableEq, Repr

def isWide (character : Char) : Bool :=
  0x80 ≤ character.toNat

def isSpace (character : Char) : Bool :=
  character == ' ' || character == '\t' || character == '\n' || character == '\x0c' ||
    character == '\r'

def isShown (character : Char) : Bool :=
  isWide character || isSpace character ||
    ('\x21' ≤ character && character ≤ '\x7e')

def endsHidden (character : Char) : Bool :=
  isWide character && (Text.utf8 (String.singleton character)).contains 0x9C

namespace State

def interrupt (state : State) (character : Char) : State :=
  if character = '\x1b' then .escape
  else if character = '\x18' ∨ character = '\x1a' then .text
  else state

def afterEscape (character : Char) : State :=
  if '\x20' ≤ character ∧ character ≤ '\x2f' then .longEscape
  else if character = '[' then .sequence
  else if character = ']' then .command
  else if character = 'P' ∨ character = 'X' ∨ character = '^' ∨ character = '_' then .hidden
  else if '\x30' ≤ character ∧ character ≤ '\x7e' then .text
  else .escape

def next (state : State) (character : Char) : State :=
  let ends := match state with
    | .text | .escape => false
    | .longEscape => '\x30' ≤ character && character ≤ '\x7e'
    | .sequence => '\x40' ≤ character && character ≤ '\x7e'
    | .command => character == '\x07'
    | .hidden => endsHidden character
  if ends then .text
  else if state = .escape ∧ state.interrupt character = state then afterEscape character
  else state.interrupt character

/-- Whether a character is shown. In an escape or a sequence blanks and breaks still are. -/
def shows (state : State) (character : Char) : Bool :=
  match state with
  | .text => isShown character
  | .escape | .longEscape | .sequence => isSpace character && character != ' '
  | .command | .hidden => false

end State

structure Reading where
  state : State := .text
  /-- Whether the last character was shown. What follows it is shown up to a control character, also
  in a sequence. -/
  isShowing : Bool := true
  /-- The characters that were shown, the last first. -/
  shown : List Char := []

namespace Reading

def showChar (reading : Reading) (state : State) (character : Char) : Reading :=
  { state := if isWide character then .text else state
    isShowing := true
    shown := character :: reading.shown }

def step (reading : Reading) (character : Char) : Reading :=
  if reading.isShowing ∧ isShown character then
    reading.showChar reading.state character
  else
    let state :=
      if reading.isShowing then reading.state.interrupt character else reading.state
    if state.shows character then reading.showChar (state.next character) character
    else { reading with state := state.next character, isShowing := false }

end Reading

/-- A text without control sequences, and without control characters other than breaks. -/
def plain (text : String) : String :=
  String.ofList (text.toList.foldl Reading.step {}).shown.reverse

def variableNames : List String :=
  ["NO_COLOR", "CLICOLOR_FORCE", "CLICOLOR", "TERM", "CI"]

def isColoured (isTerminal : Bool) (environment : String → Option String) : Bool :=
  if (environment "NO_COLOR").any (· != "") then false
  else if (environment "CLICOLOR_FORCE").any (· != "0") then true
  else if environment "CLICOLOR" = some "0" then false
  else
    isTerminal && ((environment "TERM").any (· != "dumb") || (environment "CLICOLOR").isSome ||
      (environment "CI").isSome)

def present (isColoured : Bool) (message : String) : String :=
  if isColoured then message else plain message

/-- A character that can be part of a control sequence is written by its number. -/
def disarmedChar (character : Char) : List Char :=
  if ['\x07', '\x08', '\x0c', '\x1b', '\x7f'].contains character then
    let digits := Nat.toDigits 16 character.toNat
    ['\\', 'x'] ++ List.replicate (2 - digits.length) '0' ++ digits
  else if 0x80 ≤ character.toNat ∧ character.toNat ≤ 0x9F then
    Text.byNumber character
  else
    [character]

def disarmed (text : String) : String :=
  String.ofList (text.toList.flatMap disarmedChar)

end PollHerald.Text.Terminal
