import PollHerald.Json.Value

set_option autoImplicit false

/-! Tokens of a JSON text. Only the space, the tab, the line feed and the carriage return may stand
between tokens, and numbers and strings follow the strict grammar. -/

namespace PollHerald.Json

inductive Token where
  | openArray | closeArray | openObject | closeObject | colon | comma
  | null
  | truth (value : Bool)
  | number (digits : List Char)
  | string (content : Content)
  deriving DecidableEq, Repr

def isSpace (character : Char) : Bool :=
  character == ' ' || character == '\t' || character == '\n' || character == '\r'

def hexValue? (character : Char) : Option Nat :=
  if '0' ≤ character ∧ character ≤ '9' then some (character.toNat - '0'.toNat)
  else if 'a' ≤ character ∧ character ≤ 'f' then some (character.toNat - 'a'.toNat + 10)
  else if 'A' ≤ character ∧ character ≤ 'F' then some (character.toNat - 'A'.toNat + 10)
  else none

def letterEscape? : Char → Option Char
  | '"' => some '"'
  | '\\' => some '\\'
  | '/' => some '/'
  | 'b' => some '\x08'
  | 'f' => some '\x0c'
  | 'n' => some '\n'
  | 'r' => some '\r'
  | 't' => some '\t'
  | _ => none

/-- A part of a string: a character, or a unit of UTF-16 written by its number. -/
inductive Part where
  | character (character : Char)
  | unit (number : Nat)
  deriving DecidableEq, Repr

def isHighHalf (unit : Nat) : Bool := 0xD800 ≤ unit && unit < 0xDC00

def isLowHalf (unit : Nat) : Bool := 0xDC00 ≤ unit && unit < 0xE000

/-- The content of a string with the given parts: each half of a pair needs its other half. -/
def contentOf : List Part → Content
  | [] => some []
  | .character character :: rest => (contentOf rest).map (character :: ·)
  | .unit high :: .unit low :: rest =>
    if isHighHalf high then
      if isLowHalf low then
        (contentOf rest).map
          (Char.ofNat (0x10000 + (high - 0xD800) * 0x400 + (low - 0xDC00)) :: ·)
      else none
    else if isLowHalf high then none
    else (contentOf (.unit low :: rest)).map (Char.ofNat high :: ·)
  | .unit unit :: rest =>
    if isHighHalf unit ∨ isLowHalf unit then none
    else (contentOf rest).map (Char.ofNat unit :: ·)

def unitNumber? (first second third fourth : Char) : Option Nat := do
  let a ← hexValue? first
  let b ← hexValue? second
  let c ← hexValue? third
  let d ← hexValue? fourth
  return ((a * 16 + b) * 16 + c) * 16 + d

/-- Reads a string after its opening quote; `parts` holds what was read, the last part first. -/
def takeParts (parts : List Part) : List Char → Option (List Part × List Char)
  | [] => none
  | '"' :: rest => some (parts.reverse, rest)
  | '\\' :: 'u' :: first :: second :: third :: fourth :: rest =>
    match unitNumber? first second third fourth with
    | some number => takeParts (.unit number :: parts) rest
    | none => none
  | '\\' :: letter :: rest =>
    match letterEscape? letter with
    | some character => takeParts (.character character :: parts) rest
    | none => none
  | character :: rest =>
    if character = '\\' ∨ character.toNat < 0x20 then none
    else takeParts (.character character :: parts) rest

def spanDigits (text : List Char) : List Char × List Char :=
  (text.takeWhile Char.isDigit, text.dropWhile Char.isDigit)

/-- Reads the digits before the point. A zero stands alone. -/
def takeWhole (text : List Char) : Option (List Char × List Char) :=
  match spanDigits text with
  | ([], _) => none
  | ('0' :: _ :: _, _) => none
  | (digits, rest) => some (digits, rest)

def takeFraction : List Char → Option (List Char × List Char)
  | '.' :: text =>
    match spanDigits text with
    | ([], _) => none
    | (digits, rest) => some ('.' :: digits, rest)
  | text => some ([], text)

def spanSign (signs : List Char) : List Char → List Char × List Char
  | [] => ([], [])
  | character :: rest =>
    if character ∈ signs then ([character], rest) else ([], character :: rest)

def takeExponent : List Char → Option (List Char × List Char)
  | [] => some ([], [])
  | letter :: text =>
    if letter = 'e' ∨ letter = 'E' then
      let (sign, afterSign) := spanSign ['+', '-'] text
      match spanDigits afterSign with
      | ([], _) => none
      | (digits, rest) => some (letter :: sign ++ digits, rest)
    else
      some ([], letter :: text)

def takeNumber (text : List Char) : Option (List Char × List Char) := do
  let (sign, afterSign) := spanSign ['-'] text
  let (whole, afterWhole) ← takeWhole afterSign
  let (fraction, afterFraction) ← takeFraction afterWhole
  let (exponent, rest) ← takeExponent afterFraction
  return (sign ++ whole ++ fraction ++ exponent, rest)

def takeToken : List Char → Option (Token × List Char)
  | [] => none
  | '[' :: rest => some (.openArray, rest)
  | ']' :: rest => some (.closeArray, rest)
  | '{' :: rest => some (.openObject, rest)
  | '}' :: rest => some (.closeObject, rest)
  | ':' :: rest => some (.colon, rest)
  | ',' :: rest => some (.comma, rest)
  | 'n' :: 'u' :: 'l' :: 'l' :: rest => some (.null, rest)
  | 't' :: 'r' :: 'u' :: 'e' :: rest => some (.truth true, rest)
  | 'f' :: 'a' :: 'l' :: 's' :: 'e' :: rest => some (.truth false, rest)
  | '"' :: text => (takeParts [] text).map fun (parts, rest) => (.string (contentOf parts), rest)
  | text => (takeNumber text).map fun (digits, rest) => (.number digits, rest)

/-- Reads all tokens of a text; `found` holds those before it, the last one first. Each step takes
at least one character, so the fuel is the length of the text. -/
def tokensWithin : Nat → List Token → List Char → Option (List Token)
  | 0, found, text => if text.isEmpty then some found.reverse else none
  | _, found, [] => some found.reverse
  | fuel + 1, found, character :: text =>
    if isSpace character then
      tokensWithin fuel found text
    else
      match takeToken (character :: text) with
      | some (token, rest) => tokensWithin fuel (token :: found) rest
      | none => none

def tokens? (text : List Char) : Option (List Token) :=
  tokensWithin text.length [] text

end PollHerald.Json
