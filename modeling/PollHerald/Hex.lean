import PollHerald.Text.Bytes
import PollHerald.Text.Quoted

set_option autoImplicit false

/-! Base-16 text of byte strings. Reading takes both cases of digits and works on the UTF-8 bytes
of the text, so that a position names a byte. -/

namespace PollHerald.Hex

inductive Error where
  /-- The text has an odd number of bytes, so the last one has no partner. -/
  | oddLength
  /-- The byte at this position is not a digit. -/
  | invalidDigit (byte : UInt8) (position : Nat)
  deriving DecidableEq, Repr

/-- The wording of an error. A bad byte is shown as the character with its number. -/
def Error.message : Error → String
  | .oddLength => "Odd number of digits"
  | .invalidDigit byte position =>
    "Invalid character " ++ Text.quotedChar (Char.ofNat byte.toNat) ++ s!" at position {position}"

def digitValue? (byte : UInt8) : Option UInt8 :=
  if 48 ≤ byte && byte ≤ 57 then some (byte - 48)
  else if 65 ≤ byte && byte ≤ 70 then some (byte - 55)
  else if 97 ≤ byte && byte ≤ 102 then some (byte - 87)
  else none

private def digitAt (position : Nat) (byte : UInt8) : Except Error UInt8 :=
  match digitValue? byte with
  | some value => .ok value
  | none => .error (.invalidDigit byte position)

private def pairs (position : Nat) : List UInt8 → Except Error (List UInt8)
  | high :: low :: rest => do
    let highValue ← digitAt position high
    let lowValue ← digitAt (position + 1) low
    let bytes ← pairs (position + 2) rest
    return (highValue * 16 + lowValue) :: bytes
  | _ => .ok []

/-- Reads a base-16 text. An odd length is reported before any bad digit. -/
def decode (text : String) : Except Error (List UInt8) :=
  let bytes := Text.utf8 text
  if bytes.length % 2 = 1 then .error .oddLength else pairs 0 bytes

def digit (value : Nat) : Char :=
  Char.ofNat (if value < 10 then 48 + value else 87 + value)

def encodeByte (byte : UInt8) : List Char :=
  [digit (byte.toNat / 16), digit (byte.toNat % 16)]

def encode (bytes : List UInt8) : String :=
  String.ofList (bytes.flatMap encodeByte)

def dropMarker (text : String) : String :=
  match text.toList with
  | '0' :: 'x' :: rest => String.ofList rest
  | _ => text

end PollHerald.Hex
