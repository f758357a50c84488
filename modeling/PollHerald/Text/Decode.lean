set_option autoImplicit false

/-! Text from bytes that should be UTF-8. Bytes that begin no character, and the longest beginning
of a character that breaks off, each become one mark of replacement. -/

namespace PollHerald.Text

structure Begun where
  /-- The number of bytes that are missing, of which there is at least one. -/
  missing : Nat
  /-- The bounds of the next byte. -/
  low : UInt8
  high : UInt8
  /-- The bits so far. -/
  bits : Nat
  deriving DecidableEq, Repr

def begun? (byte : UInt8) : Option Begun :=
  let code := byte.toNat
  if 0xC2 ≤ byte && byte ≤ 0xDF then
    some { missing := 1, low := 0x80, high := 0xBF, bits := code - 0xC0 }
  else if 0xE0 ≤ byte && byte ≤ 0xEF then
    some { missing := 2
           low := if byte = 0xE0 then 0xA0 else 0x80
           high := if byte = 0xED then 0x9F else 0xBF
           bits := code - 0xE0 }
  else if 0xF0 ≤ byte && byte ≤ 0xF4 then
    some { missing := 3
           low := if byte = 0xF0 then 0x90 else 0x80
           high := if byte = 0xF4 then 0x8F else 0xBF
           bits := code - 0xF0 }
  else none

def replacement : Char := '\uFFFD'

def beginChar (byte : UInt8) : List Char × Option Begun :=
  if byte < 0x80 then ([Char.ofNat byte.toNat], none)
  else
    match begun? byte with
    | some begun => ([], some begun)
    | none => ([replacement], none)

def decodeFrom (begun : Option Begun) : List UInt8 → List Char
  | [] => if begun.isSome then [replacement] else []
  | byte :: rest =>
    match begun with
    | none =>
      let (characters, next) := beginChar byte
      characters ++ decodeFrom next rest
    | some { missing, low, high, bits } =>
      if low ≤ byte && byte ≤ high then
        let bits := bits * 64 + (byte.toNat - 0x80)
        if missing = 1 then Char.ofNat bits :: decodeFrom none rest
        else decodeFrom (some { missing := missing - 1, low := 0x80, high := 0xBF, bits }) rest
      else
        let (characters, next) := beginChar byte
        replacement :: characters ++ decodeFrom next rest

/-- The text that bytes stand for. A byte order mark at the front is no part of it. -/
def decode (bytes : List UInt8) : String :=
  match decodeFrom none bytes with
  | '\uFEFF' :: characters => String.ofList characters
  | characters => String.ofList characters

end PollHerald.Text
