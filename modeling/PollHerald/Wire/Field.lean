import PollHerald.Width

set_option autoImplicit false

/-! The binary format of messages. A message is a sequence of fields, each a key with a value after
it. The key joins the number of the field and the kind of the value. A number or a byte string that
has its default value is left out, and so is a packed list without members. -/

namespace PollHerald.Wire

/-- A number in base 128, the least digit first, with the high bit set in all bytes but the last. -/
def varint (number : Nat) : List UInt8 :=
  if number < 128 then [number.toUInt8]
  else (number % 128 + 128).toUInt8 :: varint (number / 128)
  termination_by number

inductive Kind where
  /-- One number. -/
  | number
  /-- A byte length and that many bytes. -/
  | bytes
  deriving DecidableEq, Repr

def Kind.code : Kind → Nat
  | .number => 0
  | .bytes => 2

def key (field : Nat) (kind : Kind) : List UInt8 :=
  varint (8 * field + kind.code)

/-- A field that holds bytes, whatever they are. -/
def bytesField (field : Nat) (bytes : List UInt8) : List UInt8 :=
  key field .bytes ++ varint bytes.length ++ bytes

/-- A field that holds a number, left out when it is zero. -/
def optionalNumber (field number : Nat) : List UInt8 :=
  if number = 0 then [] else key field .number ++ varint number

def optionalBytes (field : Nat) (bytes : List UInt8) : List UInt8 :=
  if bytes.isEmpty then [] else bytesField field bytes

def packedNumbers (field : Nat) (numbers : List Nat) : List UInt8 :=
  optionalBytes field (numbers.flatMap varint)

/-- The number by which a signed 32-bit number is written: its residue modulo 2^64. -/
def signedCode (number : Int32) : Nat :=
  (number.toInt % Width.bound64).toNat

end PollHerald.Wire
