set_option autoImplicit false

/-! Byte strings as numbers and as blocks. -/

namespace PollHerald.Crypto

def ofLittleEndian (bytes : List UInt8) : Nat :=
  bytes.foldr (fun byte number => byte.toNat + 256 * number) 0

def littleEndian : Nat → Nat → List UInt8
  | 0, _ => []
  | count + 1, number => number.toUInt8 :: littleEndian count (number / 256)

def ofBigEndian (bytes : List UInt8) : Nat :=
  ofLittleEndian bytes.reverse

def bigEndian (count number : Nat) : List UInt8 :=
  (littleEndian count number).reverse

/-- Cuts bytes into blocks of the given size, of which only the last may be shorter. Without any
bytes there is one empty block. -/
def blocks (size : Nat) (bytes : List UInt8) : List (List UInt8) :=
  if 0 < size ∧ size < bytes.length then
    bytes.take size :: blocks size (bytes.drop size)
  else
    [bytes]
  termination_by bytes.length
  decreasing_by
    simp only [List.length_drop]
    omega

end PollHerald.Crypto
