import PollHerald.Crypto.Sha512

set_option autoImplicit false

/-! Signatures by the scheme Ed25519: the group of points of a twisted Edwards curve over the field
of 2^255 - 19 elements, with SHA-512 as the hash. -/

namespace PollHerald.Crypto.Ed25519

def fieldOrder : Nat := Nat.pow 2 255 - 19

def groupOrder : Nat := Nat.pow 2 252 + 27742317777372353535851937790883648493

def sub (left right : Nat) : Nat :=
  (left + fieldOrder - right % fieldOrder) % fieldOrder

def power (base exponent : Nat) : Nat :=
  if exponent = 0 then 1
  else
    let half := power (base * base % fieldOrder) (exponent / 2)
    if exponent % 2 = 1 then base * half % fieldOrder else half
  termination_by exponent

def inverse (element : Nat) : Nat :=
  power element (fieldOrder - 2)

/-- The constant of the curve `-x² + y² = 1 + d x² y²`. -/
def curveConstant : Nat :=
  sub 0 (121665 * inverse 121666)

/-- A point in extended coordinates: the place is `(x / z, y / z)`, and `x y = z t`. -/
structure Point where
  x : Nat
  y : Nat
  z : Nat
  t : Nat

def neutral : Point := { x := 0, y := 1, z := 1, t := 0 }

def basePoint : Point :=
  let x := 15112221349535400772501151409588531511454012693041857206046113283949847762202
  let y := 46316835694926478169428394003475163141307993866256225615783033603165251855960
  { x, y, z := 1, t := x * y % fieldOrder }

/-- The sum of two points, the same one included. -/
def Point.add (left right : Point) : Point :=
  let a := sub left.y left.x * sub right.y right.x
  let b := (left.y + left.x) * (right.y + right.x)
  let c := 2 * left.t * right.t % fieldOrder * curveConstant
  let d := 2 * left.z * right.z
  let e := sub b a
  let f := sub d c
  let g := (d + c) % fieldOrder
  let h := (b + a) % fieldOrder
  { x := e * f % fieldOrder, y := g * h % fieldOrder, z := f * g % fieldOrder
    t := e * h % fieldOrder }

def Point.multiple (point : Point) (factor : Nat) : Point :=
  if factor = 0 then neutral
  else
    let half := (point.add point).multiple (factor / 2)
    if factor % 2 = 1 then point.add half else half
  termination_by factor

/-- The 32 bytes of a point: `y`, with the lowest bit of `x` in the highest bit. -/
def Point.encode (point : Point) : List UInt8 :=
  let scale := inverse point.z
  let x := point.x * scale % fieldOrder
  let y := point.y * scale % fieldOrder
  littleEndian 32 (y + x % 2 * Nat.pow 2 255)

/-- The secret number of a seed: bit 254 is set, the bits above it and the lowest three are not. -/
def secretNumber (seed : List UInt8) : Nat :=
  let number := ofLittleEndian ((Sha512.hash seed).take 32)
  number % Nat.pow 2 254 / 8 * 8 + Nat.pow 2 254

def publicKey (seed : List UInt8) : List UInt8 :=
  (basePoint.multiple (secretNumber seed)).encode

def challenge (bytes : List UInt8) : Nat :=
  ofLittleEndian (Sha512.hash bytes) % groupOrder

def sign (seed message : List UInt8) : List UInt8 :=
  let nonce := challenge ((Sha512.hash seed).drop 32 ++ message)
  let commitment := (basePoint.multiple nonce).encode
  let proof := (nonce + challenge (commitment ++ publicKey seed ++ message) * secretNumber seed)
    % groupOrder
  commitment ++ littleEndian 32 proof

end PollHerald.Crypto.Ed25519
