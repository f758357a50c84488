set_option autoImplicit false

/-! Sums and products of non-negative binary floating point numbers of double precision. Every such
number is a whole multiple of the least positive one, 2^-1074, and is held as that multiple, so all
arithmetic is on natural numbers: an operation takes the exact result and rounds it once to 53
significant bits, to the nearest and on a tie to the even neighbour. There is no largest number:
what would be infinite stays above every limit that a caller compares it with. -/

namespace PollHerald.Binary64

/-- The number one, in units of the least positive number. -/
def one : Nat := Nat.pow 2 1074

/-- Divides, and rounds the quotient to the nearest, on a tie to the even neighbour. -/
def divideToEven (numerator denominator : Nat) : Nat :=
  let quotient := numerator / denominator
  let twice := 2 * (numerator % denominator)
  if denominator < twice ∨ (twice = denominator ∧ quotient % 2 = 1) then quotient + 1 else quotient

/-- The power of two below which the bits of a whole number are rounded away. -/
def grain (whole : Nat) : Nat :=
  Nat.pow 2 (whole.log2 - 52)

def nearest (numerator denominator : Nat) : Nat :=
  let scale := grain (numerator / denominator)
  divideToEven numerator (denominator * scale) * scale

def ofDecimal (digits places : Nat) : Nat :=
  nearest (digits * one) (Nat.pow 10 places)

/-- The product with a whole number that has at most 53 bits. -/
def times (number factor : Nat) : Nat :=
  nearest (number * factor) 1

def plus (left right : Nat) : Nat :=
  nearest (left + right) 1

/-- The nearest whole number, a half going up. -/
def toWhole (number : Nat) : Nat :=
  (2 * number + one) / (2 * one)

end PollHerald.Binary64
