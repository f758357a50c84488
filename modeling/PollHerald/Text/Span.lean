set_option autoImplicit false

/-! The short text of a length of time: the greatest unit of which there is a whole one, with as
many decimal places as are needed. -/

namespace PollHerald.Text

/-- The digits after the point: the lowest `places` digits of a number, without zeros at the end. -/
def placesOf (places number : Nat) : List Char :=
  let digits := Nat.toDigits 10 (number % Nat.pow 10 places)
  let padded := List.replicate (places - digits.length) '0' ++ digits
  (padded.reverse.dropWhile (· = '0')).reverse

/-- A number of units of `10 ^ places` each. -/
def decimal (places number : Nat) : List Char :=
  let whole := Nat.toDigits 10 (number / Nat.pow 10 places)
  match placesOf places number with
  | [] => whole
  | digits => whole ++ '.' :: digits

def span (nanoseconds : Nat) : String :=
  if 1000000000 ≤ nanoseconds then String.ofList (decimal 9 nanoseconds) ++ "s"
  else if 1000000 ≤ nanoseconds then String.ofList (decimal 6 nanoseconds) ++ "ms"
  else if 1000 ≤ nanoseconds then String.ofList (decimal 3 nanoseconds) ++ "µs"
  else String.ofList (Nat.toDigits 10 nanoseconds) ++ "ns"

end PollHerald.Text
