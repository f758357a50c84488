import PollHerald.Json.Reader
import PollHerald.Record
import PollHerald.Width

set_option autoImplicit false

/-! Reading typed values out of JSON values. Each reader takes exactly one kind of value. -/

namespace PollHerald.Json

/-- The values of the fields of a record, which is an object or an array. -/
def fieldValues (fields : List Record.Field) : Value → Option (List (Option Value))
  | .object members => Record.ofMembers fields members
  | .array items => Record.ofItems fields items
  | _ => none

def readText : Value → Option String
  | .string (some characters) => some (String.ofList characters)
  | _ => none

def digitsValue (digits : List Char) : Nat :=
  digits.foldl (fun value digit => 10 * value + (digit.toNat - '0'.toNat)) 0

/-- A whole number below a bound, written without sign, point and exponent. -/
def readNatBelow (bound : Nat) : Value → Option Nat
  | .number digits =>
    if digits.all Char.isDigit ∧ digitsValue digits < bound then some (digitsValue digits) else none
  | _ => none

def readWord : Value → Option Nat :=
  readNatBelow Width.bound64

def readList {α : Type} (read : Value → Option α) : Value → Option (List α)
  | .array items => items.mapM read
  | _ => none

def readNullable {α : Type} (read : Value → Option α) : Value → Option (Option α)
  | .null => some none
  | value => (read value).map some

end PollHerald.Json
