set_option autoImplicit false

/-! Values of the data format JSON. -/

namespace PollHerald.Json

/-- The content of a string. There is none where an escape stands for half of a surrogate pair,
which no text can hold; such a string is well formed but has no value. -/
abbrev Content := Option (List Char)

/-- A value. A number is kept as it was written, and an object keeps its members in order, also
several of one name. -/
inductive Value where
  | null
  | truth (value : Bool)
  | number (digits : List Char)
  | string (content : Content)
  | array (items : List Value)
  | object (members : List (Content × Value))

def Value.ofString (text : String) : Value :=
  .string (some text.toList)

def Value.ofNat (number : Nat) : Value :=
  .number (Nat.toDigits 10 number)

def Value.record (members : List (String × Value)) : Value :=
  .object (members.map fun (name, value) => (some name.toList, value))

end PollHerald.Json
