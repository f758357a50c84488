import PollHerald.Text.Unshown

set_option autoImplicit false

/-! Quoted characters and texts, as messages show them. Inside the quotes a backslash, the quote
itself and the common controls are written with a backslash, and a character that is not shown is
written by its number. -/

namespace PollHerald.Text

/-- The number of a character in base 16, between braces. -/
def byNumber (character : Char) : List Char :=
  ['\\', 'u', '{'] ++ Nat.toDigits 16 character.toNat ++ ['}']

def escaped (quote character : Char) : List Char :=
  if character = '\x00' then ['\\', '0']
  else if character = '\t' then ['\\', 't']
  else if character = '\n' then ['\\', 'n']
  else if character = '\r' then ['\\', 'r']
  else if character = quote ∨ character = '\\' then ['\\', character]
  else if isUnshown character then byNumber character
  else [character]

def quotedChar (character : Char) : String :=
  String.ofList (['\''] ++ escaped '\'' character ++ ['\''])

def quoted (text : String) : String :=
  String.ofList (['"'] ++ text.toList.flatMap (escaped '"') ++ ['"'])

end PollHerald.Text
