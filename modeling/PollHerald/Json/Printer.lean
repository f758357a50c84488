import PollHerald.Json.Value

set_option autoImplicit false

/-! Writing a JSON value on one line. No space stands between tokens, and a string escapes the
quote, the backslash and the characters below U+0020, nothing else. -/

namespace PollHerald.Json

def escape (character : Char) : List Char :=
  if character = '"' then ['\\', '"']
  else if character = '\\' then ['\\', '\\']
  else if character = '\x08' then ['\\', 'b']
  else if character = '\x0c' then ['\\', 'f']
  else if character = '\n' then ['\\', 'n']
  else if character = '\r' then ['\\', 'r']
  else if character = '\t' then ['\\', 't']
  else if character.toNat < 0x20 then
    ['\\', 'u', '0', '0',
      Nat.digitChar (character.toNat / 16), Nat.digitChar (character.toNat % 16)]
  else [character]

/-- A string. One without content is written as `null`. -/
def renderContent : Content → List Char
  | some characters => '"' :: characters.flatMap escape ++ ['"']
  | none => ['n', 'u', 'l', 'l']

mutual

def Value.render : Value → List Char
  | .null => ['n', 'u', 'l', 'l']
  | .truth true => ['t', 'r', 'u', 'e']
  | .truth false => ['f', 'a', 'l', 's', 'e']
  | .number digits => digits
  | .string content => renderContent content
  | .array [] => ['[', ']']
  | .array (item :: items) => '[' :: item.render ++ renderItems items ++ [']']
  | .object [] => ['{', '}']
  | .object ((name, value) :: members) =>
    '{' :: renderContent name ++ ':' :: value.render ++ renderMembers members ++ ['}']

def renderItems : List Value → List Char
  | [] => []
  | item :: items => ',' :: item.render ++ renderItems items

def renderMembers : List (Content × Value) → List Char
  | [] => []
  | (name, value) :: members =>
    ',' :: renderContent name ++ ':' :: value.render ++ renderMembers members

end

end PollHerald.Json
