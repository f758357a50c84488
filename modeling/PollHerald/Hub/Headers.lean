import PollHerald.Text.Bytes

set_option autoImplicit false

/-! The headers that ride on every request. Names are compared without regard to case and kept in
lower case. Of several values for one name the last one holds, at the place of the first. -/

namespace PollHerald.Hub

/-- Headers with names in lower case, each of which occurs once. -/
abbrev Headers := List (String × String)

namespace Headers

inductive Error where
  | name
  | value
  deriving DecidableEq, Repr

def Error.message : Error → String
  | .name => "invalid HTTP header name"
  | .value => "failed to parse header value"

def nameBound : Nat := 65535

def isNameChar (character : Char) : Bool :=
  character.isAlphanum || "!\"#$%&'*+-.^_`|~".toList.contains character

def isName (text : String) : Bool :=
  !text.isEmpty && text.length ≤ nameBound && text.toList.all isNameChar

/-- Whether a byte may stand in a value: a tab, and what is no control character. -/
def isValueByte (byte : UInt8) : Bool :=
  byte == 9 || (32 ≤ byte && byte != 127)

def isValue (text : String) : Bool :=
  (Text.utf8 text).all isValueByte

def insert (headers : Headers) (name value : String) : Headers :=
  match headers with
  | [] => [(name, value)]
  | header :: rest =>
    if header.1 = name then (name, value) :: rest else header :: insert rest name value

def lowerName (name : String) : String :=
  String.ofList (name.toList.map Char.toLower)

def add (headers : Headers) (header : String × String) : Except Error Headers :=
  if !isName header.1 then .error .name
  else if !isValue header.2 then .error .value
  else .ok (headers.insert (lowerName header.1) header.2)

/-- The headers that a list of names and values gives. The first bad one is reported. -/
def ofList (headers : List (String × String)) : Except Error Headers :=
  headers.foldlM add []

end Headers

end PollHerald.Hub
