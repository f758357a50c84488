import PollHerald.Json.Token

set_option autoImplicit false

/-! Reading a JSON value from its tokens. The arrays and objects that are still open are kept on a
list, so that values of any depth are read. -/

namespace PollHerald.Json

/-- An array or object that is still open, or the name of a member whose value is being read. What
was read before stands in reverse. -/
inductive Frame where
  | array (items : List Value)
  | object (members : List (Content × Value))
  | member (name : Content)

inductive Focus where
  /-- A value has to come. -/
  | value
  /-- An array was opened: its first item or its end has to come. -/
  | firstItem
  /-- An object was opened: its first name or its end has to come. -/
  | firstName
  /-- A name has to come. -/
  | name
  /-- A name was read: a colon has to come. -/
  | colon (name : Content)
  /-- A value was read. -/
  | read (value : Value)

/-- A place in the tokens of a value: what is expected there, inside which frames. -/
structure Place where
  focus : Focus
  frames : List Frame

def Token.scalar? : Token → Option Value
  | .null => some .null
  | .truth value => some (.truth value)
  | .number digits => some (.number digits)
  | .string content => some (.string content)
  | _ => none

def Place.start (frames : List Frame) (token : Token) : Option Place :=
  match token with
  | .openArray => some { focus := .firstItem, frames := .array [] :: frames }
  | .openObject => some { focus := .firstName, frames := .object [] :: frames }
  | _ => token.scalar?.map fun value => { focus := .read value, frames }

def Place.startMember (frames : List Frame) : Token → Option Place
  | .string name => some { focus := .colon name, frames }
  | _ => none

def Place.continue (value : Value) (frames : List Frame) (token : Token) : Option Place :=
  match token, frames with
  | .comma, .array items :: outer =>
    some { focus := .value, frames := .array (value :: items) :: outer }
  | .closeArray, .array items :: outer =>
    some { focus := .read (.array (value :: items).reverse), frames := outer }
  | .comma, .member name :: .object members :: outer =>
    some { focus := .name, frames := .object ((name, value) :: members) :: outer }
  | .closeObject, .member name :: .object members :: outer =>
    some { focus := .read (.object ((name, value) :: members).reverse), frames := outer }
  | _, _ => none

def Place.step (place : Place) (token : Token) : Option Place :=
  match place.focus with
  | .value => Place.start place.frames token
  | .firstItem =>
    match token, place.frames with
    | .closeArray, .array _ :: outer => some { focus := .read (.array []), frames := outer }
    | _, _ => Place.start place.frames token
  | .firstName =>
    match token, place.frames with
    | .closeObject, .object _ :: outer => some { focus := .read (.object []), frames := outer }
    | _, _ => Place.startMember place.frames token
  | .name => Place.startMember place.frames token
  | .colon name =>
    match token with
    | .colon => some { focus := .value, frames := .member name :: place.frames }
    | _ => none
  | .read value => Place.continue value place.frames token

def Value.ofTokens? (tokens : List Token) : Option Value := do
  let place ← tokens.foldlM Place.step { focus := .value, frames := [] }
  match place with
  | { focus := .read value, frames := [] } => some value
  | _ => none

def Value.parse? (text : String) : Option Value := do
  Value.ofTokens? (← tokens? text.toList)

end PollHerald.Json
