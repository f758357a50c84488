import PollHerald.Record
import PollHerald.Width
import PollHerald.Yaml.Document

set_option autoImplicit false

/-! Reading typed values out of YAML nodes. The field decides how a scalar is read: as a text every
scalar stands for what is written, and a number is one only if the scalar is plain, or literal with
the tag of numbers. -/

namespace PollHerald.Yaml

def readText : Node → Option String
  | .scalar _ _ text => some text
  | _ => none

/-- The members of a mapping, which may also be nothing at all. Aliases are replaced by what they
stand for. -/
def readMapping (document : Document) : Node → Option (List (Node × Node))
  | .mapping members =>
    some (members.map fun (key, value) => (document.content key, document.content value))
  | .scalar .plain _ "" => some []
  | _ => none

def fieldValues (document : Document) (fields : List Record.Field) (node : Node) :
    Option (List (Option Node)) := do
  let members ← readMapping document node
  Record.ofMembers fields <| members.map fun (key, value) =>
    ((readText key).map String.toList, value)

def digitValue? (base : Nat) (character : Char) : Option Nat :=
  (hexValue? character).filter fun value => decide (value < base)

/-- The number that digits of a base write. There has to be one, below 2^64. -/
def readDigits (base : Nat) (digits : List Char) : Option Nat := do
  if digits.isEmpty then
    none
  let values ← digits.mapM (digitValue? base)
  let number := values.foldl (fun number value => base * number + value) 0
  if number < Width.bound64 then some number else none

/-- The number that a text writes, perhaps after a plus sign: in base 16, 8 or 2 after `0x`, `0o` or
`0b`, or else in base ten without zeros in front. -/
def numberOf (text : List Char) : Option Nat :=
  let digits := match text with
    | '+' :: rest => rest
    | _ => text
  match digits with
  | '0' :: 'x' :: rest => readDigits 16 rest
  | '0' :: 'o' :: rest => readDigits 8 rest
  | '0' :: 'b' :: rest => readDigits 2 rest
  | '0' :: _ :: _ => none
  | _ => readDigits 10 digits

def readNumber : Node → Option Nat
  | .scalar .plain _ text => numberOf text.toList
  | .scalar .literal tag text => if tag = some Tag.number then numberOf text.toList else none
  | _ => none

def isNull (text : String) : Bool :=
  ["~", "null", "Null", "NULL"].contains text

/-- A value, if there is one. A plain scalar with the tag of no value has to be written as such, and
with any other tag it stands for a value. -/
def readNullable {α : Type} (read : Node → Option α) (node : Node) : Option (Option α) :=
  match node with
  | .scalar .plain none text =>
    if text.isEmpty ∨ isNull text then some none else (read node).map some
  | .scalar .plain (some tag) text =>
    if tag ≠ Tag.null then (read node).map some
    else if isNull text then some none
    else none
  | _ => (read node).map some

def insertMember (name value : String) : List (String × String) → List (String × String)
  | [] => [(name, value)]
  | (known, old) :: rest =>
    if known = name then (name, value) :: rest else (known, old) :: insertMember name value rest

/-- A table of texts. Of several members of one name the last one counts. -/
def readTable (document : Document) (node : Node) : Option (List (String × String)) := do
  let members ← readMapping document node
  let entries ← members.mapM fun (key, value) => do
    return (← readText key, ← readText value)
  return entries.foldl (fun table (name, value) => insertMember name value table) []

end PollHerald.Yaml
