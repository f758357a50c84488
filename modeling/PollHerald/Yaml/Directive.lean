import PollHerald.Yaml.Tag

set_option autoImplicit false

/-! Directives, which stand before a document. One tells the version of the language, and others
tell what handles of tags stand for. -/

namespace PollHerald.Yaml

inductive Directive where
  | version (major minor : Nat)
  | handle (name meaning : String)
  deriving DecidableEq, Repr

/-- Reads the digits of a version, of which there are at most nine. -/
def readVersionNumber (text : List Char) : Option (Nat × List Char) :=
  let digits := text.takeWhile Char.isDigit
  if digits.isEmpty ∨ 9 < digits.length then none
  else
    let number := digits.foldl (fun value digit => 10 * value + (digit.toNat - '0'.toNat)) 0
    some (number, text.dropWhile Char.isDigit)

def readVersion (text : List Char) : Option (Directive × List Char) := do
  let (major, rest) ← readVersionNumber text
  match rest with
  | '.' :: rest =>
    let (minor, rest) ← readVersionNumber rest
    return (.version major minor, rest)
  | _ => none

def readMeaning (text : List Char) : Option (Directive × List Char) := do
  let (handle, rest) ← readHandle text
  if !isClosedHandle handle ∧ handle ≠ ['!'] then
    none
  if !rest.head?.any isBlank then
    none
  let (meaning, rest) ← readTagName true (rest.dropWhile isBlank)
  if startsBlank rest then return (.handle (String.ofList handle) meaning, rest) else none

def readDirective (text : List Char) : Option (Directive × List Char) :=
  let rest := text.dropWhile isWordChar
  if !startsBlank rest then none
  else
    let value := rest.dropWhile isBlank
    match String.ofList (text.takeWhile isWordChar) with
    | "YAML" => readVersion value
    | "TAG" => readMeaning value
    | _ => none

/-- The handles that directives give. The version has to be 1.1 or 1.2, and nothing may be told
twice. -/
def Directive.handles? : List Directive → Option Tag.Handles
  | [] => some []
  | .version major minor :: rest => do
    let isFirst := rest.all fun directive => match directive with
      | .version _ _ => false
      | .handle _ _ => true
    if isFirst ∧ major = 1 ∧ (minor = 1 ∨ minor = 2) then handles? rest else none
  | .handle name meaning :: rest => do
    let handles ← handles? rest
    if (handles.lookup name).isSome then none else return (name, meaning) :: handles

end PollHerald.Yaml
