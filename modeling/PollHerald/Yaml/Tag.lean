import PollHerald.Yaml.Scalar

set_option autoImplicit false

/-! Tags, which tell the kind of a node. A tag is written in full, or as a handle and a name: the
handle stands for the first part of the tag. An octet that is written with a percent sign is kept
as the character of its number. -/

namespace PollHerald.Yaml

structure Tag where
  /-- The handle, which is empty if the name is the whole tag. -/
  handle : String
  name : String
  deriving DecidableEq, Repr

namespace Tag

def unspecific : String := "!"

def number : String := "tag:yaml.org,2002:int"

def null : String := "tag:yaml.org,2002:null"

abbrev Handles := List (String × String)

def standardHandles : Handles :=
  [("!", "!"), ("!!", "tag:yaml.org,2002:")]

def resolve (handles : Handles) (tag : Tag) : Option String :=
  if tag.handle.isEmpty then some tag.name
  else (handles.lookup tag.handle).map (· ++ tag.name)

end Tag

/-- A character of a tag, besides the percent sign. One that is written in full or as the meaning of
a handle may hold marks that are otherwise taken by collections. -/
def isTagChar (isFull : Bool) (character : Char) : Bool :=
  isWordChar character || ";/?:@&=+$.!~*'()".toList.contains character ||
    (isFull && (character == ',' || character == '[' || character == ']'))

def octetCount? (octet : Nat) : Option Nat :=
  if octet < 0x80 then some 1
  else if octet < 0xC0 then none
  else if octet < 0xE0 then some 2
  else if octet < 0xF0 then some 3
  else if octet < 0xF8 then some 4
  else none

/-- The number of octets still due after an octet, when `due` were due before it. -/
def octetsDue? (due octet : Nat) : Option Nat :=
  match due with
  | 0 => (octetCount? octet).map (· - 1)
  | due + 1 => if 0x80 ≤ octet ∧ octet < 0xC0 then some due else none

/-- Reads the characters of a tag. `taken` holds those before, the last first, and `due` octets are
missing to complete a character. -/
def readTagChars (isFull : Bool) (due : Nat) (taken : List Char) :
    List Char → Option (List Char × List Char)
  | '%' :: high :: low :: rest => do
    let octet := 16 * (← hexValue? high) + (← hexValue? low)
    let due ← octetsDue? due octet
    readTagChars isFull due (Char.ofNat octet :: taken) rest
  | '%' :: _ => none
  | [] => if due = 0 then some (taken.reverse, []) else none
  | character :: rest =>
    if due ≠ 0 then none
    else if isTagChar isFull character then readTagChars isFull 0 (character :: taken) rest
    else some (taken.reverse, character :: rest)

/-- A name ends before a null character. -/
def tagName (characters : List Char) : String :=
  String.ofList (characters.takeWhile (· ≠ '\x00'))

def readTagName (isFull : Bool) (text : List Char) : Option (String × List Char) := do
  let (characters, rest) ← readTagChars isFull 0 [] text
  if characters.isEmpty then none else return (tagName characters, rest)

def readHandle : List Char → Option (List Char × List Char)
  | '!' :: text =>
    let word := text.takeWhile isWordChar
    match text.dropWhile isWordChar with
    | '!' :: rest => some ('!' :: word ++ ['!'], rest)
    | rest => some ('!' :: word, rest)
  | _ => none

def isClosedHandle (handle : List Char) : Bool :=
  handle.length != 1 && handle.getLast? == some '!'

def readTag : List Char → Option (Tag × List Char)
  | '!' :: '<' :: text => do
    let (name, rest) ← readTagName true text
    match rest with
    | '>' :: rest => return (⟨"", name⟩, rest)
    | _ => none
  | text => do
    let (handle, rest) ← readHandle text
    if isClosedHandle handle then
      let (name, rest) ← readTagName false rest
      return (⟨String.ofList handle, name⟩, rest)
    let (characters, rest) ← readTagChars false 0 handle.tail.reverse rest
    let name := tagName characters
    return (if name.isEmpty then ⟨"", Tag.unspecific⟩ else ⟨"!", name⟩, rest)

end PollHerald.Yaml
