set_option autoImplicit false

/-! A place in the text of a YAML document. The text is prepared first, so that a line feed is the
only common line break in it. -/

namespace PollHerald.Yaml

def isBreak (character : Char) : Bool :=
  character == '\n' || character == '\u2028' || character == '\u2029'

def isBlank (character : Char) : Bool :=
  character == ' ' || character == '\t'

def startsBlank : List Char → Bool
  | [] => true
  | character :: _ => isBlank character || isBreak character

def isAllowed (character : Char) : Bool :=
  let code := character.toNat
  code == 0x09 || code == 0x0A || code == 0x0D || (0x20 ≤ code && code ≤ 0x7E) || code == 0x85 ||
    (0xA0 ≤ code && code ≤ 0xD7FF) || (0xE000 ≤ code && code ≤ 0xFFFD) ||
    (0x10000 ≤ code && code ≤ 0x10FFFF)

/-- Writes every common line break as a line feed. -/
def unifyBreaks : List Char → List Char
  | [] => []
  | '\r' :: '\n' :: rest => '\n' :: unifyBreaks rest
  | character :: rest =>
    (if character = '\r' ∨ character = '\u0085' then '\n' else character) :: unifyBreaks rest

def prepare (text : List Char) : Option (List Char) :=
  if text.all isAllowed then some (unifyBreaks text) else none

def byteOrderMark : Char := '\ufeff'

/-- A letter, a digit, a hyphen or a low line, of which the names in a document are made. -/
def isWordChar (character : Char) : Bool :=
  character.isAlphanum || character == '-' || character == '_'

/-- A place: the text from there on, the number of characters before it, its line and its column. -/
structure Cursor where
  rest : List Char
  index : Nat := 0
  line : Nat := 0
  column : Nat := 0

namespace Cursor

def skip (cursor : Cursor) : Cursor :=
  match cursor.rest with
  | [] => cursor
  | character :: rest =>
    if isBreak character then
      { rest, index := cursor.index + 1, line := cursor.line + 1, column := 0 }
    else
      { rest, index := cursor.index + 1, line := cursor.line, column := cursor.column + 1 }

def skipMany : Nat → Cursor → Cursor
  | 0, cursor => cursor
  | count + 1, cursor => skipMany count cursor.skip

/-- Whether a line of three hyphens or three points starts here. -/
def atMarker (cursor : Cursor) : Bool :=
  cursor.column == 0 && match cursor.rest with
    | '-' :: '-' :: '-' :: rest => startsBlank rest
    | '.' :: '.' :: '.' :: rest => startsBlank rest
    | _ => false

def skipTo (cursor : Cursor) (rest : List Char) : Cursor :=
  cursor.skipMany (cursor.rest.length - rest.length)

def skipLine (cursor : Cursor) : Cursor :=
  cursor.skipTo (cursor.rest.dropWhile fun character => !isBreak character)

/-- Goes on to the next line. Only blanks and a comment may stand before it. -/
def finishLine (cursor : Cursor) : Option Cursor :=
  let afterBlanks := cursor.skipTo (cursor.rest.dropWhile isBlank)
  let lineEnd := if afterBlanks.rest.head? = some '#' then afterBlanks.skipLine else afterBlanks
  if lineEnd.rest.head?.all isBreak then some lineEnd.skip else none

end Cursor

end PollHerald.Yaml
