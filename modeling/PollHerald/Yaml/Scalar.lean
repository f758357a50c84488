import PollHerald.Yaml.Cursor

set_option autoImplicit false

/-! Scalars: plain ones, and those between single or double quotes. A scalar may go over several
lines, and then the breaks are folded: a single break becomes a space, and of several all but the
first are kept. -/

namespace PollHerald.Yaml

inductive Style where
  | plain | quoted | literal | folded
  deriving DecidableEq, Repr

structure Gap where
  /-- The blanks on the line of the first word. -/
  blanks : List Char := []
  isBroken : Bool := false
  /-- The first break, unless it was escaped. -/
  firstBreak : Option Char := none
  laterBreaks : List Char := []

namespace Gap

/-- Adds a blank or a break. Blanks after a break are indentation. -/
def add (gap : Gap) (character : Char) : Gap :=
  if isBlank character then
    if gap.isBroken then gap else { gap with blanks := gap.blanks ++ [character] }
  else if gap.isBroken then
    { gap with laterBreaks := gap.laterBreaks ++ [character] }
  else
    { gap with isBroken := true, firstBreak := some character, blanks := [] }

def text (gap : Gap) : List Char :=
  if gap.isBroken then
    match gap.firstBreak, gap.laterBreaks with
    | some '\n', [] => [' ']
    | some '\n', breaks => breaks
    | first, breaks => first.toList ++ breaks
  else
    gap.blanks

end Gap

/-- Reads the blanks and breaks at a place. After a break, no tab may stand left of `indent`. -/
def readGap (indent : Nat) : Nat → Gap → Cursor → Option (Gap × Cursor)
  | 0, _, _ => none
  | fuel + 1, gap, cursor =>
    match cursor.rest with
    | [] => some (gap, cursor)
    | character :: _ =>
      if gap.isBroken ∧ cursor.column < indent ∧ character = '\t' then none
      else if isBlank character ∨ isBreak character then
        readGap indent fuel (gap.add character) cursor.skip
      else
        some (gap, cursor)

def isFlowMark (character : Char) : Bool :=
  character == ',' || character == '[' || character == ']' || character == '{' || character == '}'

/-- Reads a word of a plain scalar: up to a blank, or a colon before a blank, or inside brackets one
of their marks. `word` holds the characters before, the last first. -/
def readPlainWord (isFlow : Bool) (word : List Char) : List Char → Option (List Char)
  | [] => some word.reverse
  | character :: rest =>
    if isBlank character ∨ isBreak character then
      some word.reverse
    else if character = ':' then
      if isFlow ∧ (rest.head?.any fun next => isFlowMark next || next == '?') then none
      else if startsBlank rest then some word.reverse
      else readPlainWord isFlow (character :: word) rest
    else if isFlow ∧ isFlowMark character then
      some word.reverse
    else
      readPlainWord isFlow (character :: word) rest

/-- A scalar that was read: its text, where it ends, and whether its last gap had a break. -/
structure ReadScalar where
  text : List Char
  cursor : Cursor
  isBroken : Bool

/-- Reads a plain scalar on, with `text` and then `gap` before the place. Outside brackets, its
lines stand at `indent` or right of it. -/
def readPlain (isFlow : Bool) (indent : Nat) : Nat → List Char → Gap → Cursor → Option ReadScalar
  | 0, _, _, _ => none
  | fuel + 1, text, gap, cursor =>
    if cursor.atMarker ∨ cursor.rest.head? = some '#' then
      some { text, cursor, isBroken := gap.isBroken }
    else do
      let word ← readPlainWord isFlow [] cursor.rest
      let afterWord := cursor.skipMany word.length
      let (text, gap) := if word.isEmpty then (text, gap) else (text ++ gap.text ++ word, {})
      if afterWord.rest.isEmpty ∨ !startsBlank afterWord.rest then
        return { text, cursor := afterWord, isBroken := gap.isBroken }
      let (gap, afterGap) ← readGap indent (afterWord.rest.length + 1) gap afterWord
      if !isFlow ∧ afterGap.column < indent then
        return { text, cursor := afterGap, isBroken := gap.isBroken }
      readPlain isFlow indent fuel text gap afterGap

def letterEscape? : Char → Option Char
  | '0' => some '\x00'
  | 'a' => some '\x07'
  | 'b' => some '\x08'
  | 't' | '\t' => some '\t'
  | 'n' => some '\n'
  | 'v' => some '\x0b'
  | 'f' => some '\x0c'
  | 'r' => some '\r'
  | 'e' => some '\x1b'
  | ' ' => some ' '
  | '"' => some '"'
  | '/' => some '/'
  | '\\' => some '\\'
  | 'N' => some '\u0085'
  | '_' => some '\u00a0'
  | 'L' => some '\u2028'
  | 'P' => some '\u2029'
  | _ => none

def escapeDigits? : Char → Option Nat
  | 'x' => some 2
  | 'u' => some 4
  | 'U' => some 8
  | _ => none

def hexValue? (character : Char) : Option Nat :=
  if '0' ≤ character ∧ character ≤ '9' then some (character.toNat - '0'.toNat)
  else if 'a' ≤ character ∧ character ≤ 'f' then some (character.toNat - 'a'.toNat + 10)
  else if 'A' ≤ character ∧ character ≤ 'F' then some (character.toNat - 'A'.toNat + 10)
  else none

def numberedChar? (digits : List Char) : Option Char := do
  let values ← digits.mapM hexValue?
  let number := values.foldl (fun number value => 16 * number + value) 0
  if number.isValidChar then some (Char.ofNat number) else none

def readEscape : List Char → Option (Char × Nat)
  | [] => none
  | letter :: rest =>
    match letterEscape? letter, escapeDigits? letter with
    | some character, _ => some (character, 1)
    | none, some count =>
      if rest.length < count then none
      else (numberedChar? (rest.take count)).map fun character => (character, count + 1)
    | none, none => none

inductive Quote where
  | single | double
  deriving DecidableEq

def Quote.mark : Quote → Char
  | .single => '\''
  | .double => '"'

inductive WordEnd where
  /-- At the closing quote, which is not read yet. -/
  | quote
  /-- At a blank or a break. -/
  | gap
  /-- After a break with a backslash before it. -/
  | escapedBreak

def readQuotedWord (quote : Quote) : Nat → List Char → Cursor →
    Option (List Char × WordEnd × Cursor)
  | 0, _, _ => none
  | fuel + 1, word, cursor =>
    match cursor.rest with
    | [] => some (word.reverse, .gap, cursor)
    | character :: rest =>
      if isBlank character ∨ isBreak character then
        some (word.reverse, .gap, cursor)
      else if quote = .single ∧ character = '\'' ∧ rest.head? = some '\'' then
        readQuotedWord quote fuel ('\'' :: word) (cursor.skipMany 2)
      else if character = quote.mark then
        some (word.reverse, .quote, cursor)
      else if quote = .double ∧ character = '\\' then
        if rest.head?.any isBreak then
          some (word.reverse, .escapedBreak, cursor.skipMany 2)
        else
          match readEscape rest with
          | some (escaped, count) =>
            readQuotedWord quote fuel (escaped :: word) (cursor.skipMany (count + 1))
          | none => none
      else
        readQuotedWord quote fuel (character :: word) cursor.skip

def readQuoted (quote : Quote) : Nat → List Char → Cursor → Option ReadScalar
  | 0, _, _ => none
  | fuel + 1, text, cursor => do
    if cursor.atMarker ∨ cursor.rest.isEmpty then
      none
    let (word, wordEnd, afterWord) ← readQuotedWord quote (cursor.rest.length + 1) [] cursor
    let text := text ++ word
    match wordEnd with
    | .quote => return { text, cursor := afterWord.skip, isBroken := false }
    | _ =>
      if afterWord.rest.head? = some quote.mark then
        return { text, cursor := afterWord.skip, isBroken := false }
      let gap : Gap := match wordEnd with
        | .escapedBreak => { isBroken := true }
        | _ => {}
      let (gap, afterGap) ← readGap 0 (afterWord.rest.length + 1) gap afterWord
      readQuoted quote fuel (text ++ gap.text) afterGap

end PollHerald.Yaml
