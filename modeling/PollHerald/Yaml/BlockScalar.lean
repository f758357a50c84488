import PollHerald.Yaml.Scalar

set_option autoImplicit false

/-! Block scalars, which take the lines below their header as they stand. A literal one keeps every
break. In a folded one a break between two lines becomes a space, or nothing where empty lines
follow, except beside a line that starts with a blank. -/

namespace PollHerald.Yaml

inductive Chomping where
  /-- None is kept. -/
  | strip
  /-- The first one is kept. -/
  | clip
  /-- All are kept. -/
  | keep
  deriving DecidableEq, Repr

structure BlockHeader where
  chomping : Chomping := .clip
  /-- How far the lines stand right of the collection around them. -/
  increment : Option Nat := none

def chomping? (character : Char) : Option Chomping :=
  if character = '-' then some .strip
  else if character = '+' then some .keep
  else none

def increment? (character : Char) : Option Nat :=
  if '1' ≤ character ∧ character ≤ '9' then some (character.toNat - '0'.toNat) else none

/-- Reads the indicators after the mark of a block scalar, which may stand in either order. -/
def readIndicators (text : List Char) : BlockHeader × List Char :=
  match text.head?.bind chomping?, text.head?.bind increment? with
  | some chomping, _ =>
    match text.tail.head?.bind increment? with
    | some increment => ({ chomping, increment }, text.drop 2)
    | none => ({ chomping }, text.tail)
  | none, some increment =>
    match text.tail.head?.bind chomping? with
    | some chomping => ({ chomping, increment }, text.drop 2)
    | none => ({ increment }, text.tail)
  | none, none => ({}, text)

def readBlockHeader (cursor : Cursor) : Option (BlockHeader × Cursor) := do
  let (header, rest) := readIndicators cursor.rest
  return (header, ← (cursor.skipTo rest).finishLine)

structure BlockGap where
  /-- The breaks of empty lines. -/
  breaks : List Char := []
  /-- The greatest column that was reached. -/
  widest : Nat := 0

/-- Reads empty lines and the indentation of the line after them: all spaces, or those left of
`indent`. No tab may stand among them. -/
def readIndentation (indent : Option Nat) : Nat → BlockGap → Cursor → Option (BlockGap × Cursor)
  | 0, _, _ => none
  | fuel + 1, gap, cursor =>
    let isLeft := indent.all (cursor.column < ·)
    let gap := { gap with widest := max gap.widest cursor.column }
    match cursor.rest with
    | [] => some (gap, cursor)
    | character :: _ =>
      if isLeft ∧ character = '\t' then none
      else if isLeft ∧ character = ' ' then readIndentation indent fuel gap cursor.skip
      else if isBreak character then
        readIndentation indent fuel { gap with breaks := gap.breaks ++ [character] } cursor.skip
      else
        some (gap, cursor)

structure BlockText where
  text : List Char := []
  /-- The break after the last line. -/
  lastBreak : Option Char := none
  /-- The breaks of the empty lines that follow. -/
  emptyLines : List Char := []
  /-- Whether the last line starts with a blank. -/
  isIndented : Bool := false

namespace BlockText

def add (isFolded : Bool) (block : BlockText) (line : List Char) : BlockText :=
  let isIndented := line.head?.any isBlank
  let joint :=
    if isFolded ∧ block.lastBreak = some '\n' ∧ !block.isIndented ∧ !isIndented then
      if block.emptyLines.isEmpty then [' '] else []
    else
      block.lastBreak.toList
  { text := block.text ++ joint ++ block.emptyLines ++ line, isIndented }

def chomp (block : BlockText) : Chomping → List Char
  | .strip => block.text
  | .clip => block.text ++ block.lastBreak.toList
  | .keep => block.text ++ block.lastBreak.toList ++ block.emptyLines

end BlockText

def readBlockLines (isFolded : Bool) (indent : Nat) : Nat → BlockText → Cursor →
    Option (BlockText × Cursor)
  | 0, _, _ => none
  | fuel + 1, block, cursor => do
    if cursor.column ≠ indent ∨ cursor.rest.isEmpty then
      return (block, cursor)
    let lineEnd := cursor.skipLine
    let added := block.add isFolded (cursor.rest.takeWhile fun character => !isBreak character)
    let (gap, afterGap) ←
      readIndentation (some indent) (lineEnd.rest.length + 1) {} lineEnd.skip
    readBlockLines isFolded indent fuel
      { added with lastBreak := lineEnd.rest.head?, emptyLines := gap.breaks } afterGap

/-- Reads a block scalar after its mark. `floor` is the least column at which its lines may stand,
one more than that of the collection around it, or zero. -/
def readBlockScalar (isFolded : Bool) (floor : Nat) (cursor : Cursor) :
    Option (List Char × Cursor) := do
  let (header, start) ← readBlockHeader cursor
  let told := header.increment.map (floor - 1 + ·)
  let (gap, first) ← readIndentation told (start.rest.length + 1) {} start
  let indent := told.getD (max gap.widest (max floor 1))
  let (block, after) ←
    readBlockLines isFolded indent (first.rest.length + 1) { emptyLines := gap.breaks } first
  return (block.chomp header.chomping, after)

end PollHerald.Yaml
