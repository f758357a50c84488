import PollHerald.Yaml.BlockScalar
import PollHerald.Yaml.Directive

set_option autoImplicit false

/-! Tokens of a YAML document. Outside brackets the columns of the text open and close collections.
A mapping key that is not announced by a question mark is known as a key only at the colon after it,
so its place is remembered until then.

An anchor becomes a number, and an alias the number of the anchor before it that it names. -/

namespace PollHerald.Yaml

inductive Token where
  | directive (directive : Directive)
  | documentStart | documentEnd
  | blockSequence | blockMapping | blockEnd
  | openSequence | closeSequence | openMapping | closeMapping
  | item | comma | key | value
  | anchor (number : Nat)
  | alias (number : Nat)
  | tag (tag : Tag)
  | scalar (style : Style) (text : List Char)
  deriving DecidableEq, Repr

/-- A place at which a key may have started. -/
structure KeyPlace where
  /-- Whether nothing but a key can stand there. -/
  isRequired : Bool
  /-- The number of tokens before it. -/
  count : Nat
  index : Nat
  line : Nat
  column : Nat

structure Layout where
  cursor : Cursor
  /-- The tokens in reverse. -/
  tokens : List Token := []
  /-- The columns of the open block collections, the innermost first. -/
  indents : List Nat := []
  /-- The possible key of the block context and of every open bracket, the innermost first. -/
  keys : List (Option KeyPlace) := [none]
  /-- Whether a key may start here. -/
  allowsKey : Bool := true
  /-- The numbers of the anchors so far, each of which has a name of its own. -/
  anchors : List (String × Nat) := []

namespace Layout

def isFlow (layout : Layout) : Bool :=
  layout.keys.length != 1

/-- The column left of which block scalars and collections end, one more than that of the innermost
collection. -/
def indent (layout : Layout) : Nat :=
  match layout.indents with
  | [] => 0
  | column :: _ => column + 1

def push (layout : Layout) (token : Token) : Layout :=
  { layout with tokens := token :: layout.tokens }

def insert (layout : Layout) (count : Nat) (token : Token) : Layout :=
  { layout with tokens := layout.tokens.insertIdx (layout.tokens.length - count) token }

def take (layout : Layout) (token : Token) (count : Nat) : Layout :=
  { layout.push token with cursor := layout.cursor.skipMany count }

/-- Forgets the possible key of the innermost context. One that is required must not be lost. -/
def dropKey (layout : Layout) : Option Layout :=
  match layout.keys with
  | some place :: outer =>
    if place.isRequired then none else some { layout with keys := none :: outer }
  | _ => some layout

def saveKey (layout : Layout) : Option Layout :=
  if layout.allowsKey then do
    let layout ← layout.dropKey
    let place : KeyPlace := {
      isRequired := !layout.isFlow && layout.indents.head? == some layout.cursor.column
      count := layout.tokens.length
      index := layout.cursor.index
      line := layout.cursor.line
      column := layout.cursor.column }
    return { layout with keys := some place :: layout.keys.tail }
  else
    some layout

/-- Whether a key that started at a place may still go on. -/
def isFresh (cursor : Cursor) (place : KeyPlace) : Bool :=
  place.line == cursor.line && cursor.index ≤ place.index + 1024

def dropStaleKeys (layout : Layout) : Option Layout := do
  let keys ← layout.keys.mapM fun key => match key with
    | none => some none
    | some place =>
      if isFresh layout.cursor place then some (some place)
      else if place.isRequired then none
      else some none
  return { layout with keys }

/-- Opens a block collection at a column, behind `count` tokens, if the column is right of the
innermost collection. -/
def openBlock (layout : Layout) (column count : Nat) (token : Token) : Layout :=
  if !layout.isFlow ∧ layout.indent ≤ column then
    { layout.insert count token with indents := column :: layout.indents }
  else
    layout

def closeFrom (column : Nat) (layout : Layout) : List Nat → Layout
  | [] => { layout with indents := [] }
  | innermost :: outer =>
    if column < innermost then closeFrom column (layout.push .blockEnd) outer
    else { layout with indents := innermost :: outer }

def closeBlocks (layout : Layout) (column : Nat) : Layout :=
  if layout.isFlow then layout else closeFrom column layout layout.indents

def closeAllBlocks (layout : Layout) : Layout :=
  if layout.isFlow then layout
  else
    { layout with
      tokens := layout.indents.map (fun _ => .blockEnd) ++ layout.tokens
      indents := [] }

/-- Goes on to the next token, over blanks, comments, breaks and a mark at the start of a line. A
tab is no blank where a key may start. -/
def toToken : Nat → Layout → Layout
  | 0, layout => layout
  | fuel + 1, layout =>
    match layout.cursor.rest with
    | [] => layout
    | character :: _ =>
      if character = ' ' ∨ (character = '\t' ∧ (layout.isFlow ∨ !layout.allowsKey)) ∨
          (character = byteOrderMark ∧ layout.cursor.column = 0) then
        toToken fuel { layout with cursor := layout.cursor.skip }
      else if character = '#' then
        toToken fuel { layout with cursor := layout.cursor.skipLine }
      else if isBreak character then
        toToken fuel { layout with
          cursor := layout.cursor.skip, allowsKey := layout.allowsKey || !layout.isFlow }
      else
        layout

def readMarker (layout : Layout) (token : Token) : Option Layout := do
  let layout ← layout.closeAllBlocks.dropKey
  return { layout.take token 3 with allowsKey := false }

def readOpening (layout : Layout) (token : Token) : Option Layout := do
  let layout ← layout.saveKey
  return { layout.take token 1 with keys := none :: layout.keys, allowsKey := true }

def readClosing (layout : Layout) (token : Token) : Option Layout := do
  let layout ← layout.dropKey
  let keys := if layout.isFlow then layout.keys.tail else layout.keys
  return { layout.take token 1 with keys, allowsKey := false }

def readComma (layout : Layout) : Option Layout := do
  let layout ← layout.dropKey
  return { layout.take .comma 1 with allowsKey := true }

def readItem (layout : Layout) : Option Layout := do
  if !layout.isFlow ∧ !layout.allowsKey then
    none
  let layout := layout.openBlock layout.cursor.column layout.tokens.length .blockSequence
  let layout ← layout.dropKey
  return { layout.take .item 1 with allowsKey := true }

def readKey (layout : Layout) : Option Layout := do
  if !layout.isFlow ∧ !layout.allowsKey then
    none
  let layout := layout.openBlock layout.cursor.column layout.tokens.length .blockMapping
  let layout ← layout.dropKey
  return { layout.take .key 1 with allowsKey := !layout.isFlow }

/-- Reads the colon of a value. What stands before it on the line becomes its key. -/
def readValue (layout : Layout) : Option Layout :=
  match layout.keys with
  | some place :: outer =>
    let keyed := layout.insert place.count .key
    let opened := keyed.openBlock place.column place.count .blockMapping
    some { opened.take .value 1 with keys := none :: outer, allowsKey := false }
  | _ =>
    if layout.isFlow then
      some { layout.take .value 1 with allowsKey := false }
    else if layout.allowsKey then
      let opened := layout.openBlock layout.cursor.column layout.tokens.length .blockMapping
      some { opened.take .value 1 with allowsKey := true }
    else
      none

def readDirective (layout : Layout) : Option Layout := do
  let layout ← layout.closeAllBlocks.dropKey
  let start := layout.cursor.skip
  let (directive, rest) ← Yaml.readDirective start.rest
  return { layout.push (.directive directive) with
    cursor := ← (start.skipTo rest).finishLine, allowsKey := false }

def endsAnchor (text : List Char) : Bool :=
  startsBlank text || text.head?.any fun character => "?:,]\x7d%@\x60".toList.contains character

/-- Gives an anchor its number, which is how many names anchors had before it. A name may be used
again, and then it loses its old number. -/
def addAnchor (layout : Layout) (name : String) : Layout :=
  let number := layout.anchors.length
  { layout.push (.anchor number) with
    anchors := (name, number) :: layout.anchors.filter fun anchor => anchor.1 != name }

def readAnchor (layout : Layout) (isAlias : Bool) : Option Layout := do
  let layout ← layout.saveKey
  let start := layout.cursor.skip
  let name := start.rest.takeWhile isWordChar
  let rest := start.rest.dropWhile isWordChar
  if name.isEmpty ∨ !endsAnchor rest then
    none
  let layout := { layout with cursor := start.skipTo rest, allowsKey := false }
  if isAlias then
    return layout.push (.alias (← layout.anchors.lookup (String.ofList name)))
  else
    return layout.addAnchor (String.ofList name)

def readTag (layout : Layout) : Option Layout := do
  let layout ← layout.saveKey
  let (tag, rest) ← Yaml.readTag layout.cursor.rest
  if startsBlank rest ∨ (layout.isFlow ∧ rest.head? = some ',') then
    return { layout.push (.tag tag) with cursor := layout.cursor.skipTo rest, allowsKey := false }
  else
    none

def readBlockScalar (layout : Layout) (style : Style) : Option Layout := do
  let layout ← layout.dropKey
  let (text, cursor) ← Yaml.readBlockScalar (style = .folded) layout.indent layout.cursor.skip
  return { layout.push (.scalar style text) with cursor, allowsKey := true }

def readQuotedScalar (layout : Layout) (quote : Quote) : Option Layout := do
  let layout ← layout.saveKey
  let start := layout.cursor.skip
  let scalar ← readQuoted quote (start.rest.length + 1) [] start
  return { layout.push (.scalar .quoted scalar.text) with
    cursor := scalar.cursor, allowsKey := false }

/-- Reads a plain scalar. A key may start after it where it ended with a line. -/
def readPlainScalar (layout : Layout) : Option Layout := do
  let layout ← layout.saveKey
  let scalar ← readPlain layout.isFlow layout.indent (layout.cursor.rest.length + 1) [] {}
    layout.cursor
  return { layout.push (.scalar .plain scalar.text) with
    cursor := scalar.cursor, allowsKey := scalar.isBroken }

def reserved : List Char :=
  [',', '[', ']', '{', '}', '#', '&', '*', '!', '|', '>', '\'', '"', '%', '@', '\x60']

def startsPlain (isFlow : Bool) (character : Char) (rest : List Char) : Bool :=
  if isBlank character then false
  else if character = '-' then true
  else if character = '?' ∨ character = ':' then !isFlow && !startsBlank rest
  else !(reserved.contains character)

def readToken (layout : Layout) : Option Layout :=
  let cursor := layout.cursor
  match cursor.rest with
  | [] => some layout
  | character :: rest =>
    if cursor.atMarker then
      layout.readMarker (if character = '-' then .documentStart else .documentEnd)
    else if cursor.column = 0 ∧ character = '%' then layout.readDirective
    else if character = '[' then layout.readOpening .openSequence
    else if character = '{' then layout.readOpening .openMapping
    else if character = ']' then layout.readClosing .closeSequence
    else if character = '}' then layout.readClosing .closeMapping
    else if character = ',' then layout.readComma
    else if character = '-' ∧ startsBlank rest then layout.readItem
    else if character = '?' ∧ (layout.isFlow ∨ startsBlank rest) then layout.readKey
    else if character = ':' ∧ (layout.isFlow ∨ startsBlank rest) then layout.readValue
    else if character = '*' then layout.readAnchor true
    else if character = '&' then layout.readAnchor false
    else if character = '!' then layout.readTag
    else if character = '|' ∧ !layout.isFlow then layout.readBlockScalar .literal
    else if character = '>' ∧ !layout.isFlow then layout.readBlockScalar .folded
    else if character = '\'' then layout.readQuotedScalar .single
    else if character = '"' then layout.readQuotedScalar .double
    else if startsPlain layout.isFlow character rest then layout.readPlainScalar
    else none

def readAll : Nat → Layout → Option Layout
  | 0, _ => none
  | fuel + 1, layout => do
    let layout ← (layout.toToken (layout.cursor.rest.length + 1)).dropStaleKeys
    if layout.cursor.rest.isEmpty then
      layout.closeAllBlocks.dropKey
    else
      readAll fuel (← (layout.closeBlocks layout.cursor.column).readToken)

end Layout

def tokens? (text : String) : Option (List Token) := do
  let body ← prepare text.toList
  let layout ← Layout.readAll (body.length + 1) { cursor := { rest := body } }
  return layout.tokens.reverse

end PollHerald.Yaml
