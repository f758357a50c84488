import PollHerald.Yaml.Token

set_option autoImplicit false

/-! The nodes of a YAML document: scalars, sequences and mappings. A node may have an anchor, and
then an alias elsewhere stands for it. -/

namespace PollHerald.Yaml

inductive Node where
  /-- A scalar, and its tag if it has one. -/
  | scalar (style : Style) (tag : Option String) (text : String)
  | sequence (items : List Node)
  | mapping (members : List (Node × Node))
  | anchored (number : Nat) (node : Node)
  | alias (number : Nat)

def Node.empty : Node := .scalar .plain none ""

structure Properties where
  anchor : Option Nat := none
  tag : Option String := none

namespace Properties

def isGiven (properties : Properties) : Bool :=
  properties.anchor.isSome || properties.tag.isSome

def read (handles : Tag.Handles) : List Token → Option (Properties × List Token)
  | .anchor anchor :: .tag tag :: rest | .tag tag :: .anchor anchor :: rest =>
    (tag.resolve handles).map fun tag => ({ anchor, tag }, rest)
  | .anchor anchor :: rest => some ({ anchor }, rest)
  | .tag tag :: rest => (tag.resolve handles).map fun tag => ({ tag }, rest)
  | tokens => some ({}, tokens)

def scalarTag (properties : Properties) : Option String :=
  properties.tag.filter (· != Tag.unspecific)

def apply (properties : Properties) (node : Node) : Node :=
  match properties.anchor with
  | none => node
  | some number => .anchored number node

end Properties

def startsWith (tokens : List Token) (ends : List Token) : Bool :=
  match tokens with
  | [] => true
  | token :: _ => ends.contains token

mutual

/-- Reads a node. Inside brackets there are no block collections, and only the key or the value of a
block mapping may be a sequence at the column of the mapping. Behind an anchor or a tag there may be
nothing. -/
def readNode (handles : Tag.Handles) (inBlock mayBeItems : Bool) :
    Nat → List Token → Option (Node × List Token)
  | 0, _ => none
  | _ + 1, .alias number :: rest => some (.alias number, rest)
  | fuel + 1, tokens => do
    let (properties, tokens) ← Properties.read handles tokens
    let (node, rest) ← match tokens with
      | .scalar style text :: rest =>
        some (.scalar style properties.scalarTag (String.ofList text), rest)
      | .openSequence :: rest => do
        let (items, rest) ← readFlowItems handles fuel true rest
        some (.sequence items, rest)
      | .openMapping :: rest => do
        let (members, rest) ← readFlowMembers handles fuel true rest
        some (.mapping members, rest)
      | tokens =>
        match tokens, inBlock, mayBeItems with
        | .item :: _, _, true => do
          let (items, rest) ← readItems handles fuel tokens
          some (.sequence items, rest)
        | .blockSequence :: rest, true, _ => do
          let (items, rest) ← readItems handles fuel rest
          match rest with
          | .blockEnd :: rest => some (.sequence items, rest)
          | _ => none
        | .blockMapping :: rest, true, _ => do
          let (members, rest) ← readMembers handles fuel rest
          some (.mapping members, rest)
        | _, _, _ =>
          if properties.isGiven then some (.scalar .plain properties.tag "", tokens) else none
    return (properties.apply node, rest)

/-- Reads a node, or none where the tokens end or go on with one of `ends`. -/
def readOptional (handles : Tag.Handles) (inBlock mayBeItems : Bool) (ends : List Token) :
    Nat → List Token → Option (Node × List Token)
  | 0, _ => none
  | fuel + 1, tokens =>
    if startsWith tokens ends then some (.empty, tokens)
    else readNode handles inBlock mayBeItems fuel tokens

def readItems (handles : Tag.Handles) : Nat → List Token → Option (List Node × List Token)
  | 0, _ => none
  | fuel + 1, tokens =>
    match tokens with
    | .item :: rest => do
      let (item, rest) ←
        readOptional handles true false [.item, .key, .value, .blockEnd] fuel rest
      let (items, rest) ← readItems handles fuel rest
      return (item :: items, rest)
    | _ => some ([], tokens)

def readMembers (handles : Tag.Handles) :
    Nat → List Token → Option (List (Node × Node) × List Token)
  | 0, _ => none
  | fuel + 1, tokens =>
    match tokens with
    | .key :: rest => do
      let (key, rest) ← readOptional handles true true [.key, .value, .blockEnd] fuel rest
      let (value, rest) ← match rest with
        | .value :: rest => readOptional handles true true [.key, .value, .blockEnd] fuel rest
        | _ => some (.empty, rest)
      let (members, rest) ← readMembers handles fuel rest
      return ((key, value) :: members, rest)
    | .blockEnd :: rest => some ([], rest)
    | _ => none

def readFlowItems (handles : Tag.Handles) :
    Nat → Bool → List Token → Option (List Node × List Token)
  | 0, _, _ => none
  | fuel + 1, isFirst, tokens =>
    match tokens, isFirst with
    | .closeSequence :: rest, _ => some ([], rest)
    | .comma :: .closeSequence :: rest, false => some ([], rest)
    | .comma :: rest, false => readFlowItem handles fuel rest
    | _, true => readFlowItem handles fuel tokens
    | _, false => none

/-- Reads an item of a sequence in brackets and those after it. A member by itself is a mapping. A
key that is announced and then left out takes with it the mark that follows. -/
def readFlowItem (handles : Tag.Handles) : Nat → List Token → Option (List Node × List Token)
  | 0, _ => none
  | fuel + 1, tokens => do
    let (item, rest) ← match tokens with
      | .key :: rest => do
        let (key, rest) ←
          if startsWith rest [.value, .comma, .closeSequence] then some (.empty, rest.tail)
          else readNode handles false false fuel rest
        let (value, rest) ← match rest with
          | .value :: rest => readOptional handles false false [.comma, .closeSequence] fuel rest
          | _ => some (.empty, rest)
        some (.mapping [(key, value)], rest)
      | _ => readNode handles false false fuel tokens
    let (items, rest) ← readFlowItems handles fuel false rest
    return (item :: items, rest)

def readFlowMembers (handles : Tag.Handles) :
    Nat → Bool → List Token → Option (List (Node × Node) × List Token)
  | 0, _, _ => none
  | fuel + 1, isFirst, tokens =>
    match tokens, isFirst with
    | .closeMapping :: rest, _ => some ([], rest)
    | .comma :: .closeMapping :: rest, false => some ([], rest)
    | .comma :: rest, false => readFlowMember handles fuel rest
    | _, true => readFlowMember handles fuel tokens
    | _, false => none

def readFlowMember (handles : Tag.Handles) :
    Nat → List Token → Option (List (Node × Node) × List Token)
  | 0, _ => none
  | fuel + 1, tokens => do
    let (member, rest) ← match tokens with
      | .key :: rest => do
        let (key, rest) ←
          readOptional handles false false [.value, .comma, .closeMapping] fuel rest
        let (value, rest) ← match rest with
          | .value :: rest => readOptional handles false false [.comma, .closeMapping] fuel rest
          | _ => some (.empty, rest)
        some ((key, value), rest)
      | _ => do
        let (key, rest) ← readNode handles false false fuel tokens
        some ((key, .empty), rest)
    let (members, rest) ← readFlowMembers handles fuel false rest
    return (member :: members, rest)

end

def splitDirectives : List Token → List Directive × List Token
  | .directive directive :: rest =>
    let (directives, tokens) := splitDirectives rest
    (directive :: directives, tokens)
  | tokens => ([], tokens)

/-- The only document of a stream. An empty stream has none. Behind directives the start of the
document has to be marked. -/
def Node.ofTokens? (tokens : List Token) : Option (Option Node) := do
  let fuel := 4 * tokens.length + 4
  let (directives, tokens) := splitDirectives tokens
  let handles := (← Directive.handles? directives) ++ Tag.standardHandles
  let (node, rest) ← match tokens with
    | .documentStart :: rest => do
      let (node, rest) ←
        readOptional handles true false [.documentStart, .documentEnd] fuel rest
      some (some node, rest)
    | _ =>
      if !directives.isEmpty then none
      else if tokens.isEmpty then some (none, [])
      else do
        let (node, rest) ← readNode handles true false fuel tokens
        some (some node, rest)
  if rest.all (· == .documentEnd) then some node else none

end PollHerald.Yaml
