import PollHerald.Journal
import PollHerald.Text.Blank

set_option autoImplicit false

/-! Which entries of the journal are kept. A filter is a list of directives with commas between
them. A directive tells how detailed the kept entries are, in all sources or in those whose name
starts with a target. Of the directives for an entry the one with the longest target decides, and
of two with the same target the later one. -/

namespace PollHerald.Journal

def Level.rank : Level → Nat
  | .error => 1
  | .warn => 2
  | .info => 3
  | .debug => 4

/-- The rank of the most detailed entries, which the program has none of. -/
def greatestRank : Nat := 5

structure Directive where
  /-- What the name of a source starts with. -/
  target : String := ""
  /-- Whether only work in some named stretch of time is meant. No entry belongs to one. -/
  hasSpan : Bool := false
  /-- The fields that an entry has to have, and those whose value has to be some given one. -/
  fields : List String := []
  /-- The rank of the least urgent entries that are kept. -/
  rank : Nat := greatestRank

namespace Directive

def entryField : String := "message"

def concerns (directive : Directive) (entry : Entry) : Bool :=
  !directive.hasSpan && directive.target.toList.isPrefixOf entry.source.target.toList &&
    directive.fields.all (· == entryField)

/-- Whether a directive decides where another one is about the same entry and stands before it. -/
def beats (directive other : Directive) : Bool :=
  let length := directive.target.length
  let otherLength := other.target.length
  otherLength < length ||
    (otherLength == length && other.fields.length ≤ directive.fields.length)

def numberedRank? (text : List Char) : Option Nat :=
  let digits := if text.head? = some '+' then text.tail else text
  if digits.isEmpty ∨ !digits.all Char.isDigit then none
  else
    let number := digits.foldl (fun value digit => 10 * value + (digit.toNat - '0'.toNat)) 0
    if number ≤ greatestRank then some number else none

def rank? (text : List Char) : Option Nat :=
  numberedRank? text <|> match String.ofList (text.map Char.toLower) with
    | "off" => some 0
    | "error" => some Level.error.rank
    | "warn" => some Level.warn.rank
    | "info" => some Level.info.rank
    | "debug" => some Level.debug.rank
    | "trace" => some greatestRank
    | _ => none

def isStart (character : Char) : Bool :=
  character.isAlphanum || "[-:_".toList.contains character || 0x80 ≤ character.toNat

def readFields (text : List Char) : Option (List String × List Char) :=
  let field := text.takeWhile (· ≠ '\x7d')
  match text.dropWhile (· ≠ '\x7d') with
  | '\x7d' :: ']' :: rest => if field.isEmpty then none else some ([String.ofList field], rest)
  | _ => none

def readScope (directive : Directive) (text : List Char) : Option (Directive × List Char) :=
  let span := text.takeWhile fun character => character != ']' && character != '\x7b'
  match text.dropWhile fun character => character != ']' && character != '\x7b' with
  | ']' :: rest => some ({ directive with hasSpan := true }, rest)
  | '\x7b' :: rest => do
    let (fields, rest) ← readFields rest
    return ({ directive with hasSpan := !span.isEmpty, fields }, rest)
  | _ => none

def readRank (directive : Directive) : List Char → Option Directive
  | [] => some directive
  | '=' :: [] => some directive
  | '=' :: level => (rank? level).map fun rank => { directive with rank }
  | _ => none

/-- Reads a directive: a level, a target, or a target or a scope with a level behind it. Behind a
blank there can be no level, and no source has a name that starts with a blank. -/
def parse? (text : List Char) : Option Directive := do
  let isIndented := text.head?.any Text.isBlank
  if !(Text.trimFront text).head?.any isStart ∨ (isIndented ∧ text.contains '=') then
    none
  if isIndented then
    return { target := String.ofList text }
  let name := text.takeWhile fun character => character != '=' && character != '['
  let named : Directive := { target := String.ofList name }
  match text.dropWhile fun character => character != '=' && character != '[' with
  | [] => return (rank? name).elim named fun rank => { rank }
  | '[' :: rest =>
    let (directive, rest) ← named.readScope rest
    directive.readRank rest
  | rest => named.readRank rest

end Directive

abbrev Filter := List Directive

namespace Filter

def variableName : String := "RUST_LOG"

def standard : Filter := [{ rank := Level.info.rank }]

def errorsOnly : Filter := [{ rank := Level.error.rank }]

def parts : List Char → List (List Char)
  | [] => [[]]
  | ',' :: rest => [] :: parts rest
  | character :: rest =>
    match parts rest with
    | [] => [[character]]
    | part :: others => (character :: part) :: others

/-- Reads a filter. Nothing at all between commas is passed over. -/
def parse? (text : String) : Option Filter := do
  let directives ← ((parts text.toList).filter (!·.isEmpty)).mapM Directive.parse?
  return if directives.isEmpty then errorsOnly else directives

/-- The filter that an environment tells. One that cannot be read counts as none. -/
def ofEnvironment (environment : String → Option String) : Filter :=
  ((environment variableName).bind parse?).getD standard

def decisive? (filter : Filter) (entry : Entry) : Option Directive :=
  filter.foldl (fun best directive =>
    if directive.concerns entry ∧ best.all directive.beats then some directive else best) none

def keeps (filter : Filter) (entry : Entry) : Bool :=
  (filter.decisive? entry).any fun directive => entry.level.rank ≤ directive.rank

end Filter

end PollHerald.Journal
