import PollHerald.Cast
import PollHerald.Mention.Error
import PollHerald.Text.Bytes

set_option autoImplicit false

/-! Putting mentions back into a clean text as `@name`. The names go in from the last mention of
the list to the first. A mention of the reader's own account at the very front is left out: it only
addresses the reader. -/

namespace PollHerald.Mention

inductive ComposeError (ε : Type) where
  | mention (error : Error)
  | name (error : ε)
  deriving DecidableEq, Repr

def isSuppressed (own : Fid) (mention : Fid × Nat) : Bool :=
  mention.2 == 0 && mention.1 == own

/-- The accounts whose names were asked for, in order, and the outcome. -/
structure Composed (ε : Type) where
  asked : List Fid
  outcome : Except (ComposeError ε) (List Char)

/-- Puts the names of `mentions` into `text`, the head of the list first. The offset of each is
checked against the text as it is by then, before its name is asked for. -/
def insertNames {ε : Type} (name : Fid → Except ε (List Char)) (own : Fid) :
    List (Fid × Nat) → List Char → Composed ε
  | [], text => { asked := [], outcome := .ok text }
  | (fid, offset) :: rest, text =>
    if isSuppressed own (fid, offset) then
      insertNames name own rest text
    else
      match Text.cutAt offset text with
      | none =>
        { asked := [], outcome := .error (.mention (.offset offset (Text.byteLength text))) }
      | some (front, back) =>
        match name fid with
        | .error error => { asked := [fid], outcome := .error (.name error) }
        | .ok found =>
          let composed := insertNames name own rest (front ++ '@' :: found ++ back)
          { composed with asked := fid :: composed.asked }

/-- Puts the names of the mentions into a clean text, from the last mention to the first. -/
def compose {ε : Type} (name : Fid → Except ε (List Char)) (own : Fid) (text : List Char)
    (mentions : List Fid) (positions : List Nat) : Composed ε :=
  if mentions.length = positions.length then
    insertNames name own (mentions.zip positions).reverse text
  else
    { asked := [], outcome := .error (.mention (.count positions.length mentions.length)) }

def insertAscending (number : Nat) : List Nat → List Nat
  | [] => [number]
  | head :: rest =>
    if number < head then number :: head :: rest
    else if number = head then head :: rest
    else head :: insertAscending number rest

/-- The accounts whose names a composition may ask for, ascending and without repetition. -/
def fidsToResolve (own : Fid) (mentions : List Fid) (positions : List Nat) : List Fid :=
  ((mentions.zip positions).filter fun mention => !isSuppressed own mention).foldr
    (fun mention fids => insertAscending mention.1 fids) []

end PollHerald.Mention
