set_option autoImplicit false

/-! Mention tokens in a text. A token is an `@` with the longest run of handle characters after it,
at least one, and a `.eth` that follows directly. No token can start inside another, since `@` is
not a handle character, so one pass from the left finds them all. -/

namespace PollHerald.Mention

/-- A letter, digit, underscore or hyphen of ASCII. -/
def isHandleChar (character : Char) : Bool :=
  character.isAlphanum || character == '_' || character == '-'

def dropEth : List Char → Option (List Char)
  | '.' :: 'e' :: 't' :: 'h' :: rest => some rest
  | _ => none

/-- Splits the text after an `@` into the rest of the token and what comes after the token. -/
def splitToken (text : List Char) : List Char × List Char :=
  let name := text.takeWhile isHandleChar
  let after := text.dropWhile isHandleChar
  match dropEth after with
  | some rest => (name ++ ['.', 'e', 't', 'h'], rest)
  | none => (name, after)

def opensToken : List Char → Bool
  | [] => false
  | character :: _ => isHandleChar character

private theorem length_of_dropEth {text rest : List Char} (found : dropEth text = some rest) :
    rest.length ≤ text.length := by
  unfold dropEth at found
  split at found
  · cases found
    simp only [List.length_cons]
    omega
  · cases found

theorem length_splitToken_le (text : List Char) :
    (splitToken text).2.length ≤ text.length := by
  have shorter : (text.dropWhile isHandleChar).length ≤ text.length :=
    (List.dropWhile_suffix isHandleChar).length_le
  simp only [splitToken]
  split
  next rest found => exact Nat.le_trans (length_of_dropEth found) shorter
  next => exact shorter

/-- A part of a text: one character outside every token, or a token with its `@`. -/
inductive Piece where
  | plain (character : Char)
  | token (text : List Char)
  deriving DecidableEq, Repr

def pieces (text : List Char) : List Piece :=
  match text with
  | [] => []
  | character :: rest =>
    if character = '@' ∧ opensToken rest then
      .token (character :: (splitToken rest).1) :: pieces (splitToken rest).2
    else
      .plain character :: pieces rest
  termination_by text.length
  decreasing_by
    · exact Nat.lt_succ_of_le (length_splitToken_le rest)
    · exact Nat.lt_succ_self _

def Piece.text : Piece → List Char
  | .plain character => [character]
  | .token text => text

def Piece.isToken : Piece → Bool
  | .plain _ => false
  | .token _ => true

end PollHerald.Mention
