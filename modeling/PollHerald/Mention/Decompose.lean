import PollHerald.Cast
import PollHerald.Mention.Error
import PollHerald.Mention.Token
import PollHerald.Text.Bytes

set_option autoImplicit false

/-! Taking the mention tokens out of a text. What is left is the clean text, and each token leaves
the byte offset at which it stood there. -/

namespace PollHerald.Mention

/-- A text without its mention tokens. `mentions` and `positions` have one entry for each token. -/
structure Clean where
  text : String
  mentions : List Fid
  positions : List Nat
  deriving DecidableEq, Repr

def plainText : List Piece → List Char
  | [] => []
  | .plain character :: rest => character :: plainText rest
  | .token _ :: rest => plainText rest

/-- The offsets of the tokens in the clean text, of which `offset` bytes come before `pieces`. -/
def tokenOffsets (offset : Nat) : List Piece → List Nat
  | [] => []
  | .plain character :: rest => tokenOffsets (offset + character.utf8Size) rest
  | .token _ :: rest => offset :: tokenOffsets offset rest

def decompose (text : String) (mentions : List Fid) : Except Error Clean :=
  let parts := pieces text.toList
  let tokens := parts.countP Piece.isToken
  if tokens = mentions.length then
    .ok { text := String.ofList (plainText parts), mentions, positions := tokenOffsets 0 parts }
  else
    .error (.count tokens mentions.length)

end PollHerald.Mention
