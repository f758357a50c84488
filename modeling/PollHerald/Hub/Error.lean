import PollHerald.Cast
import PollHerald.Hex
import PollHerald.Mention.Error

set_option autoImplicit false

/-! The ways in which work with a hub fails. -/

namespace PollHerald.Hub

inductive Error where
  | noIdentity
  | keyEncoding (cause : Hex.Error)
  /-- The key has this number of bytes. -/
  | keyLength (length : Nat)
  /-- There is no mention after the cursor. This is no fault: the cursor stays. -/
  | noNewCasts
  | castHash (hash : String) (cause : Hex.Error)
  | mention (cause : Mention.Error)
  /-- The request got no whole answer. -/
  | request (endpoint : String)
  | status (endpoint : String) (code : Nat) (body : String)
  | answer (endpoint : String)
  | castNotFound
  | profile (fid : Fid) (cause : Error)
  deriving DecidableEq, Repr

namespace Error

/-- The wording of an error and, after it, of its causes. A wrong set of mentions is its own
error, without a cause behind it. -/
def messages : Error → List String
  | noIdentity => ["no identity set"]
  | keyEncoding cause => ["invalid private key encoding: " ++ cause.message, cause.message]
  | keyLength length => [s!"invalid private key length: expected 32 bytes, got {length}"]
  | noNewCasts => ["no new casts"]
  | castHash hash cause => ["invalid cast hash '" ++ hash ++ "'", cause.message]
  | mention cause => [cause.message]
  | request endpoint => ["request to " ++ endpoint ++ " failed"]
  | status endpoint code body => [s!"{endpoint} returned HTTP {code}: {body}"]
  | answer endpoint => ["cannot decode " ++ endpoint ++ " response"]
  | castNotFound => ["cast not found"]
  | profile fid cause => s!"cannot get user data for fid {fid}" :: cause.messages

def message (error : Error) : String :=
  error.messages.headD ""

def isNoProgress : Error → Bool
  | noNewCasts => true
  | _ => false

end Error

end PollHerald.Hub
