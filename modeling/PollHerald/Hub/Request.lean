import PollHerald.Cast
import PollHerald.Text.Bytes

set_option autoImplicit false

/-! What a hub is asked, and how it may answer. -/

namespace PollHerald.Hub

inductive Request where
  /-- The casts that mention an account. -/
  | castsByMention (fid : Fid)
  /-- One cast, by its author and the text of its hash. -/
  | castById (fid : Fid) (hash : String)
  /-- The usernames that an account has and had. -/
  | usernameProofs (fid : Fid)
  /-- The addresses that an account has verified. -/
  | verifications (fid : Fid)
  /-- Takes a signed message. -/
  | submit (message : List UInt8)
  deriving DecidableEq, Repr

inductive Answer where
  /-- No connection came about, so the hub never saw the request. -/
  | unreachable
  /-- The connection ended before the head of an answer. -/
  | broken
  /-- A status with a body. There is no body where the connection ended inside it. -/
  | response (status : Nat) (body : Option String)
  deriving DecidableEq, Repr

structure Exchange where
  request : Request
  answer : Answer
  deriving DecidableEq, Repr

namespace Request

def endpoint : Request → String
  | castsByMention _ => "castsByMention"
  | castById _ _ => "castById"
  | usernameProofs _ => "userNameProofsByFid"
  | verifications _ => "verificationsByFid"
  | submit _ => "submitMessage"

def parameters : Request → List (String × String)
  | castsByMention fid | usernameProofs fid | verifications fid => [("fid", toString fid)]
  | castById fid hash => [("fid", toString fid), ("hash", hash)]
  | submit _ => []

/-- The bytes that a request carries. Only such a request is a `POST`. -/
def body? : Request → Option (List UInt8)
  | submit message => some message
  | _ => none

def isUnreserved (byte : UInt8) : Bool :=
  (48 ≤ byte && byte ≤ 57) || (65 ≤ byte && byte ≤ 90) || (97 ≤ byte && byte ≤ 122) ||
    byte == 42 || byte == 45 || byte == 46 || byte == 95

def upperDigit (value : Nat) : Char :=
  Char.ofNat (if value < 10 then 48 + value else 55 + value)

/-- A byte of a parameter: a space becomes a plus sign, a reserved byte is written by its number. -/
def encodeByte (byte : UInt8) : List Char :=
  if isUnreserved byte then [Char.ofNat byte.toNat]
  else if byte = 32 then ['+']
  else ['%', upperDigit (byte.toNat / 16), upperDigit (byte.toNat % 16)]

def encodeParameter (text : String) : String :=
  String.ofList ((Text.utf8 text).flatMap encodeByte)

def target (base : String) (request : Request) : String :=
  let path := base ++ "/" ++ request.endpoint
  match request.parameters with
  | [] => path
  | parameters =>
    path ++ "?" ++ String.intercalate "&" (parameters.map fun (name, value) =>
      encodeParameter name ++ "=" ++ encodeParameter value)

end Request

end PollHerald.Hub
