import PollHerald.Crypto.Ed25519
import PollHerald.Hub.Error
import PollHerald.Text.Blank

set_option autoImplicit false

/-! The account that the bot speaks for, with the key that signs its messages. -/

namespace PollHerald

structure Identity where
  fid : Fid
  seed : List UInt8
  seedLength : seed.length = 32

namespace Identity

/-- Reads a key in base 16, with or without `0x` and with blanks around it. -/
def ofHex (fid : Fid) (key : String) : Except Hub.Error Identity :=
  match Hex.decode (Hex.dropMarker (String.ofList (Text.trim key.toList))) with
  | .error cause => .error (.keyEncoding cause)
  | .ok seed =>
    if seedLength : seed.length = 32 then .ok { fid, seed, seedLength }
    else .error (.keyLength seed.length)

def publicKey (identity : Identity) : List UInt8 :=
  Crypto.Ed25519.publicKey identity.seed

def sign (identity : Identity) (message : List UInt8) : List UInt8 :=
  Crypto.Ed25519.sign identity.seed message

/-- How an identity is shown, without its secret. -/
def description (identity : Identity) : String :=
  s!"SigningIdentity \x7b fid: {identity.fid}, public_key: " ++
    Text.quoted (Hex.encode identity.publicKey) ++ ", .. \x7d"

end Identity

end PollHerald
