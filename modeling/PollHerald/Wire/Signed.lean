import PollHerald.Crypto.Blake3
import PollHerald.Identity
import PollHerald.Mention.Decompose
import PollHerald.Wire.Message
import PollHerald.Width

set_option autoImplicit false

/-! From the draft of a cast to the signed message. The tokens in the text become mentions with
byte offsets, the data of the message is hashed, and the hash is signed. -/

namespace PollHerald.Wire

def castAdd : Int32 := 1

def mainNetwork : Int32 := 1

def blake3Scheme : Int32 := 1

def ed25519Scheme : Int32 := 1

def hashLength : Nat := 20

def messageHash (dataBytes : List UInt8) : List UInt8 :=
  (Crypto.Blake3.hash dataBytes).take hashLength

def Parent.ofDraft (target : Option CastId) : Parent :=
  (target.map Parent.cast).getD .none

/-- The body of the cast that a draft asks for. Offsets have to fit into 32 bits. -/
def CastBody.ofDraft (draft : Draft) : Except Mention.Error CastBody := do
  let clean ← Mention.decompose draft.text draft.mentions
  match clean.positions.find? fun position => Width.bound32 ≤ position with
  | some position => throw (.offset position clean.text.utf8ByteSize)
  | none =>
    return {
      mentions := clean.mentions
      parent := .ofDraft draft.parent
      text := clean.text
      positions := clean.positions
      embeds := draft.embeds.map .url }

def MessageData.ofCast (identity : Identity) (timestamp : Nat) (body : CastBody) : MessageData where
  kind := castAdd
  fid := identity.fid
  timestamp
  network := mainNetwork
  body := some body

def Message.sign (identity : Identity) (data : MessageData) : Message :=
  let dataBytes := data.encode
  let hash := messageHash dataBytes
  { data := some data
    hash
    hashScheme := blake3Scheme
    signature := identity.sign hash
    signatureScheme := ed25519Scheme
    signer := identity.publicKey
    dataBytes := some dataBytes }

end PollHerald.Wire
