import PollHerald.Cast
import PollHerald.Text.Bytes
import PollHerald.Wire.Field

set_option autoImplicit false

/-! The messages of the network, as far as they are needed to publish a cast, and their bytes. -/

namespace PollHerald.Wire

inductive Embed where
  | none
  | url (address : String)
  | cast (target : CastId)
  deriving DecidableEq, Repr

inductive Parent where
  | none
  | cast (target : CastId)
  | url (address : String)
  deriving DecidableEq, Repr

structure CastBody where
  deprecatedEmbeds : List String := []
  mentions : List Fid := []
  parent : Parent := .none
  text : String := ""
  /-- Byte offsets into `text`. -/
  positions : List Nat := []
  embeds : List Embed := []
  deriving DecidableEq, Repr

/-- The part of a message that is hashed and signed. -/
structure MessageData where
  kind : Int32
  fid : Fid
  timestamp : Nat
  network : Int32
  body : Option CastBody
  deriving DecidableEq, Repr

structure Message where
  data : Option MessageData
  hash : List UInt8
  hashScheme : Int32
  signature : List UInt8
  signatureScheme : Int32
  signer : List UInt8
  /-- The bytes of `data` as they were hashed. -/
  dataBytes : Option (List UInt8)
  deriving DecidableEq, Repr

/-- A field that is written exactly when there is a value, even an empty one. -/
def presentBytes (field : Nat) : Option (List UInt8) → List UInt8
  | .none => []
  | some bytes => bytesField field bytes

def castIdBytes (cast : CastId) : List UInt8 :=
  optionalNumber 1 cast.fid ++ optionalBytes 2 cast.hash

def Embed.encode : Embed → List UInt8
  | .none => []
  | .url address => bytesField 1 (Text.utf8 address)
  | .cast target => bytesField 2 (castIdBytes target)

def Parent.castBytes : Parent → List UInt8
  | .cast target => bytesField 3 (castIdBytes target)
  | _ => []

def Parent.urlBytes : Parent → List UInt8
  | .url address => bytesField 7 (Text.utf8 address)
  | _ => []

/-- The fields in the order of their numbers, so that a parent address goes out last. A writer that
keeps both kinds of parent together would put it before field 4. Nothing here builds one: the parent
of a draft is a cast. -/
def CastBody.encode (body : CastBody) : List UInt8 :=
  body.deprecatedEmbeds.flatMap (fun url => bytesField 1 (Text.utf8 url)) ++
    packedNumbers 2 body.mentions ++
    body.parent.castBytes ++
    optionalBytes 4 (Text.utf8 body.text) ++
    packedNumbers 5 body.positions ++
    body.embeds.flatMap (fun embed => bytesField 6 embed.encode) ++
    body.parent.urlBytes

def MessageData.encode (data : MessageData) : List UInt8 :=
  optionalNumber 1 (signedCode data.kind) ++
    optionalNumber 2 data.fid ++
    optionalNumber 3 data.timestamp ++
    optionalNumber 4 (signedCode data.network) ++
    presentBytes 5 (data.body.map CastBody.encode)

def Message.encode (message : Message) : List UInt8 :=
  presentBytes 1 (message.data.map MessageData.encode) ++
    optionalBytes 2 message.hash ++
    optionalNumber 3 (signedCode message.hashScheme) ++
    optionalBytes 4 message.signature ++
    optionalNumber 5 (signedCode message.signatureScheme) ++
    optionalBytes 6 message.signer ++
    presentBytes 7 message.dataBytes

end PollHerald.Wire
