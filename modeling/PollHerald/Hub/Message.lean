import PollHerald.Hub.Error
import PollHerald.Json.Fields

set_option autoImplicit false

/-! What a hub answers: pages of messages, single messages and username proofs. -/

namespace PollHerald.Hub

open Json (Value fieldValues readText readWord readNatBelow readList readNullable)
open Record (orDefault required)

structure CastName where
  fid : Fid
  hash : String
  deriving DecidableEq, Repr

structure CastContent where
  text : String
  mentions : List Fid
  positions : List Nat
  parent : Option CastName
  deriving DecidableEq, Repr

structure MessageContent where
  kind : String
  fid : Fid
  timestamp : Nat
  cast : Option CastContent
  /-- The address that a verification names. -/
  address : Option String
  deriving DecidableEq, Repr

structure Message where
  content : Option MessageContent
  hash : String
  signer : String
  deriving DecidableEq, Repr

structure Page where
  messages : List Message
  nextPageToken : Option String
  deriving DecidableEq, Repr

structure UsernameProof where
  timestamp : Nat
  name : String
  owner : String
  deriving DecidableEq, Repr

def CastName.read (value : Value) : Option CastName := do
  match ← fieldValues [⟨["fid"], false⟩, ⟨["hash"], false⟩] value with
  | [fid, hash] => return { fid := ← required readWord fid, hash := ← required readText hash }
  | _ => none

def CastContent.read (value : Value) : Option CastContent := do
  match ← fieldValues [⟨["text"], true⟩, ⟨["mentions"], true⟩, ⟨["mentionsPositions"], true⟩,
      ⟨["parentCastId"], false⟩] value with
  | [text, mentions, positions, parent] =>
    return {
      text := ← orDefault "" readText text
      mentions := ← orDefault [] (readList readWord) mentions
      positions := ← orDefault [] (readList (readNatBelow Width.bound32)) positions
      parent := ← orDefault none (readNullable CastName.read) parent }
  | _ => none

def readAddress (value : Value) : Option String := do
  match ← fieldValues [⟨["address"], true⟩] value with
  | [address] => orDefault "" readText address
  | _ => none

/-- Reads the data of a message. The body of a verification also goes by its former name. -/
def MessageContent.read (value : Value) : Option MessageContent := do
  match ← fieldValues [⟨["type"], true⟩, ⟨["fid"], true⟩, ⟨["timestamp"], true⟩,
      ⟨["castAddBody"], false⟩,
      ⟨["verificationAddAddressBody", "verificationAddEthAddressBody"], false⟩] value with
  | [kind, fid, timestamp, cast, verification] =>
    return {
      kind := ← orDefault "" readText kind
      fid := ← orDefault 0 readWord fid
      timestamp := ← orDefault 0 readWord timestamp
      cast := ← orDefault none (readNullable CastContent.read) cast
      address := ← orDefault none (readNullable readAddress) verification }
  | _ => none

def Message.read (value : Value) : Option Message := do
  match ← fieldValues [⟨["data"], false⟩, ⟨["hash"], true⟩, ⟨["signer"], true⟩] value with
  | [content, hash, signer] =>
    return {
      content := ← orDefault none (readNullable MessageContent.read) content
      hash := ← orDefault "" readText hash
      signer := ← orDefault "" readText signer }
  | _ => none

def Page.read (value : Value) : Option Page := do
  match ← fieldValues [⟨["messages"], true⟩, ⟨["nextPageToken"], true⟩] value with
  | [messages, nextPageToken] =>
    return {
      messages := ← orDefault [] (readList Message.read) messages
      nextPageToken := ← orDefault none (readNullable readText) nextPageToken }
  | _ => none

def UsernameProof.read (value : Value) : Option UsernameProof := do
  match ← fieldValues [⟨["timestamp"], true⟩, ⟨["name"], true⟩, ⟨["owner"], true⟩] value with
  | [timestamp, name, owner] =>
    return {
      timestamp := ← orDefault 0 readWord timestamp
      name := ← orDefault "" readText name
      owner := ← orDefault "" readText owner }
  | _ => none

def readProofs (value : Value) : Option (List UsernameProof) := do
  match ← fieldValues [⟨["proofs"], true⟩] value with
  | [proofs] => orDefault [] (readList UsernameProof.read) proofs
  | _ => none

/-- Names a cast by its author and the base-16 text of its hash, with or without `0x`. -/
def castId (fid : Fid) (hash : String) : Except Error CastId :=
  match Hex.decode (Hex.dropMarker hash) with
  | .ok bytes => .ok { fid, hash := bytes }
  | .error cause => .error (.castHash hash cause)

/-- A cast as it was read, before names are put into its text. -/
structure RawCast where
  fid : Fid
  timestamp : Nat
  hash : String
  text : String
  mentions : List Fid
  positions : List Nat
  parent : Option CastId
  deriving DecidableEq, Repr

def castKind : String := "MESSAGE_TYPE_CAST_ADD"

/-- The cast that a message adds, if it adds one. A parent with a bad hash is dropped. -/
def Message.cast? (message : Message) : Option RawCast := do
  let content ← message.content
  if content.kind = castKind then
    let cast ← content.cast
    some {
      fid := content.fid
      timestamp := content.timestamp
      hash := message.hash
      text := cast.text
      mentions := cast.mentions
      positions := cast.positions
      parent := cast.parent.bind fun name => (castId name.fid name.hash).toOption }
  else
    none

end PollHerald.Hub
