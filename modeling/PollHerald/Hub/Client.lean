import PollHerald.Clock
import PollHerald.Hub.Dialogue
import PollHerald.Hub.Message
import PollHerald.Mention.Compose
import PollHerald.Wire.Signed

set_option autoImplicit false

/-! What the bot does with a hub: fetching its mentions, reading casts and profiles, and publishing
casts under its identity. Every request is made once; trying again is left to the caller. -/

namespace PollHerald.Hub

open Json (Value)

/-- Asks a request and reads the value in the answer. The body is received before the status
counts, so a body that breaks off is a failed request whatever the status. -/
def fetch {α : Type} (request : Request) (read : Value → Option α) : Task α := do
  match ← Dialogue.request request with
  | .unreachable | .broken | .response _ none => throw (.request request.endpoint)
  | .response status (some body) =>
    if status ≠ 200 then
      throw (.status request.endpoint status body)
    else
      match (Value.parse? body).bind read with
      | some value => return value
      | none => throw (.answer request.endpoint)

/-- The proof with the greatest timestamp, the last of several. -/
def latestProof : List UsernameProof → Option UsernameProof
  | [] => none
  | proof :: rest =>
    match latestProof rest with
    | none => some proof
    | some later => if later.timestamp < proof.timestamp then some proof else some later

def insertText (text : String) : List String → List String
  | [] => [text]
  | head :: rest =>
    if text < head then text :: head :: rest
    else if text = head then head :: rest
    else head :: insertText text rest

def textSet (texts : List String) : List String :=
  (texts.filter fun text => !text.isEmpty).foldr insertText []

def profileOf (fid : Fid) (proofs : List UsernameProof) (verifications : List Message) :
    Profile :=
  let latest := latestProof proofs
  { fid
    username := (latest.map UsernameProof.name).getD ""
    custodyAddress := (latest.map UsernameProof.owner).getD ""
    verificationAddresses :=
      textSet (verifications.filterMap fun message => message.content.bind MessageContent.address)
    signers := textSet (verifications.map Message.signer) }

def fetchProfile (fid : Fid) : Task Profile := do
  let proofs ← fetch (.usernameProofs fid) readProofs
  let page ← fetch (.verifications fid) Page.read
  return profileOf fid proofs page.messages

/-- The profile of a user. A failure names the user. -/
def profile (fid : Fid) : Task Profile :=
  tryCatch (fetchProfile fid) fun cause => throw (.profile fid cause)

abbrev Names := List (Fid × String)

def learnNames (names : Names) : List Fid → Task Names
  | [] => return names
  | fid :: rest => do
    if (names.lookup fid).isSome then
      learnNames names rest
    else
      let user ← profile fid
      learnNames ((fid, user.username) :: names) rest

def composeText (names : Names) (own : Fid) (cast : RawCast) : Except Error String :=
  let name : Fid → Except Empty (List Char) := fun fid =>
    .ok ((names.lookup fid).getD "").toList
  match (Mention.compose name own cast.text.toList cast.mentions cast.positions).outcome with
  | .ok text => .ok (String.ofList text)
  | .error (.mention cause) => .error (.mention cause)

/-- Writes out a cast for people, and keeps the usernames that this took. -/
def normalize (names : Names) (own : Fid) (cast : RawCast) : Task (Mention × Names) := do
  let names ← learnNames names (Mention.fidsToResolve own cast.mentions cast.positions)
  match composeText names own cast with
  | .error cause => throw cause
  | .ok text =>
    return ({
      isMention := cast.mentions.contains own
      text
      author := cast.fid
      hash := cast.hash
      timestamp := cast.timestamp
      parent := cast.parent }, names)

/-- Writes out casts one after another. One that fails fails them all. -/
def normalizeAll (names : Names) (own : Fid) : List RawCast → Task (List Mention)
  | [] => return []
  | cast :: rest => do
    let (mention, names) ← normalize names own cast
    let mentions ← normalizeAll names own rest
    return mention :: mentions

def newCasts (since : Nat) (messages : List Message) : List RawCast :=
  (messages.filterMap Message.cast?).filter fun cast =>
    !cast.text.isEmpty && decide (since < cast.timestamp)

/-- Mentions, with the Unix time up to which they reach. -/
structure Batch where
  mentions : List Mention
  next : Nat
  deriving DecidableEq, Repr

inductive Failure where
  | hub (error : Error)
  /-- The newest cast is later than a clock can hold. -/
  | clockOverflow
  deriving DecidableEq, Repr

/-- The mentions of an account that are later than `since`, the oldest first, and how far they
reach. Casts of the same second stay in the order of the page. -/
def mentionsSince (own : Fid) (since : Nat) : Task (List Mention × Nat) := do
  let page ← fetch (.castsByMention own) Page.read
  let casts := newCasts (Clock.toHub since) page.messages
  if casts.isEmpty then
    throw .noNewCasts
  let sorted := casts.mergeSort fun left right => decide (left.timestamp ≤ right.timestamp)
  let newest := (sorted.map RawCast.timestamp).foldl max 0
  let mentions ← normalizeAll [] own sorted
  Dialogue.tell (.mentionsFetched mentions.length)
  return (mentions, newest)

def lastMentions (identity : Option Identity) (since : Nat) : Dialogue (Except Failure Batch) := do
  match identity with
  | none => return .error (.hub .noIdentity)
  | some identity =>
    match ← (mentionsSince identity.fid since).run with
    | .error error => return .error (.hub error)
    | .ok (mentions, newest) =>
      match Clock.toUnix? newest with
      | some next => return .ok { mentions, next }
      | none => return .error .clockOverflow

/-- Hands a signed message to the hub. The body of the answer is read only for the error text. -/
def submit (message : Wire.Message) : Task Unit := do
  let request : Request := .submit message.encode
  match ← Dialogue.request request with
  | .unreachable | .broken => throw (.request request.endpoint)
  | .response status body =>
    if status ≠ 200 then
      throw (.status request.endpoint status (body.getD "Unable to read error response"))
    else
      Dialogue.tell (.castSubmitted message.hash)

def signDraft (identity : Option Identity) (now : Nat) (draft : Draft) :
    Except Error Wire.Message :=
  match identity with
  | none => .error .noIdentity
  | some identity =>
    match Wire.CastBody.ofDraft draft with
    | .error cause => .error (.mention cause)
    | .ok body => .ok (.sign identity (.ofCast identity (Clock.stamp now) body))

def publish (identity : Option Identity) (now : Nat) (draft : Draft) : Task Unit := do
  match signDraft identity now draft with
  | .error error => throw error
  | .ok message => submit message

def reply (identity : Option Identity) (now : Nat) (target : Mention) (draft : Draft) :
    Task Unit := do
  match castId target.author target.hash with
  | .error error => throw error
  | .ok parent => publish identity now { draft with parent := some parent }

/-- One cast, written out for people. Without an identity, account zero reads it. -/
def castById (identity : Option Identity) (fid : Fid) (hash : String) : Task Mention := do
  let message ← fetch (.castById fid hash) Message.read
  match message.cast? with
  | none => throw .castNotFound
  | some cast =>
    let (mention, _) ← normalize [] ((identity.map Identity.fid).getD 0) cast
    return mention

def useIdentity (fid : Fid) (key : String) : Task Identity := do
  match Identity.ofHex fid key with
  | .error error => throw error
  | .ok identity =>
    Dialogue.tell (.usingIdentity identity)
    return identity

def release (identity : Option Identity) : Dialogue Unit :=
  match identity with
  | none => .done ()
  | some identity => Dialogue.tell (.identityReleased identity.fid)

end PollHerald.Hub
