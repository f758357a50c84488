import PollHerald.Hub.Client
import PollHerald.Json.Printer
import PollHerald.Poll.Grammar

set_option autoImplicit false

/-! Poll commands in mentions. A mention that holds a poll becomes a request for it, which goes into
the journal as one line of JSON, and the author gets the address of the poll where one is
configured. -/

namespace PollHerald

open Json (Value)

structure PollRequest where
  author : Profile
  poll : Poll
  mention : Mention
  deriving DecidableEq, Repr

namespace Command

inductive Error where
  | poll (cause : Poll.Error)
  | author (cause : Hub.Error)
  | reply (cause : Hub.Error)
  deriving DecidableEq, Repr

def Error.messages : Error → List String
  | .poll cause => ["error parsing poll", cause.message]
  | .author cause => "error getting user data" :: cause.messages
  | .reply cause => "error replying to cast" :: cause.messages

def Error.message (error : Error) : String :=
  error.messages.headD ""

def chain (messages : List String) : String :=
  String.intercalate ": " messages

/-- The poll that a mention asks for. A cast that does not mention the bot asks for none. -/
def handle (limits : Poll.Limits) (mention : Mention) :
    Hub.Dialogue (Except Error (Option PollRequest)) := do
  if !mention.isMention then
    return .ok none
  match Poll.parse limits mention.text with
  | .error cause => return .error (.poll cause)
  | .ok poll =>
    match ← (Hub.profile mention.author).run with
    | .error cause => return .error (.author cause)
    | .ok author =>
      Hub.Dialogue.tell
        (.pollRequested author.username author.fid poll.question poll.options.length)
      return .ok (some { author, poll, mention })

def announcement (url : String) : String :=
  "Your poll is live! Vote here: " ++ url

def fillHash (hash : List Char) : List Char → List Char
  | '{' :: 'h' :: 'a' :: 's' :: 'h' :: '}' :: rest => hash ++ fillHash hash rest
  | character :: rest => character :: fillHash hash rest
  | [] => []

def pollUrl (template hash : String) : String :=
  String.ofList (fillHash hash.toList template.toList)

def announcementDraft (url : String) : Draft :=
  { text := announcement url, embeds := [url] }

/-- Answers a mention with the address of its poll. The cast is read anew before the answer. -/
def replyWithPollUrl (identity : Option Identity) (now : Nat) (mention : Mention) (url : String) :
    Hub.Dialogue (Except Error Unit) := do
  let task : Hub.Task Unit := do
    let target ← Hub.castById identity mention.author mention.hash
    Hub.reply identity now target (announcementDraft url)
  match ← task.run with
  | .error cause => return .error (.reply cause)
  | .ok () => return .ok ()

def castIdValue (cast : CastId) : Value :=
  .record [("fid", .ofNat cast.fid),
    ("hash", .array (cast.hash.map fun byte => .ofNat byte.toNat))]

def profileValue (profile : Profile) : Value :=
  .record [("fid", .ofNat profile.fid),
    ("username", .ofString profile.username),
    ("custody_address", .ofString profile.custodyAddress),
    ("verification_addresses", .array (profile.verificationAddresses.map .ofString)),
    ("signers", .array (profile.signers.map .ofString))]

def durationValue (nanoseconds : Nat) : Value :=
  let second := Poll.TimeUnit.second.nanoseconds
  .record [("secs", .ofNat (nanoseconds / second)), ("nanos", .ofNat (nanoseconds % second))]

def pollValue (poll : Poll) : Value :=
  .record [("question", .ofString poll.question),
    ("options", .array (poll.options.map .ofString)),
    ("duration", durationValue poll.duration)]

def mentionValue (mention : Mention) : Value :=
  .record [("is_mention", .truth mention.isMention),
    ("text", .ofString mention.text),
    ("author_fid", .ofNat mention.author),
    ("hash", .ofString mention.hash),
    ("timestamp", .ofNat mention.timestamp),
    ("parent", (mention.parent.map castIdValue).getD .null)]

def requestValue (request : PollRequest) : Value :=
  .record [("author", profileValue request.author),
    ("poll", pollValue request.poll),
    ("mention", mentionValue request.mention)]

def document (request : PollRequest) : String :=
  String.ofList (requestValue request).render

def announce (identity : Option Identity) (now : Nat) (template : Option String)
    (mention : Mention) : Hub.Dialogue Unit := do
  match template with
  | none => return
  | some template =>
    match ← replyWithPollUrl identity now mention (pollUrl template mention.hash) with
    | .ok () => Hub.Dialogue.tell (.replied mention.hash)
    | .error error => Hub.Dialogue.tell (.replyFailed mention.hash (chain error.messages))

/-- Carries out the command in a mention. Failures go into the journal. -/
def process (limits : Poll.Limits) (identity : Option Identity) (now : Nat)
    (template : Option String) (mention : Mention) : Hub.Dialogue Unit := do
  match ← handle limits mention with
  | .error error => Hub.Dialogue.tell (.commandFailed mention.hash (chain error.messages))
  | .ok none => return
  | .ok (some request) =>
    Hub.Dialogue.tell (.pollRequest mention.hash (document request))
    announce identity now template mention

end Command

end PollHerald
