import PollHerald.Identity
import PollHerald.Text.Span
import PollHerald.Text.Terminal

set_option autoImplicit false

/-! The journal: what the program tells about its work. An entry says what happened; its level, its
source and its wording follow from that. -/

namespace PollHerald.Journal

inductive Level where
  | debug | info | warn | error
  deriving DecidableEq, Repr

def Level.name : Level → String
  | .debug => "DEBUG"
  | .info => "INFO"
  | .warn => "WARN"
  | .error => "ERROR"

inductive Source where
  | program | client | command | loop
  deriving DecidableEq, Repr

def Source.target : Source → String
  | .program => "pollcaster"
  | .client => "pollcaster::infrastructure::hub::client"
  | .command => "pollcaster::application::handler"
  | .loop => "pollcaster::application::bot"

inductive Entry where
  | starting
  | configurationLoaded (path : String) (fid : Fid)
  | shutdownUnheard (reason : String)
  | shuttingDown
  | channelClosed
  | pollRequest (hash document : String)
  | commandFailed (hash reason : String)
  | replied (hash : String)
  | replyFailed (hash reason : String)
  | usingIdentity (identity : Identity)
  | identityReleased (fid : Fid)
  | mentionsFetched (count : Nat)
  | castSubmitted (hash : List UInt8)
  | pollRequested (username : String) (fid : Fid) (question : String) (options : Nat)
  /-- The cooldown is in nanoseconds. -/
  | loopStarted (since cooldown : Nat)
  | loopSignalled
  | loopAbandoned
  | loopBroken (reason : String)
  | delivering (count next : Nat)
  | nothingNew (since : Nat)
  | pollFailed (reason : String)
  | botStopped (cursor : Nat)

namespace Entry

def source : Entry → Source
  | starting | configurationLoaded .. | shutdownUnheard .. | shuttingDown | channelClosed
  | pollRequest .. | commandFailed .. | replied .. | replyFailed .. => .program
  | usingIdentity .. | identityReleased .. | mentionsFetched .. | castSubmitted .. => .client
  | pollRequested .. => .command
  | loopStarted .. | loopSignalled | loopAbandoned | loopBroken .. | delivering ..
  | nothingNew .. | pollFailed .. | botStopped .. => .loop

def level : Entry → Level
  | mentionsFetched .. | delivering .. | nothingNew .. => .debug
  | channelClosed | commandFailed .. | loopBroken .. | pollFailed .. => .warn
  | shutdownUnheard .. | replyFailed .. => .error
  | _ => .info

def message : Entry → String
  | starting => "Starting pollcaster..."
  | configurationLoaded path fid => s!"Loaded configuration from {path} for fid {fid}"
  | shutdownUnheard reason => "Unable to listen for shutdown signal: " ++ reason
  | shuttingDown => "Shutting down..."
  | channelClosed => "Mention channel closed"
  | pollRequest hash document => s!"Poll request for cast {hash}: {document}"
  | commandFailed hash reason | replyFailed hash reason =>
    s!"Command for cast {hash} failed: {reason}"
  | replied hash => s!"Replied to cast {hash} with poll URL"
  | usingIdentity identity => "Using identity " ++ identity.description
  | identityReleased fid => s!"Released identity for fid {fid}"
  | mentionsFetched count => s!"Fetched {count} new mention(s)"
  | castSubmitted hash => "Submitted cast 0x" ++ Hex.encode hash
  | pollRequested username fid question options =>
    s!"Poll request from @{username} ({fid}): " ++ Text.quoted question ++
      s!" with {options} option(s)"
  | loopStarted since cooldown =>
    s!"Starting poll loop, since={since}, cooldown=" ++ Text.span cooldown
  | loopSignalled => "Poll loop received shutdown signal"
  | loopAbandoned => "Mention receiver dropped, ending poll loop"
  | loopBroken reason => "Poll loop ended abnormally: " ++ reason
  | delivering count next => s!"Delivering {count} mention(s), cursor={next}"
  | nothingNew since => s!"No new mentions since {since}"
  | pollFailed reason => "Polling mentions failed: " ++ reason
  | botStopped cursor => s!"Bot stopped at cursor {cursor}"

/-- An entry as it stands in the log file, behind its time. It cannot steer a terminal. -/
def line (entry : Entry) : String :=
  entry.level.name ++ " " ++ entry.source.target ++ ": " ++ Text.Terminal.disarmed entry.message

end Entry

end PollHerald.Journal
