import PollHerald.CommandLine
import PollHerald.Configuration
import PollHerald.Hub.Client
import PollHerald.Hub.Headers

set_option autoImplicit false

/-! Starting the program. What a configuration says is made into what the program works with, step
by step, and the first step that fails ends the start. -/

namespace PollHerald

structure Setup where
  configuration : Configuration
  headers : Hub.Headers
  identity : Identity
  limits : Poll.Limits

namespace Startup

inductive Failure where
  | configuration (cause : Configuration.Error)
  | dataDirectory
  | headers (cause : Hub.Headers.Error)
  | identity (cause : Hub.Error)
  | limits (cause : Poll.Error)
  deriving DecidableEq, Repr

def Failure.messages : Failure → List String
  | .configuration cause => [cause.message]
  | .dataDirectory => ["Failed to create data directory"]
  | .headers cause => ["Failed to build Hub client", cause.message]
  | .identity cause => "Failed to set bot identity" :: cause.messages
  | .limits cause => ["Invalid poll settings", cause.message]

def Failure.title (failure : Failure) : String :=
  "Error: " ++ failure.messages.headD ""

/-- The report on a failure. Several causes are numbered. -/
def Failure.report (failure : Failure) : String :=
  match failure.messages.tail with
  | [] => failure.title ++ "\n"
  | [cause] => failure.title ++ "\n\nCaused by:\n    " ++ cause ++ "\n"
  | causes =>
    let lines := causes.zipIdx.map fun (cause, index) => s!"    {index}: " ++ cause ++ "\n"
    failure.title ++ "\n\nCaused by:\n" ++ String.join lines

def configurationPath (arguments : CommandLine.Arguments) : String :=
  arguments.config.getD Configuration.standardPath

def failureStatus : Nat := 1

private def orFail {ε α : Type} (wrap : ε → Failure) : Except ε α →
    ExceptT Failure Hub.Dialogue α
  | .ok value => return value
  | .error error => throw (wrap error)

/-- Prepares the work with the configuration at a path. The key is looked up before the headers
are checked, and the limits of polls come last. -/
def prepare (path : String) (configuration : Configuration)
    (environment : String → Option String) : ExceptT Failure Hub.Dialogue Setup := do
  Hub.Dialogue.tell .starting
  Hub.Dialogue.tell (.configurationLoaded path configuration.bot.fid)
  let key ← orFail .configuration (configuration.bot.resolveKey environment)
  let headers ← orFail .headers (Hub.Headers.ofList configuration.hub.authHeaders)
  let identity ← orFail .identity (← (Hub.useIdentity configuration.bot.fid key).run)
  let limits ← orFail .limits configuration.poll.toLimits
  return { configuration, headers, identity, limits }

/-- The Unix time from which mentions are read: the command line wins over the configuration, and
else it is the time of the start. -/
def since (arguments : CommandLine.Arguments) (configuration : Configuration) (now : Nat) : Nat :=
  ((arguments.since <|> configuration.bot.since).getD now)

end Startup

end PollHerald
