import PollHerald.Cast
import PollHerald.Poll.Limits
import PollHerald.Yaml.Fields

set_option autoImplicit false

/-! The configuration file: the hub, the bot, the limits of polls, the answers and the data. Only
the address of the hub and the account of the bot have to be given. -/

namespace PollHerald

open Record (Field orDefault required)
open Yaml (Document Node fieldValues readText readNumber readNullable readTable)

structure HubSettings where
  endpoint : String
  authHeaders : List (String × String) := []
  timeoutSeconds : Nat := 10
  deriving DecidableEq, Repr

structure BotSettings where
  fid : Fid
  privateKey : Option String := none
  /-- The environment variable that holds the key where the file does not. -/
  privateKeyVariable : String := "BOT_PRIVATE_KEY"
  cooldownSeconds : Nat := 10
  channelCapacity : Nat := 32
  /-- The Unix time from which mentions are read. -/
  since : Option Nat := none
  deriving DecidableEq, Repr

structure Configuration where
  hub : HubSettings
  bot : BotSettings
  poll : Poll.Settings := {}
  /-- The template of the address that the author of a poll gets. -/
  urlTemplate : Option String := none
  dataDirectory : String := "data"
  deriving DecidableEq, Repr

private def optionalField (name : String) : Field := { names := [name], hasDefault := true }

private def requiredField (name : String) : Field := { names := [name], hasDefault := false }

def HubSettings.read (document : Document) (node : Node) : Option HubSettings := do
  match ← fieldValues document [requiredField "endpoint", optionalField "auth_headers",
      optionalField "timeout_secs"] node with
  | [endpoint, authHeaders, timeoutSeconds] =>
    return {
      endpoint := ← required readText endpoint
      authHeaders := ← orDefault [] (readTable document) authHeaders
      timeoutSeconds := ← orDefault 10 readNumber timeoutSeconds }
  | _ => none

def BotSettings.read (document : Document) (node : Node) : Option BotSettings := do
  match ← fieldValues document [requiredField "fid", optionalField "private_key",
      optionalField "private_key_env", optionalField "cooldown_secs",
      optionalField "channel_capacity", optionalField "since"] node with
  | [fid, privateKey, privateKeyVariable, cooldownSeconds, channelCapacity, since] =>
    return {
      fid := ← required readNumber fid
      privateKey := ← orDefault none (readNullable readText) privateKey
      privateKeyVariable := ← orDefault "BOT_PRIVATE_KEY" readText privateKeyVariable
      cooldownSeconds := ← orDefault 10 readNumber cooldownSeconds
      channelCapacity := ← orDefault 32 readNumber channelCapacity
      since := ← orDefault none (readNullable readNumber) since }
  | _ => none

def readPollSettings (document : Document) (node : Node) : Option Poll.Settings := do
  match ← fieldValues document [optionalField "min_options", optionalField "max_options",
      optionalField "min_duration", optionalField "max_duration",
      optionalField "default_duration"] node with
  | [minOptions, maxOptions, minDuration, maxDuration, defaultDuration] =>
    return {
      minOptions := ← orDefault 2 readNumber minOptions
      maxOptions := ← orDefault 4 readNumber maxOptions
      minDuration := ← orDefault "1h" readText minDuration
      maxDuration := ← orDefault "15d" readText maxDuration
      defaultDuration := ← orDefault "24h" readText defaultDuration }
  | _ => none

def readUrlTemplate (document : Document) (node : Node) : Option (Option String) := do
  match ← fieldValues document [optionalField "url_template"] node with
  | [template] => orDefault none (readNullable readText) template
  | _ => none

def readDataDirectory (document : Document) (node : Node) : Option String := do
  match ← fieldValues document [optionalField "data_dir"] node with
  | [directory] => orDefault "data" readText directory
  | _ => none

def Configuration.ofDocument? (document : Document) : Option Configuration := do
  match ← fieldValues document [requiredField "hub", requiredField "bot", optionalField "poll",
      optionalField "reply", optionalField "system"] (document.content document.node) with
  | [hub, bot, poll, reply, system] =>
    return {
      hub := ← required (HubSettings.read document) hub
      bot := ← required (BotSettings.read document) bot
      poll := ← orDefault {} (readPollSettings document) poll
      urlTemplate := ← orDefault none (readUrlTemplate document) reply
      dataDirectory := ← orDefault "data" (readDataDirectory document) system }
  | _ => none

def Configuration.parse? (text : String) : Option Configuration := do
  Configuration.ofDocument? (← Document.parse? text)

namespace Configuration

def standardDirectory : String := "data"

def standardPath : String := standardDirectory ++ "/config.yaml"

def logName : String := "session.log"

def logPath (configuration : Configuration) : String :=
  if configuration.dataDirectory.isEmpty then logName
  else configuration.dataDirectory ++ "/" ++ logName

inductive Error where
  | unreadable (path : String)
  | malformed (path : String)
  | noPrivateKey (name : String)
  deriving DecidableEq, Repr

def Error.message : Error → String
  | .unreadable path => "Failed to read " ++ path
  | .malformed path => "Failed to parse " ++ path
  | .noPrivateKey name => "No private key provided - set bot.private_key or " ++ name

/-- Reads the configuration at a path, where `contents` is the text found there. -/
def load (path : String) (contents : Option String) : Except Error Configuration :=
  match contents with
  | none => .error (.unreadable path)
  | some text =>
    match parse? text with
    | none => .error (.malformed path)
    | some configuration => .ok configuration

end Configuration

/-- The key of the bot: the one in the file, or else the one in the environment. -/
def BotSettings.resolveKey (settings : BotSettings) (environment : String → Option String) :
    Except Configuration.Error String :=
  match settings.privateKey <|> environment settings.privateKeyVariable with
  | some key => .ok key
  | none => .error (.noPrivateKey settings.privateKeyVariable)

end PollHerald
