import PollHerald.Hub.Transfer
import PollHerald.Journal.Filter
import PollHerald.Service
import Std.Async.DNS
import Std.Async.Signal
import Std.Async.TCP
import Std.Async.Timer

set_option autoImplicit false

/-! The program. It reads the command line and the configuration, and then serves until it is
interrupted. A hub is reached over plain connections only, so that one with any other kind of
address counts as unreachable. -/

namespace PollHerald.Program

open Hub (Answer Address Dialogue Headers Request)
open Std.Async (Async AsyncTask)
open Std.Net (IPAddr SocketAddress)

def unixNow : IO Nat := do
  return (← Std.Time.Timestamp.now).toSecondsSinceUnixEpoch.val.toNat

def timeText : IO String := do
  let now ← Std.Time.Timestamp.now
  let date := Std.Time.DateTime.ofTimestampWithZone now .UTC
  return date.format "uuuu-MM-dd'T'HH:mm:ss.SSSSSS'Z'"

structure Log where
  file : IO.FS.Handle
  filter : Journal.Filter

/-- Writes an entry into the log file and to standard output, if it is kept. -/
def Log.write (log : Log) (entry : Journal.Entry) : IO Unit := do
  if log.filter.keeps entry then
    let padding := String.ofList (List.replicate (5 - entry.level.name.length) ' ')
    let line := (← timeText) ++ " " ++ padding ++ entry.line
    log.file.putStrLn line
    log.file.flush
    IO.println line

partial def receiveAll (socket : Std.Async.TCP.Socket.Client) (received : ByteArray) :
    Async ByteArray := do
  match ← socket.recv? 65536 with
  | none => return received
  | some bytes => receiveAll socket (received ++ bytes)

def connect (address : Address) : Async (Option Std.Async.TCP.Socket.Client) := do
  try
    let hosts ← Std.Async.DNS.getAddrInfo address.host ""
    let port := address.port.toUInt16
    match hosts.toList with
    | [] => return none
    | host :: _ =>
      let target : SocketAddress := match host with
        | .v4 addr => .v4 { addr, port }
        | .v6 addr => .v6 { addr, port }
      let socket ← Std.Async.TCP.Socket.Client.mk
      socket.connect target
      return some socket
  catch _ => return none

def exchange (address : Address) (headers : Headers) (request : Request) : Async Answer := do
  match ← connect address with
  | none => return .unreachable
  | some socket =>
    try
      socket.send (ByteArray.mk (request.bytes address headers).toArray)
      return .ofBytes (← receiveAll socket .empty).data.toList
    catch _ => return .broken

structure Line where
  log : Log
  address : Option Address := none
  headers : Headers := []
  /-- How many milliseconds a request may take. -/
  limit : Nat := 0

/-- Asks a request, for no longer than the limit. -/
def Line.ask (line : Line) (request : Request) : IO Answer := do
  match line.address with
  | none => return .unreachable
  | some address =>
    let answered : Async (Option Answer) := some <$> exchange address line.headers request
    let expired : Async (Option Answer) := do
      Std.Async.sleep (.ofNat line.limit)
      return none
    return (← (Async.race answered expired).block).getD .broken

def Line.hold {α : Type} (line : Line) : Dialogue α → IO α
  | .done value => return value
  | .note entry next => do
    line.log.write entry
    line.hold next
  | .ask request next => do
    let answer ← line.ask request
    line.hold (next answer)

def longestRest : Nat := 50

/-- Serves until the interrupt, or until the loop ends by itself. -/
partial def serve (line : Line) (interrupt : AsyncTask Int) (service : Service) : IO Unit := do
  if ← IO.hasFinished interrupt then
    let _ ← line.hold service.interrupt
  else
    let clock ← IO.monoMsNow
    match service.turn clock (← unixNow) with
    | .act dialogue => serve line interrupt (← line.hold dialogue)
    | .rest due =>
      IO.sleep (min longestRest (due - clock)).toUInt32
      serve line interrupt service
    | .over =>
      let _ ← line.hold service.closeDown

def refuse (failure : Startup.Failure) : IO UInt32 := do
  IO.eprint failure.report
  return Startup.failureStatus.toUInt32

def readFile? (path : String) : IO (Option String) := do
  try
    return some (← IO.FS.readFile path)
  catch _ => return none

def createDirectory (path : String) : IO Bool := do
  if path.isEmpty then return true
  try
    IO.FS.createDirAll path
    return true
  catch _ => return false

def readEnvironment (names : List String) : IO (String → Option String) := do
  let values ← names.mapM fun name => do return (name, ← IO.getEnv name)
  return fun name => (values.lookup name).join

def runWith (arguments : CommandLine.Arguments) (path : String) (configuration : Configuration) :
    IO UInt32 := do
  let environment ← readEnvironment
    [configuration.bot.privateKeyVariable, Journal.Filter.variableName]
  let line : Line := { log := {
    file := ← IO.FS.Handle.mk configuration.logPath .append
    filter := .ofEnvironment environment } }
  match ← line.hold (Startup.prepare path configuration environment).run with
  | .error failure => refuse failure
  | .ok setup =>
    let line := { line with
      address := Address.ofEndpoint? configuration.hub.endpoint
      headers := setup.headers
      limit := configuration.hub.timeoutSeconds * 1000 }
    let interrupt ← (← Std.Async.Signal.Waiter.mk .sigint false).wait
    let since := Startup.since arguments configuration (← unixNow)
    let service ← line.hold (Service.start setup since (← IO.monoMsNow))
    serve line interrupt service
    return 0

def run (arguments : List String) : IO UInt32 := do
  match CommandLine.parse arguments with
  | .error .help =>
    IO.print CommandLine.helpText
    return 0
  | .error .version =>
    IO.print CommandLine.versionText
    return 0
  | .error refusal =>
    let environment ← readEnvironment Text.Terminal.variableNames
    let isColoured := Text.Terminal.isColoured (← (← IO.getStderr).isTty) environment
    let hint := "For more information, try '" ++ Text.Terminal.styled .literal "--help" ++ "'."
    IO.eprint (Text.Terminal.present isColoured (refusal.message ++ "\n\n" ++ hint ++ "\n"))
    return refusal.status.toUInt32
  | .ok arguments =>
    let path := Startup.configurationPath arguments
    match Configuration.load path (← readFile? path) with
    | .error error => refuse (.configuration error)
    | .ok configuration =>
      if ← createDirectory configuration.dataDirectory then
        runWith arguments path configuration
      else
        refuse .dataDirectory

end PollHerald.Program

def main (arguments : List String) : IO UInt32 :=
  PollHerald.Program.run arguments
