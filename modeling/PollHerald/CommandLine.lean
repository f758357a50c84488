import PollHerald.Text.Terminal
import PollHerald.Width

set_option autoImplicit false

/-! The command line. Two options take a value: `--config`, also `-c`, names the configuration file,
and `--since` gives the Unix time from which mentions are read. A value follows its option or is
attached to it. An option takes effect only when the next one is read or the line ends, so that is
where a bad value is reported, after an unknown argument in between. -/

namespace PollHerald.CommandLine

open Text.Terminal (styled)

structure Arguments where
  config : Option String := none
  since : Option Nat := none
  deriving DecidableEq, Repr

inductive OptionName where
  | config | since
  deriving DecidableEq, Repr

def OptionName.usage : OptionName → String
  | .config => "--config <CONFIG>"
  | .since => "--since <SINCE>"

inductive NumberError where
  | empty | digit | overflow
  deriving DecidableEq, Repr

def NumberError.message : NumberError → String
  | .empty => "cannot parse integer from empty string"
  | .digit => "invalid digit found in string"
  | .overflow => "number too large to fit in target type"

inductive Refusal where
  | help
  | version
  | unknownArgument (argument : String)
  | missingValue (option : OptionName)
  | badValue (option : OptionName) (value : String) (cause : NumberError)
  | repeatedOption (option : OptionName)
  | unneededValue (option value : String)
  deriving DecidableEq, Repr

/-- The message for a refusal, as a terminal shows it. Help and version are no errors. -/
def Refusal.message (refusal : Refusal) : String :=
  let wrong := styled .wrong
  let known := styled .literal
  let failure := fun text => styled .failure "error:" ++ " " ++ text
  match refusal with
  | .help | .version => ""
  | .unknownArgument argument => failure ("unexpected argument '" ++ wrong argument ++ "' found")
  | .missingValue option =>
    failure ("a value is required for '" ++ wrong option.usage ++ "' but none was supplied")
  | .badValue option value cause =>
    failure ("invalid value '" ++ wrong value ++ "' for '" ++ known option.usage ++ "': " ++
      cause.message)
  | .repeatedOption option =>
    failure ("the argument '" ++ wrong option.usage ++ "' cannot be used multiple times")
  | .unneededValue option value =>
    failure ("unexpected value '" ++ wrong value ++ "' for '" ++ known option ++
      "' found; no more were expected")

def helpText : String :=
  "Farcaster bot that turns mentions into polls\n\n" ++
  "Usage: pollcaster [OPTIONS]\n\n" ++
  "Options:\n" ++
  "  -c, --config <CONFIG>  Path to the configuration file\n" ++
  "      --since <SINCE>    Start cursor as Unix seconds; overrides bot.since\n" ++
  "  -h, --help             Print help\n" ++
  "  -V, --version          Print version\n"

def versionText : String := "pollcaster 0.1.0\n"

def Refusal.status : Refusal → Nat
  | .help | .version => 0
  | _ => 2

/-- Reads a number below 2^64 in ASCII digits, perhaps after a plus sign. -/
def readNumber (text : String) : Except NumberError Nat :=
  let digits := match text.toList with
    | '+' :: rest => rest
    | characters => characters
  if text.isEmpty then .error .empty
  else if digits.isEmpty ∨ !digits.all Char.isDigit then .error .digit
  else
    let number := digits.foldl (fun value digit => 10 * value + (digit.toNat - '0'.toNat)) 0
    if number < Width.bound64 then .ok number else .error .overflow

structure Progress where
  arguments : Arguments := {}
  /-- An option that was read but has not taken effect, with its value if that was read. -/
  pending : Option (OptionName × Option String) := none
  /-- Whether `--` was read, after which there are no options. -/
  isEscaped : Bool := false
  deriving DecidableEq, Repr

def Progress.apply (progress : Progress) (option : OptionName) (value : String) :
    Except Refusal Progress :=
  let arguments := progress.arguments
  match option with
  | .config =>
    if arguments.config.isSome then .error (.repeatedOption .config)
    else .ok { progress with arguments := { arguments with config := some value } }
  | .since =>
    if arguments.since.isSome then .error (.repeatedOption .since)
    else
      match readNumber value with
      | .error cause => .error (.badValue .since value cause)
      | .ok number => .ok { progress with arguments := { arguments with since := some number } }

def Progress.settle (progress : Progress) : Except Refusal Progress :=
  match progress.pending with
  | none => .ok progress
  | some (option, none) => .error (.missingValue option)
  | some (option, some value) => { progress with pending := none }.apply option value

def Progress.readOption (progress : Progress) (option : OptionName) (attached : Option String) :
    Except Refusal Progress := do
  let progress ← progress.settle
  match attached with
  | some value => progress.apply option value
  | none => return { progress with pending := some (option, none) }

def Progress.readFlag (progress : Progress) (flag : Refusal) : Except Refusal Progress := do
  let _ ← progress.settle
  throw flag

def Progress.readLong (progress : Progress) (text : List Char) : Except Refusal Progress :=
  let name := String.ofList (text.takeWhile (· ≠ '='))
  let attached := match text.dropWhile (· ≠ '=') with
    | [] => none
    | _ :: value => some (String.ofList value)
  match name, attached with
  | "config", _ => progress.readOption .config attached
  | "since", _ => progress.readOption .since attached
  | "help", none => progress.readFlag .help
  | "version", none => progress.readFlag .version
  | "help", some value => .error (.unneededValue "--help" value)
  | "version", some value => .error (.unneededValue "--version" value)
  | _, _ => .error (.unknownArgument ("--" ++ name))

def Progress.readShort (progress : Progress) (letter : Char) (rest : List Char) :
    Except Refusal Progress :=
  match letter with
  | 'h' => progress.readFlag .help
  | 'V' => progress.readFlag .version
  | 'c' =>
    progress.readOption .config <| match rest with
      | [] => none
      | '=' :: value => some (String.ofList value)
      | value => some (String.ofList value)
  | _ => .error (.unknownArgument (String.ofList ['-', letter]))

/-- Reads an argument that is no option: the value of the option before it. -/
def Progress.readValue (progress : Progress) (argument : String) : Except Refusal Progress :=
  match progress.pending with
  | some (option, none) => .ok { progress with pending := some (option, some argument) }
  | _ => .error (.unknownArgument argument)

def Progress.step (progress : Progress) (argument : String) : Except Refusal Progress :=
  if progress.isEscaped then
    .error (.unknownArgument argument)
  else
    match argument.toList with
    | ['-', '-'] => .ok { progress with isEscaped := true }
    | '-' :: '-' :: text => progress.readLong text
    | '-' :: letter :: rest => progress.readShort letter rest
    | _ => progress.readValue argument

def parse (arguments : List String) : Except Refusal Arguments := do
  let progress ← arguments.foldlM Progress.step {}
  return (← progress.settle).arguments

end PollHerald.CommandLine
