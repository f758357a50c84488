import PollHerald.Bot.Loop

set_option autoImplicit false

/-! The bot: its poll loops, the cursor that they share, and the calls that start and stop them. A
call tells the loop that is held to shut down, waits for its end, and only then takes effect. The
moves of the loops, of their receivers and of the calls may come in any order in which each of them
is possible. -/

namespace PollHerald

namespace Bot

inductive Call where
  /-- Polls from a Unix time on, through a new channel. -/
  | start (since : Nat)
  /-- Ends polling, and lets the identity go. -/
  | stop
  deriving DecidableEq, Repr

/-- What can happen to a bot. Loops and their receivers are numbered from zero as they come. -/
inductive Move where
  | loop (index : Nat) (move : Loop.Move)
  /-- Receives the oldest mention in the channel of a loop. -/
  | receive (index : Nat)
  /-- Drops the receiver of a loop. -/
  | drop (index : Nat)
  /-- Installs an identity, or none. -/
  | identify (fid : Option Fid)
  | begin (call : Call)
  /-- Lets the call that waits take effect. -/
  | finish

end Bot

structure Bot where
  capacity : Nat
  /-- The account for which the mentions are read. -/
  identity : Option Fid := none
  /-- The Unix time up to which mentions were read. -/
  cursor : Nat := 0
  /-- All loops, in the order in which they were started. -/
  loops : List Bot.Loop := []
  /-- The loop that was started last, until a call has seen its end. -/
  held : Option Nat := none
  /-- A call that waits for the end of the held loop. -/
  waiting : Option Bot.Call := none
  deriving DecidableEq, Repr

namespace Bot

/-- A bot with a channel for at least one mention. -/
def new (capacity : Nat) (identity : Option Fid) : Bot :=
  { capacity := max capacity 1, identity }

def loop? (bot : Bot) (index : Nat) : Option Loop :=
  bot.loops[index]?

def setLoop (bot : Bot) (index : Nat) (loop : Loop) : Bot :=
  { bot with loops := bot.loops.set index loop }

def heldLoop? (bot : Bot) : Option Loop :=
  bot.held.bind bot.loop?

def signal (bot : Bot) : Bot :=
  match bot.held with
  | none => bot
  | some index => { bot with loops := bot.loops.modify index fun loop =>
      { loop with isSignalled := true } }

def isFree (bot : Bot) : Bool :=
  bot.heldLoop?.all fun loop => loop.phase.hasEnded

/-- Begins a call. Without an identity, nothing is started and nothing is shut down. -/
def begin (bot : Bot) (call : Call) : Bot :=
  match call, bot.identity with
  | .start _, none => bot
  | _, _ => { bot.signal with waiting := some call }

def finish (bot : Bot) : Call → Bot
  | .start since =>
    { bot with
      cursor := since
      loops := bot.loops ++ [{ channel := { capacity := bot.capacity } }]
      held := some bot.loops.length
      waiting := none }
  | .stop => { bot with identity := none, held := none, waiting := none }

def next? (bot : Bot) (index : Nat) : Option Mention :=
  (bot.loop? index).bind fun loop => loop.channel.buffer.head?

def step (bot : Bot) : Move → Option Bot
  | .loop index move => do
    let loop ← bot.loop? index
    let advance ← loop.step bot.cursor move
    return { bot.setLoop index advance.loop with cursor := advance.cursor }
  | .receive index => do
    let loop ← bot.loop? index
    if loop.channel.buffer.isEmpty then none
    else return bot.setLoop index { loop with channel := loop.channel.pop }
  | .drop index => do
    let loop ← bot.loop? index
    return bot.setLoop index { loop with channel := loop.channel.close }
  | .identify fid => some { bot with identity := fid }
  | .begin call => if bot.waiting.isSome then none else some (bot.begin call)
  | .finish => do
    let call ← bot.waiting
    if bot.isFree then return bot.finish call else none

def run (bot : Bot) (moves : List Move) : Option Bot :=
  moves.foldlM step bot

def endEntries (bot : Bot) : List Journal.Entry :=
  match bot.heldLoop?.map Loop.phase with
  | some (.ended .broken) => [.loopBroken "the newest mention is later than the clock can hold"]
  | _ => []

/-- What a move leaves in the journal. The cooldown is in nanoseconds, and `farewell` is what the
release of the identity leaves there. -/
def entries (cooldown : Nat) (farewell : List Journal.Entry) (bot : Bot) :
    Move → List Journal.Entry
  | .loop index move => ((bot.loop? index).map fun loop => loop.entries move).getD []
  | .finish =>
    match bot.waiting with
    | some (.start since) => bot.endEntries ++ [.loopStarted since cooldown]
    | some .stop => bot.endEntries ++ farewell ++ [.botStopped bot.cursor]
    | none => []
  | _ => []

end Bot

end PollHerald
