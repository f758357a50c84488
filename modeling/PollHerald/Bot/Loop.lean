import PollHerald.Bot.Channel
import PollHerald.Hub.Client

set_option autoImplicit false

/-! A poll loop. In every cycle it asks for the mentions after the cursor, moves the cursor forward
and hands the mentions over one by one. A signal to shut down is looked at only between two cycles,
and one that comes after that look does not keep back the poll that follows it. A dropped receiver
is noticed only when a mention is handed over. -/

namespace PollHerald.Bot

abbrev PollResult := Except Hub.Failure Hub.Batch

inductive Ending where
  /-- It heeded the signal. -/
  | shutDown
  /-- Its receiver was dropped. -/
  | abandoned
  /-- The poll broke off without a result. -/
  | broken
  deriving DecidableEq, Repr

inductive Phase where
  /-- Between two cycles. -/
  | resting
  /-- Took its tick, where there was no signal, and has yet to poll. -/
  | ticked
  /-- Waits for the mentions after a cursor. -/
  | polling (since : Nat)
  /-- Hands over a batch, of which these mentions are left. -/
  | sending (next : Mention) (rest : List Mention)
  | ended (ending : Ending)
  deriving DecidableEq, Repr

namespace Phase

def handingOver : List Mention → Phase
  | [] => .resting
  | next :: rest => .sending next rest

def unsent : Phase → List Mention
  | .sending next rest => next :: rest
  | _ => []

def hasEnded : Phase → Bool
  | .ended _ => true
  | _ => false

end Phase

structure Loop where
  channel : Channel
  phase : Phase := .resting
  /-- Whether the loop was told to shut down. -/
  isSignalled : Bool := false
  deriving DecidableEq, Repr

namespace Loop

inductive Move where
  /-- Ends the loop, as the signal says. -/
  | heed
  /-- Finds no signal, and takes the tick with which a cycle begins. -/
  | tick
  /-- Asks for the mentions after the cursor. -/
  | poll
  /-- Takes in what the poll brought. -/
  | take (result : PollResult)
  /-- Hands over the next mention, or notices that nobody is there to receive it. -/
  | send

/-- A loop with the cursor that it shares with its bot. -/
structure Advance where
  cursor : Nat
  loop : Loop

/-- The cursor after a poll. It never goes back. -/
def cursorAfter (cursor : Nat) : PollResult → Nat
  | .ok batch => max cursor batch.next
  | .error _ => cursor

/-- The phase after a poll. A failure only ends the cycle. -/
def phaseAfter : PollResult → Phase
  | .ok batch => .handingOver batch.mentions
  | .error (.hub _) => .resting
  | .error .clockOverflow => .ended .broken

def step (cursor : Nat) (loop : Loop) (move : Move) : Option Advance :=
  match move, loop.phase with
  | .heed, .resting =>
    if loop.isSignalled then some { cursor, loop := { loop with phase := .ended .shutDown } }
    else none
  | .tick, .resting =>
    if loop.isSignalled then none else some { cursor, loop := { loop with phase := .ticked } }
  | .poll, .ticked => some { cursor, loop := { loop with phase := .polling cursor } }
  | .take result, .polling _ =>
    some { cursor := cursorAfter cursor result, loop := { loop with phase := phaseAfter result } }
  | .send, .sending next rest =>
    if !loop.channel.isOpen then
      some { cursor, loop := { loop with phase := .ended .abandoned } }
    else if loop.channel.hasRoom then
      some { cursor, loop := { loop with
        channel := loop.channel.push next
        phase := .handingOver rest } }
    else
      none
  | _, _ => none

def entries (loop : Loop) (move : Move) : List Journal.Entry :=
  match move, loop.phase with
  | .heed, _ => [.loopSignalled]
  | .take (.ok batch), _ => [.delivering batch.mentions.length batch.next]
  | .take (.error (.hub error)), .polling since =>
    if error.isNoProgress then [.nothingNew since]
    else [.pollFailed (": ".intercalate error.messages)]
  | .send, _ => if loop.channel.isOpen then [] else [.loopAbandoned]
  | _, _ => []

end Loop

def nanosecondsPerMillisecond : Nat := 1000000

/-- A cycle that begins more than this number of milliseconds after it was due puts off the cycles
after it. -/
def tolerance : Nat := 5

/-- When the next cycle is due, where one begins now that was due at `due`. -/
def nextDue (clock cooldown due : Nat) : Nat :=
  if due + tolerance < clock then clock + cooldown else due + cooldown

end PollHerald.Bot
