import PollHerald.Bot.Machine
import PollHerald.Command
import PollHerald.Startup

set_option autoImplicit false

/-! The running program. One turn after another, the bot's loop makes a move or a mention that it
handed over is worked on, and where there is nothing to do the service rests until the next cycle
is due. Times of cycles are in milliseconds on a clock that only goes forward. -/

namespace PollHerald

structure Service where
  setup : Setup
  bot : Bot
  /-- When the next cycle is due. -/
  due : Nat

namespace Service

open Hub (Dialogue)

def cooldown (service : Service) : Nat :=
  max (service.setup.configuration.bot.cooldownSeconds * 1000) 1

def move (service : Service) (move : Bot.Move) : Dialogue Service :=
  match service.bot.step move with
  | none => return service
  | some bot => do
    let farewell := [.identityReleased service.setup.identity.fid]
    let cooldown := service.cooldown * Bot.nanosecondsPerMillisecond
    (service.bot.entries cooldown farewell move).forM Dialogue.tell
    return { service with bot }

def start (setup : Setup) (since clock : Nat) : Dialogue Service := do
  let settings := setup.configuration.bot
  let service : Service :=
    { setup, bot := .new settings.channelCapacity (some settings.fid), due := clock }
  let begun ← service.move (.begin (.start since))
  begun.move .finish

/-- A cycle of a loop up to the result of its poll. -/
def poll (service : Service) (index clock : Nat) : Dialogue Service := do
  let ticked ← service.move (.loop index .tick)
  let polling ← ticked.move (.loop index .poll)
  let result ← Hub.lastMentions (some service.setup.identity) service.bot.cursor
  let due := Bot.nextDue clock service.cooldown service.due
  { polling with due }.move (.loop index (.take result))

def work (service : Service) (index now : Nat) (mention : Mention) : Dialogue Service := do
  let received ← service.move (.receive index)
  let setup := service.setup
  Command.process setup.limits (some setup.identity) now setup.configuration.urlTemplate mention
  return received

inductive Turn where
  | act (dialogue : Dialogue Service)
  /-- Nothing, until some time. -/
  | rest (due : Nat)
  /-- Nothing any more: the loop ended by itself. -/
  | over

/-- What there is to do at a time. Mentions are handed over while there is room, and worked on
before the next cycle. -/
def turn (service : Service) (clock now : Nat) : Turn :=
  match service.bot.held, service.bot.heldLoop? with
  | some index, some loop =>
    if !loop.phase.unsent.isEmpty && loop.channel.hasRoom then
      .act (service.move (.loop index .send))
    else
      match service.bot.next? index with
      | some mention => .act (service.work index now mention)
      | none =>
        if loop.phase.hasEnded then .over
        else if service.due ≤ clock then .act (service.poll index clock)
        else .rest service.due
  | _, _ => .over

/-- Ends the service. The receiver is dropped first, so that a loop that still has mentions to hand
over does not wait for it. -/
def stop (service : Service) : Dialogue Service := do
  let index := service.bot.held.getD 0
  let dropped ← service.move (.drop index)
  let begun ← dropped.move (.begin .stop)
  let sent ← begun.move (.loop index .send)
  let heeded ← sent.move (.loop index .heed)
  heeded.move .finish

def interrupt (service : Service) : Dialogue Service := do
  Dialogue.tell .shuttingDown
  service.stop

def closeDown (service : Service) : Dialogue Service := do
  Dialogue.tell .channelClosed
  service.stop

end Service

end PollHerald
