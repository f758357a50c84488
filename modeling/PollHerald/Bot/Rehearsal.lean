import PollHerald.Bot.Machine

set_option autoImplicit false

/-! A rehearsal: a bot on a clock that only waiting moves, with a provider that brings prepared
results. The loop gets its turn when the one who gives the cues waits, and keeps it until it is
blocked. All times are in milliseconds. -/

namespace PollHerald.Bot

structure Rehearsal where
  bot : Bot
  /-- The time from one cycle to the next. -/
  cooldown : Nat
  clock : Nat := 0
  /-- The results that the provider brings, the next one first. Then there is nothing new. -/
  results : List PollResult := []
  /-- How long a poll takes. -/
  delay : Nat := 0
  /-- When the next cycle of the held loop is due. Before its first turn that is not known. -/
  due : Option Nat := none
  /-- When the poll under way ends. -/
  answerAt : Nat := 0
  /-- Whether the provider was ever stopped. -/
  wasStopped : Bool := false
  /-- The cursors that the provider was asked for since the cue, the latest first. -/
  polled : List Nat := []
  /-- The journal since the cue, the latest entry first. -/
  journal : List Journal.Entry := []

namespace Rehearsal

/-- A rehearsal before the first cue. There is at least a millisecond between two cycles. -/
def new (capacity : Nat) (identity : Option Fid) (cooldown : Nat) : Rehearsal :=
  { bot := .new capacity identity, cooldown := max cooldown 1 }

def move (rehearsal : Rehearsal) (move : Move) : Rehearsal :=
  match rehearsal.bot.step move with
  | none => rehearsal
  | some bot =>
    let entries := rehearsal.bot.entries (rehearsal.cooldown * nanosecondsPerMillisecond) [] move
    { rehearsal with bot, journal := entries.reverse ++ rehearsal.journal }

def result (rehearsal : Rehearsal) : PollResult :=
  rehearsal.results.headD (.error (.hub .noNewCasts))

def loopMove? (rehearsal : Rehearsal) (loop : Loop) : Option Loop.Move :=
  match loop.phase with
  | .resting =>
    if loop.isSignalled then some .heed
    else if rehearsal.due.getD rehearsal.clock ≤ rehearsal.clock then some .tick
    else none
  | .ticked => some .poll
  | .polling _ =>
    if rehearsal.answerAt ≤ rehearsal.clock then some (.take rehearsal.result) else none
  | .sending .. => if loop.channel.isOpen && !loop.channel.hasRoom then none else some .send
  | .ended _ => none

/-- What a move of the loop means for the clock and the provider. -/
def register (rehearsal : Rehearsal) : Loop.Move → Rehearsal
  | .tick => { rehearsal with
      due := some (nextDue rehearsal.clock rehearsal.cooldown
        (rehearsal.due.getD rehearsal.clock)) }
  | .poll => { rehearsal with
      answerAt := rehearsal.clock + rehearsal.delay
      polled := rehearsal.bot.cursor :: rehearsal.polled }
  | .take _ => { rehearsal with results := rehearsal.results.tail }
  | _ => rehearsal

def advance? (rehearsal : Rehearsal) : Option Rehearsal := do
  let index ← rehearsal.bot.held
  let loop ← rehearsal.bot.loop? index
  let loopMove ← rehearsal.loopMove? loop
  return (rehearsal.register loopMove).move (.loop index loopMove)

def advance (rehearsal : Rehearsal) : Nat → Rehearsal
  | 0 => rehearsal
  | bound + 1 =>
    match rehearsal.advance? with
    | none => rehearsal
    | some next => next.advance bound

def resultSize : PollResult → Nat
  | .ok batch => batch.mentions.length
  | .error _ => 0

/-- A turn has at most this number of moves. Each cycle in it begins at least a millisecond after
the one before it was due, and besides its mentions takes three moves. -/
def turnBound (rehearsal : Rehearsal) : Nat :=
  let late := rehearsal.clock - rehearsal.due.getD rehearsal.clock
  let unsent := (rehearsal.bot.heldLoop?.map fun loop => loop.phase.unsent.length).getD 0
  let prepared := (rehearsal.results.map resultSize).foldl (· + ·) 0
  3 * (late + 1) + unsent + prepared + 3

def turn (rehearsal : Rehearsal) : Rehearsal :=
  rehearsal.advance rehearsal.turnBound

/-- When a loop that is blocked goes on by itself. -/
def wakeTime? (rehearsal : Rehearsal) : Option Nat := do
  match (← rehearsal.bot.heldLoop?).phase with
  | .resting => rehearsal.due
  | .polling _ => some rehearsal.answerAt
  | _ => none

def await (isReady : Bot → Bool) (deadline : Nat) (rehearsal : Rehearsal) : Rehearsal :=
  if rehearsal.clock < deadline then
    let settled := rehearsal.turn
    if isReady settled.bot then
      settled
    else
      let wake := (settled.wakeTime?).getD deadline
      if rehearsal.clock < wake ∧ wake < deadline then
        await isReady deadline { settled with clock := wake }
      else
        { settled with clock := deadline }
  else
    rehearsal
termination_by deadline - rehearsal.clock
decreasing_by
  simp only [wake, settled] at *
  omega

def sleep (duration : Nat) (rehearsal : Rehearsal) : Rehearsal :=
  rehearsal.await (fun _ => false) (rehearsal.clock + duration)

end Rehearsal

/-- What is to be done in a rehearsal. A limit is the time that the bot may take for it. -/
inductive Cue where
  /-- Prepares a result. -/
  | prepare (result : PollResult)
  /-- Sets how long polls take. -/
  | delay (duration : Nat)
  | identify (fid : Option Fid)
  | start (since limit : Nat)
  /-- Receives from the loop with a number, or from the last one. -/
  | receive (index : Option Nat) (limit : Nat)
  | drop (index : Option Nat)
  | sleep (duration : Nat)
  | stop (limit : Nat)

inductive Outcome where
  | done
  | started (index : Nat)
  | refused (error : Hub.Error)
  /-- No channel can hold as much as the bot wants. -/
  | tooLarge
  | received (mention : Mention)
  /-- The loop ended, and its mentions were all received. -/
  | closed
  | timedOut
  | noReceiver
  | stopped
  deriving DecidableEq, Repr

namespace Rehearsal

def canReceive (index : Nat) (bot : Bot) : Bool :=
  (bot.loop? index).any fun loop => !loop.channel.buffer.isEmpty || loop.phase.hasEnded

def call (request : Call) (limit : Nat) (effect : Rehearsal → Rehearsal × Outcome)
    (rehearsal : Rehearsal) : Rehearsal × Outcome :=
  let begun := rehearsal.move (.begin request)
  let waited := if begun.bot.isFree then begun
    else begun.await isFree (begun.clock + limit)
  if waited.bot.isFree then effect (waited.move .finish) else (waited, .timedOut)

def receive (index limit : Nat) (rehearsal : Rehearsal) : Rehearsal × Outcome :=
  match rehearsal.bot.loop? index with
  | none => (rehearsal, .noReceiver)
  | some loop =>
    if !loop.channel.isOpen then
      (rehearsal, .noReceiver)
    else
      let waited := if canReceive index rehearsal.bot then rehearsal
        else rehearsal.await (canReceive index) (rehearsal.clock + limit)
      match waited.bot.next? index with
      | some mention => (waited.move (.receive index), .received mention)
      | none => (waited, if canReceive index waited.bot then .closed else .timedOut)

def latest (rehearsal : Rehearsal) : Nat :=
  rehearsal.bot.loops.length - 1

def perform (rehearsal : Rehearsal) : Cue → Rehearsal × Outcome
  | .prepare result => ({ rehearsal with results := rehearsal.results ++ [result] }, .done)
  | .delay duration => ({ rehearsal with delay := duration }, .done)
  | .identify fid => (rehearsal.move (.identify fid), .done)
  | .start since limit =>
    if rehearsal.bot.identity.isNone then
      (rehearsal, .refused .noIdentity)
    else if Channel.greatestCapacity < rehearsal.bot.capacity then
      (rehearsal, .tooLarge)
    else
      rehearsal.call (.start since) limit fun begun =>
        ({ begun with due := none }, .started begun.latest)
  | .receive index limit => rehearsal.receive (index.getD rehearsal.latest) limit
  | .drop index => (rehearsal.move (.drop (index.getD rehearsal.latest)), .done)
  | .sleep duration => (rehearsal.sleep duration, .done)
  | .stop limit =>
    rehearsal.call .stop limit fun ended => ({ ended with wasStopped := true }, .stopped)

structure Report where
  outcome : Outcome
  clock : Nat
  cursor : Nat
  polled : List Nat
  wasStopped : Bool
  entries : List Journal.Entry

def report (rehearsal : Rehearsal) (outcome : Outcome) : Report :=
  { outcome
    clock := rehearsal.clock
    cursor := rehearsal.bot.cursor
    polled := rehearsal.polled.reverse
    wasStopped := rehearsal.wasStopped
    entries := rehearsal.journal.reverse }

/-- Whether a cue left a call that still waits. Nothing can be done after that. -/
def isStuck (rehearsal : Rehearsal) : Bool :=
  rehearsal.bot.waiting.isSome

def play (rehearsal : Rehearsal) : List Cue → List Report
  | [] => []
  | cue :: cues =>
    let (after, outcome) := perform { rehearsal with polled := [], journal := [] } cue
    let report := after.report outcome
    if after.isStuck then [report] else report :: after.play cues

end Rehearsal

end PollHerald.Bot
