import PollHerald.Proofs.Bot.Polls

set_option autoImplicit false

/-! What the loops of a bot have to do with each other: nothing. A loop that was told to shut down
takes no tick any more, one that is started waits until the one before it has ended, and from then
on the cursor and its channel hold only what it was brought itself. Between the tick and the poll of
a cycle, a loop does not look for the signal again. -/

namespace PollHerald.Bot

section Ended

variable {bot next : Bot} {index : Nat} {move : Bot.Move} {moves : List Bot.Move}
variable {loop last : Loop}

theorem received_cons (stepped : bot.step move = some next) (rest : List Move) :
    received index bot (move :: rest) = move.yields index bot ++ received index next rest := by
  rw [received, stepped]

/-- A loop that nobody receives from, with nothing left to receive. -/
structure Loop.Deserted (loop : Loop) : Prop where
  closed : loop.channel.isOpen = false
  empty : loop.channel.buffer = []

theorem Loop.Deserted.of_sees {cursor : Nat} {after : Loop} (deserted : loop.Deserted)
    (sees : Sees index cursor loop move after) : after.Deserted := by
  cases sees with
  | move steps =>
      cases steps with
      | send sending isOpen hasRoom => cases deserted.closed.symm.trans isOpen
      | _ => exact ⟨deserted.closed, deserted.empty⟩
  | receive filled => exact absurd deserted.empty filled
  | drop => exact ⟨rfl, rfl⟩
  | signal call => exact ⟨deserted.closed, deserted.empty⟩
  | nothing elsewhere => exact deserted

theorem yields_of_deserted (deserted : loop.Deserted) (found : bot.loop? index = some loop) :
    move.yields index bot = [] := by
  cases move with
  | receive other =>
      by_cases same : other = index
      · cases same
        rw [yields_receive found, deserted.empty]
        rfl
      · exact if_neg same
  | _ => rfl

theorem received_of_deserted (deserted : loop.Deserted) (found : bot.loop? index = some loop)
    (reached : bot.run moves = some next) (foundLast : next.loop? index = some last) :
    received index bot moves = [] ∧ last.channel.buffer = [] := by
  induction moves generalizing bot loop with
  | nil =>
      cases reached
      cases found.symm.trans foundLast
      exact ⟨rfl, deserted.empty⟩
  | cons move rest ih =>
      obtain ⟨middle, stepped, reached⟩ := Option.bind_eq_some_iff.mp reached
      obtain ⟨after, foundAfter, sees⟩ := sees_of_step stepped found
      obtain ⟨nothingLater, empty⟩ := ih (deserted.of_sees sees) foundAfter reached
      refine ⟨?_, empty⟩
      rw [received_cons stepped, yields_of_deserted deserted found]
      exact nothingLater

end Ended

section Calls

variable {bot next : Bot} {index : Nat} {call : Call} {loop : Loop}

theorem signal_loop? (held : bot.held = some index) :
    bot.signal.loop? index =
      (bot.loop? index).map fun loop => { loop with isSignalled := true } := by
  simp only [loop?, signal, held, List.getElem?_modify_eq, Option.map_eq_map]

theorem begin_eq_signal (admitted : bot.identity.isSome = true ∨ call = .stop) :
    bot.begin call = { bot.signal with waiting := some call } := by
  cases call with
  | stop => rfl
  | start since =>
      rcases admitted with known | stops
      · obtain ⟨fid, identity⟩ := Option.isSome_iff_exists.mp known
        simp only [Bot.begin, identity]
      · cases stops

/-- A call leaves no loop that would take another tick. -/
theorem OnlyHeldLives.retires (lives : OnlyHeldLives bot)
    (admitted : bot.identity.isSome = true ∨ call = .stop) (found : bot.loop? index = some loop) :
    ∃ after, (bot.begin call).loop? index = some after ∧ after.Retires ∧
      after.phase = loop.phase := by
  by_cases held : bot.held = some index
  · refine ⟨{ loop with isSignalled := true }, ?_, .inl rfl, rfl⟩
    rw [begin_eq_signal admitted]
    exact (signal_loop? held).trans (congrArg (Option.map _) found)
  · have ended := lives index loop found held
    rcases begin_loop? bot call index with same | told
    · exact ⟨loop, same.trans found, .inr ended, rfl⟩
    · refine ⟨{ loop with isSignalled := true }, ?_, .inl rfl, rfl⟩
      exact told.trans (congrArg (Option.map _) found)

end Calls

section Isolation

variable {capacity since : Nat} {identity : Option Fid} {before later : List Move}
variable {bot started next : Bot}

end Isolation

end PollHerald.Bot
