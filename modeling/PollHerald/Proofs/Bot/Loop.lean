import PollHerald.Bot.Loop

set_option autoImplicit false

/-! All that one move of a poll loop can do, each kind of move with its guard and with what it
leaves behind. -/

namespace PollHerald.Bot

/-- The mentions that a poll brings. A failure brings none. -/
def PollResult.mentions : PollResult → List Mention
  | .ok batch => batch.mentions
  | .error _ => []

theorem PollResult.exists_batch {result : PollResult} {mention : Mention}
    (brought : mention ∈ mentions result) :
    ∃ batch, result = .ok batch ∧ mention ∈ batch.mentions := by
  cases result with
  | ok batch => exact ⟨batch, rfl, brought⟩
  | error failure => cases brought

@[simp] theorem Phase.unsent_handingOver (mentions : List Mention) :
    (handingOver mentions).unsent = mentions := by
  cases mentions <;> rfl

theorem Phase.handingOver_ne_ended (mentions : List Mention) (ending : Ending) :
    handingOver mentions ≠ .ended ending := by
  cases mentions <;> exact Phase.noConfusion

namespace Loop

@[simp] theorem unsent_phaseAfter (result : PollResult) :
    (phaseAfter result).unsent = PollResult.mentions result := by
  cases result with
  | ok batch => exact Phase.unsent_handingOver batch.mentions
  | error failure => cases failure <;> rfl

theorem phaseAfter_eq_broken_iff (result : PollResult) :
    phaseAfter result = .ended .broken ↔ result = .error .clockOverflow := by
  cases result with
  | ok batch =>
      have goesOn : phaseAfter (.ok batch) ≠ .ended .broken :=
        Phase.handingOver_ne_ended batch.mentions .broken
      simp only [goesOn, reduceCtorEq]
  | error failure =>
      cases failure with
      | hub error => simp only [phaseAfter, reduceCtorEq, Except.error.injEq]
      | clockOverflow => simp only [phaseAfter]

/-- After a poll a loop rests, has mentions to hand over, or is broken. -/
theorem phaseAfter_cases (result : PollResult) :
    phaseAfter result = .resting ∨ (∃ next rest, phaseAfter result = .sending next rest) ∨
      phaseAfter result = .ended .broken := by
  cases result with
  | ok batch =>
      simp only [phaseAfter]
      cases batch.mentions with
      | nil => exact .inl rfl
      | cons next rest => exact .inr (.inl ⟨next, rest, rfl⟩)
  | error failure =>
      cases failure with
      | hub error => exact .inl rfl
      | clockOverflow => exact .inr (.inr rfl)

theorem phaseAfter_ne_polling (result : PollResult) (since : Nat) :
    phaseAfter result ≠ .polling since := by
  rcases phaseAfter_cases result with rests | ⟨next, rest, sends⟩ | broke
  · exact rests ▸ nofun
  · exact sends ▸ nofun
  · exact broke ▸ nofun

theorem phaseAfter_ne_ticked (result : PollResult) : phaseAfter result ≠ .ticked := by
  rcases phaseAfter_cases result with rests | ⟨next, rest, sends⟩ | broke
  · exact rests ▸ nofun
  · exact sends ▸ nofun
  · exact broke ▸ nofun

theorem le_cursorAfter (cursor : Nat) (result : PollResult) :
    cursor ≤ cursorAfter cursor result := by
  cases result with
  | ok batch => exact Nat.le_max_left _ _
  | error failure => exact Nat.le_refl _

/-- The moves that a loop can make, each with what it leaves behind. -/
inductive Steps (cursor : Nat) (loop : Loop) : Move → Advance → Prop where
  | heed (resting : loop.phase = .resting) (told : loop.isSignalled = true) :
      Steps cursor loop .heed { cursor, loop := { loop with phase := .ended .shutDown } }
  | tick (resting : loop.phase = .resting) (untold : loop.isSignalled = false) :
      Steps cursor loop .tick { cursor, loop := { loop with phase := .ticked } }
  | poll (ticked : loop.phase = .ticked) :
      Steps cursor loop .poll { cursor, loop := { loop with phase := .polling cursor } }
  | take {since : Nat} {result : PollResult} (polling : loop.phase = .polling since) :
      Steps cursor loop (.take result)
        { cursor := cursorAfter cursor result, loop := { loop with phase := phaseAfter result } }
  | abandon {next : Mention} {rest : List Mention} (sending : loop.phase = .sending next rest)
      (closed : loop.channel.isOpen = false) :
      Steps cursor loop .send { cursor, loop := { loop with phase := .ended .abandoned } }
  | send {next : Mention} {rest : List Mention} (sending : loop.phase = .sending next rest)
      (isOpen : loop.channel.isOpen = true) (hasRoom : loop.channel.hasRoom = true) :
      Steps cursor loop .send { cursor, loop := { loop with
        channel := loop.channel.push next
        phase := .handingOver rest } }

/-- A loop that has ended does not move any more. -/
theorem Steps.going {cursor : Nat} {loop : Loop} {move : Move} {advance : Advance}
    (steps : Steps cursor loop move advance) : loop.phase.hasEnded = false := by
  cases steps with
  | heed resting told => rw [resting]; rfl
  | tick resting untold => rw [resting]; rfl
  | poll ticked => rw [ticked]; rfl
  | take polling => rw [polling]; rfl
  | abandon sending closed => rw [sending]; rfl
  | send sending isOpen hasRoom => rw [sending]; rfl

theorem step_eq_some_iff (cursor : Nat) (loop : Loop) (move : Move) (advance : Advance) :
    loop.step cursor move = some advance ↔ Steps cursor loop move advance := by
  constructor
  · intro moved
    unfold step at moved
    split at moved
    · rename_i resting
      split at moved
      · rename_i told
        cases moved
        exact .heed resting told
      · cases moved
    · rename_i resting
      split at moved
      · cases moved
      · rename_i untold
        cases moved
        exact .tick resting (Bool.eq_false_iff.mpr untold)
    · rename_i ticked
      cases moved
      exact .poll ticked
    · rename_i polling
      cases moved
      exact .take polling
    · rename_i sending
      split at moved
      · rename_i closed
        cases moved
        exact .abandon sending (Bool.not_eq_true' _ |>.mp closed)
      · rename_i isOpen
        split at moved
        · rename_i hasRoom
          cases moved
          exact .send sending (by simpa only [Bool.not_eq_true', Bool.not_eq_false] using isOpen)
            hasRoom
        · cases moved
    · cases moved
  · intro moved
    cases moved with
    | heed resting told => simp only [step, resting, told, if_true]
    | tick resting untold => simp only [step, resting, untold, Bool.false_eq_true, if_false]
    | poll ticked => simp only [step, ticked]
    | take polling => simp only [step, polling]
    | abandon sending closed => simp only [step, sending, closed, Bool.not_false, if_true]
    | send sending isOpen hasRoom =>
        simp only [step, sending, isOpen, hasRoom, Bool.not_true, Bool.false_eq_true, if_false,
          if_true]

end Loop

end PollHerald.Bot
