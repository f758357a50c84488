import PollHerald.Proofs.Bot.Lifetime
import PollHerald.Proofs.Bot.Stream

set_option autoImplicit false

/-! The polls of a loop in its bot: for which cursors it asks, and what that brings. From the call
that starts a loop on, its polls follow on one another, and each asks for the greatest of the cursor
at the start and of all cursors that came before it. -/

namespace PollHerald.Bot

/-- The cursor that a poll brings. A failure brings none. -/
def PollResult.next? : PollResult → Option Nat
  | .ok batch => some batch.next
  | .error _ => none

/-- The greatest of a cursor and of all that polls brought. -/
def furthest (since : Nat) (results : List PollResult) : Nat :=
  (results.filterMap PollResult.next?).foldl max since

/-- The cursor that a loop asks for in a move. -/
def Move.polls (index : Nat) (bot : Bot) : Move → List Nat
  | .loop other .poll => if other = index then [bot.cursor] else []
  | _ => []

/-- What a loop takes in with a move. -/
def Move.results (index : Nat) : Move → List PollResult
  | .loop other (.take result) => if other = index then [result] else []
  | _ => []

/-- The cursors that a loop asks for while the moves are made. -/
def polled (index : Nat) (bot : Bot) : List Move → List Nat
  | [] => []
  | move :: rest =>
    move.polls index bot ++
      match bot.step move with
      | none => []
      | some next => polled index next rest

/-- What a loop takes in while the moves are made. -/
def taken (index : Nat) (moves : List Move) : List PollResult :=
  moves.flatMap (Move.results index)

/-- The cursor of the poll under way, if there is one. -/
def Loop.underWay (loop : Loop) : List Nat :=
  match loop.phase with
  | .polling since => [since]
  | _ => []

/-- The ticks that a loop took and has yet to poll for. There is never more than one. -/
def Loop.unpolled (loop : Loop) : Nat :=
  match loop.phase with
  | .ticked => 1
  | _ => 0

/-- Cursors that were asked for and what that brought, one after another from a cursor on. What the
last poll brings may still be open. -/
inductive Cycles : Nat → List Nat → List PollResult → Prop where
  | done (cursor : Nat) : Cycles cursor [] []
  | underWay (cursor : Nat) : Cycles cursor [cursor] []
  | cycle {cursor : Nat} {result : PollResult} {asked : List Nat} {results : List PollResult}
      (later : Cycles (Loop.cursorAfter cursor result) asked results) :
      Cycles cursor (cursor :: asked) (result :: results)

theorem furthest_cons (since : Nat) (result : PollResult) (results : List PollResult) :
    furthest since (result :: results) = furthest (Loop.cursorAfter since result) results := by
  cases result with
  | ok batch => rfl
  | error failure => rfl

namespace Cycles

variable {cursor : Nat} {asked : List Nat} {results : List PollResult}

theorem asked_eq (cycles : Cycles cursor asked results) {number value : Nat}
    (found : asked[number]? = some value) : value = furthest cursor (results.take number) := by
  induction cycles generalizing number with
  | done cursor => cases found
  | underWay cursor =>
      cases number with
      | zero => exact (Option.some.inj found).symm
      | succ number => cases found
  | @cycle cursor result asked results later ih =>
      cases number with
      | zero => exact (Option.some.inj found).symm
      | succ number =>
          rw [List.getElem?_cons_succ] at found
          rw [List.take_succ_cons, furthest_cons]
          exact ih found

theorem le_of_mem (cycles : Cycles cursor asked results) {value : Nat} (member : value ∈ asked) :
    cursor ≤ value := by
  induction cycles with
  | done cursor => cases member
  | underWay cursor => exact Nat.le_of_eq (List.mem_singleton.mp member).symm
  | @cycle cursor result asked results later ih =>
      rcases List.mem_cons.mp member with same | earlier
      · exact Nat.le_of_eq same.symm
      · exact Nat.le_trans (Loop.le_cursorAfter cursor result) (ih earlier)

theorem ascending (cycles : Cycles cursor asked results) : asked.Pairwise (· ≤ ·) := by
  induction cycles with
  | done cursor => exact .nil
  | underWay cursor => exact List.pairwise_singleton _ _
  | @cycle cursor result asked results later ih =>
      refine .cons ?_ ih
      intro value member
      exact Nat.le_trans (Loop.le_cursorAfter cursor result) (later.le_of_mem member)

theorem length_le (cycles : Cycles cursor asked results) :
    results.length ≤ asked.length ∧ asked.length ≤ results.length + 1 := by
  induction cycles with
  | done cursor => exact ⟨Nat.le_refl 0, Nat.zero_le 1⟩
  | underWay cursor => exact ⟨Nat.zero_le 1, Nat.le_refl 1⟩
  | cycle later ih =>
      rw [List.length_cons, List.length_cons]
      omega

end Cycles

section Moves

variable {bot next : Bot} {index : Nat} {move : Bot.Move} {moves : List Bot.Move}
variable {loop after : Loop}

theorem Loop.underWay_phaseAfter (loop : Loop) (result : PollResult) :
    ({ loop with phase := phaseAfter result } : Loop).underWay = [] := by
  unfold underWay
  split
  · rename_i since stillPolling
    exact absurd stillPolling (phaseAfter_ne_polling result since)
  · rfl

theorem Loop.unpolled_phaseAfter (loop : Loop) (result : PollResult) :
    ({ loop with phase := phaseAfter result } : Loop).unpolled = 0 := by
  unfold unpolled
  split
  · rename_i stillTicked
    exact absurd stillTicked (phaseAfter_ne_ticked result)
  · rfl

theorem polls_of_elsewhere (elsewhere : move.index? ≠ some index) : move.polls index bot = [] := by
  cases move with
  | loop other loopMove =>
      cases loopMove with
      | poll => exact if_neg fun same => elsewhere (congrArg some same)
      | _ => rfl
  | _ => rfl

theorem results_of_elsewhere (elsewhere : move.index? ≠ some index) : move.results index = [] := by
  cases move with
  | loop other loopMove =>
      cases loopMove with
      | take result => exact if_neg fun same => elsewhere (congrArg some same)
      | _ => rfl
  | _ => rfl

theorem polled_cons (stepped : bot.step move = some next) (rest : List Move) :
    polled index bot (move :: rest) = move.polls index bot ++ polled index next rest := by
  rw [polled, stepped]

/-- A loop that takes no tick any more: it was told to shut down, or it has ended. -/
def Loop.Retires (loop : Loop) : Prop :=
  loop.isSignalled = true ∨ loop.phase.hasEnded = true

/-- A loop that retires takes no tick. It may still poll for the tick that it took before, and takes
in at most what that poll or the one under way brings. -/
theorem Loop.Retires.of_sees (retires : loop.Retires)
    (sees : Sees index bot.cursor loop move after) :
    after.Retires ∧ move ≠ .loop index .tick ∧
      (move.polls index bot).length + after.unpolled ≤ loop.unpolled ∧
      (move.results index).length + (after.underWay.length + after.unpolled) ≤
        loop.underWay.length + loop.unpolled := by
  have kept (number : Nat) : 0 + number ≤ number := Nat.le_of_eq (Nat.zero_add number)
  cases sees with
  | move steps =>
      have told : loop.isSignalled = true := by
        rcases retires with told | ended
        · exact told
        · cases steps.going.symm.trans ended
      cases steps with
      | heed resting signalled =>
          refine ⟨.inr rfl, nofun, ?_, ?_⟩
          · exact Nat.zero_le _
          · exact Nat.zero_le _
      | tick resting untold => cases told.symm.trans untold
      | poll ticked =>
          refine ⟨.inl told, nofun, ?_, ?_⟩
          · simp only [Bot.Move.polls, if_true, unpolled, ticked, List.length_singleton]
            exact Nat.le_refl 1
          · simp only [Bot.Move.results, underWay, unpolled, ticked, List.length_singleton,
              List.length_nil]
            exact Nat.le_refl 1
      | @take since result polling =>
          refine ⟨.inl told, nofun, ?_, ?_⟩
          · rw [unpolled_phaseAfter]
            exact Nat.zero_le _
          · rw [underWay_phaseAfter, unpolled_phaseAfter, underWay, polling]
            simp only [Bot.Move.results, if_true, List.length_singleton, List.length_nil]
            exact Nat.le_add_right 1 _
      | abandon sending closed =>
          refine ⟨.inr rfl, nofun, ?_, ?_⟩
          · exact Nat.zero_le _
          · exact Nat.zero_le _
      | @send first rest sending isOpen hasRoom =>
          refine ⟨.inl told, nofun, ?_, ?_⟩
          · cases rest <;> exact Nat.zero_le _
          · cases rest <;> exact Nat.zero_le _
  | receive filled => exact ⟨retires, nofun, kept _, kept _⟩
  | drop => exact ⟨retires, nofun, kept _, kept _⟩
  | signal call => exact ⟨.inl rfl, nofun, kept _, kept _⟩
  | nothing elsewhere =>
      rw [polls_of_elsewhere elsewhere, results_of_elsewhere elsewhere]
      refine ⟨retires, ?_, kept _, kept _⟩
      intro same
      exact elsewhere (same ▸ rfl)

theorem Loop.Retires.run (retires : loop.Retires) (found : bot.loop? index = some loop)
    (reached : bot.run moves = some next) :
    .loop index .tick ∉ moves ∧ (polled index bot moves).length ≤ loop.unpolled ∧
      (taken index moves).length ≤ loop.underWay.length + loop.unpolled := by
  induction moves generalizing bot loop with
  | nil => exact ⟨List.not_mem_nil, Nat.zero_le _, Nat.zero_le _⟩
  | cons move rest ih =>
      obtain ⟨middle, stepped, reached⟩ := Option.bind_eq_some_iff.mp reached
      obtain ⟨after, foundAfter, sees⟩ := sees_of_step stepped found
      obtain ⟨stillRetires, noTick, polls, takes⟩ := retires.of_sees sees
      obtain ⟨noneLater, pollsLater, takesLater⟩ := ih stillRetires foundAfter reached
      refine ⟨?_, ?_, ?_⟩
      · intro member
        rcases List.mem_cons.mp member with same | later
        · exact noTick same.symm
        · exact noneLater later
      · rw [polled_cons stepped, List.length_append]
        omega
      · rw [taken, List.flatMap_cons, List.length_append, ← taken]
        omega

theorem quiet_of_ended (ended : loop.phase.hasEnded = true) (found : bot.loop? index = some loop)
    (reached : bot.run moves = some next) :
    polled index bot moves = [] ∧ taken index moves = [] := by
  have retires : loop.Retires := .inr ended
  obtain ⟨_, polls, takes⟩ := retires.run found reached
  obtain ⟨ending, phase⟩ : ∃ ending, loop.phase = .ended ending := by
    cases phase : loop.phase with
    | ended ending => exact ⟨ending, rfl⟩
    | _ =>
        rw [phase] at ended
        cases ended
  simp only [Loop.underWay, Loop.unpolled, phase, List.length_nil, Nat.add_zero, Nat.le_zero_eq,
    List.length_eq_zero_iff] at polls takes
  exact ⟨polls, takes⟩

end Moves

/-- No loop of a bot but the one with a number goes on, and that polls for the cursor only. -/
structure Leads (bot : Bot) (index : Nat) : Prop where
  lives : OnlyHeldLives bot
  held : ∀ other, bot.held = some other → other = index
  polling : ∀ loop since, bot.loop? index = some loop → loop.phase = .polling since →
    since = bot.cursor

namespace Leads

variable {bot next : Bot} {index : Nat} {move : Move} {moves : List Move} {loop : Loop}

theorem ended (leads : bot.Leads index) {other : Nat} (differs : other ≠ index)
    (found : bot.loop? other = some loop) : loop.phase.hasEnded = true :=
  leads.lives other loop found fun held => differs (leads.held other held)

/-- Only what the loop takes in moves the cursor, as long as no other loop is started. -/
theorem cursor_of_step (leads : bot.Leads index) (stepped : bot.step move = some next)
    (noneNew : next.loops.length = bot.loops.length) :
    next.cursor = furthest bot.cursor (move.results index) := by
  cases steps_of_step stepped with
  | @loop other moved loopMove advance found steps =>
      by_cases same : other = index
      · cases same
        cases steps with
        | @take since result polling =>
            simp only [Move.results, if_true, furthest_cons]
            rfl
        | _ => rfl
      · cases steps.going.symm.trans (leads.ended same found)
  | @finish call waiting free =>
      cases call with
      | stop => rfl
      | start since =>
          simp only [Bot.finish, List.length_append, List.length_singleton] at noneNew
          omega
  | begin call idle =>
      obtain ⟨loops, waiting, _, begun⟩ := begin_eq bot call
      rw [begun]
      rfl
  | _ => rfl

theorem held_of_step (leads : bot.Leads index) (stepped : bot.step move = some next)
    (noneNew : next.loops.length = bot.loops.length) {other : Nat}
    (held : next.held = some other) : other = index := by
  cases steps_of_step stepped with
  | begin call idle =>
      obtain ⟨loops, waiting, _, begun⟩ := begin_eq bot call
      rw [begun] at held
      exact leads.held other held
  | @finish call waiting free =>
      cases call with
      | stop => cases held
      | start since =>
          simp only [Bot.finish, List.length_append, List.length_singleton] at noneNew
          omega
  | _ => exact leads.held other held

theorem polling_of_sees {after : Loop} (leads : bot.Leads index)
    (found : bot.loop? index = some loop) (sees : Sees index bot.cursor loop move after)
    (cursor : next.cursor = furthest bot.cursor (move.results index)) {since : Nat}
    (polling : after.phase = .polling since) : since = next.cursor := by
  cases sees with
  | move steps =>
      cases steps with
      | heed resting told => cases polling
      | tick resting untold => cases polling
      | poll ticked =>
          cases polling
          exact cursor.symm
      | @take asked result before => exact absurd polling (Loop.phaseAfter_ne_polling result since)
      | abandon sending closed => cases polling
      | @send first rest sending isOpen hasRoom => cases rest <;> cases polling
  | receive filled => exact (leads.polling loop since found polling).trans cursor.symm
  | drop => exact (leads.polling loop since found polling).trans cursor.symm
  | signal call => exact (leads.polling loop since found polling).trans cursor.symm
  | nothing elsewhere =>
      rw [results_of_elsewhere elsewhere] at cursor
      exact (leads.polling loop since found polling).trans cursor.symm

theorem step (leads : bot.Leads index) (found : bot.loop? index = some loop)
    (stepped : bot.step move = some next) (noneNew : next.loops.length = bot.loops.length) :
    next.Leads index where
  lives := leads.lives.step stepped
  held := fun _ held => leads.held_of_step stepped noneNew held
  polling := by
    intro after since foundAfter polling
    obtain ⟨_, same, sees⟩ := sees_of_step stepped found
    cases same.symm.trans foundAfter
    exact leads.polling_of_sees found sees (leads.cursor_of_step stepped noneNew) polling

/-- Where another loop is started, the one before it has ended. -/
theorem ended_of_start (leads : bot.Leads index) (stepped : bot.step move = some next)
    (isNew : next.loops.length ≠ bot.loops.length) (found : bot.loop? index = some loop) :
    loop.phase.hasEnded = true := by
  cases steps_of_step stepped with
  | finish waiting free => exact leads.lives.ended free found
  | identify fid => exact absurd rfl isNew
  | begin call idle =>
      obtain ⟨loops, waiting, size, begun⟩ := begin_eq bot call
      rw [begun] at isNew
      exact absurd size isNew
  | _ => exact absurd List.length_set isNew

/-- A move of the loop is the beginning or the end of a cycle, or nothing to its polls. -/
theorem cycles_of_sees {after : Loop} {asked : List Nat} {results : List PollResult}
    (leads : bot.Leads index) (found : bot.loop? index = some loop)
    (sees : Sees index bot.cursor loop move after)
    (later : Cycles (furthest bot.cursor (move.results index)) (after.underWay ++ asked) results) :
    Cycles bot.cursor (loop.underWay ++ (move.polls index bot ++ asked))
      (move.results index ++ results) := by
  cases sees with
  | move steps =>
      cases steps with
      | heed resting told =>
          rw [Loop.underWay, resting]
          exact later
      | tick resting untold =>
          rw [Loop.underWay, resting]
          exact later
      | poll ticked =>
          rw [Loop.underWay, ticked]
          simp only [Move.polls, if_true]
          exact later
      | @take since result polling =>
          have atCursor := leads.polling loop since found polling
          rw [Loop.underWay_phaseAfter] at later
          simp only [Move.results, if_true, furthest_cons] at later ⊢
          rw [Loop.underWay, polling, atCursor]
          exact .cycle later
      | abandon sending closed =>
          rw [Loop.underWay, sending]
          exact later
      | @send first rest sending isOpen hasRoom =>
          rw [Loop.underWay, sending]
          cases rest <;> exact later
  | receive filled => exact later
  | drop => exact later
  | signal call => exact later
  | nothing elsewhere =>
      rw [polls_of_elsewhere elsewhere]
      rw [results_of_elsewhere elsewhere] at later ⊢
      exact later

/-- The polls of a loop follow on one another to the end of its life. -/
theorem cycles (leads : bot.Leads index) (found : bot.loop? index = some loop)
    (reached : bot.run moves = some next) :
    Cycles bot.cursor (loop.underWay ++ polled index bot moves) (taken index moves) := by
  induction moves generalizing bot loop with
  | nil =>
      rw [polled, List.append_nil, Loop.underWay]
      split
      · rename_i since polling
        rw [leads.polling loop since found polling]
        exact .underWay _
      · exact .done _
  | cons move rest ih =>
      have whole := reached
      obtain ⟨middle, stepped, reached⟩ := Option.bind_eq_some_iff.mp reached
      by_cases noneNew : middle.loops.length = bot.loops.length
      · obtain ⟨after, foundAfter, sees⟩ := sees_of_step stepped found
        have later := ih (leads.step found stepped noneNew) foundAfter reached
        rw [leads.cursor_of_step stepped noneNew] at later
        rw [polled_cons stepped]
        exact leads.cycles_of_sees found sees later
      · have ended := leads.ended_of_start stepped noneNew found
        obtain ⟨noPolls, nothingTaken⟩ := quiet_of_ended ended found whole
        rw [noPolls, nothingTaken, List.append_nil, Loop.underWay]
        split
        · rename_i since polling
          rw [polling] at ended
          cases ended
        · exact .done _

/-- As long as no other loop is started, the cursor is the greatest of those that came. -/
theorem cursor_of_run (leads : bot.Leads index) (found : bot.loop? index = some loop)
    (reached : bot.run moves = some next) (noneNew : next.loops.length = bot.loops.length) :
    next.cursor = furthest bot.cursor (taken index moves) ∧ next.Leads index := by
  induction moves generalizing bot loop with
  | nil =>
      cases reached
      exact ⟨rfl, leads⟩
  | cons move rest ih =>
      obtain ⟨middle, stepped, reached⟩ := Option.bind_eq_some_iff.mp reached
      have noneNewYet : middle.loops.length = bot.loops.length := by
        have before := loops_le_of_step stepped
        have after := loops_le_of_run reached
        omega
      obtain ⟨after, foundAfter, _⟩ := sees_of_step stepped found
      obtain ⟨cursor, leadsLater⟩ := ih (leads.step found stepped noneNewYet) foundAfter reached
        (noneNew.trans noneNewYet.symm)
      refine ⟨?_, leadsLater⟩
      rw [cursor, leads.cursor_of_step stepped noneNewYet]
      simp only [furthest, taken, List.flatMap_cons, List.filterMap_append, List.foldl_append]

end Leads

section Start

variable {capacity since : Nat} {identity : Option Fid} {before after : List Move}
variable {bot started next : Bot}

theorem leads_of_start (reached : (Bot.new capacity identity).run before = some bot)
    (waiting : bot.waiting = some (.start since)) (stepped : bot.step .finish = some started) :
    started.Leads bot.loops.length ∧ started.cursor = since ∧
      started.loop? bot.loops.length = some { channel := { capacity := bot.capacity } } := by
  cases steps_of_step stepped with
  | finish called free =>
      cases waiting.symm.trans called
      have fresh : (bot.finish (.start since)).loop? bot.loops.length =
          some { channel := { capacity := bot.capacity } } := List.getElem?_concat_length
      refine ⟨⟨(run_onlyHeldLives reached).finish free _, ?_, ?_⟩, rfl, fresh⟩
      · intro other held
        exact (Option.some.inj held).symm
      · intro loop asked found polling
        cases fresh.symm.trans found
        cases polling

/-- A failed poll leaves the cursor, and its loop rests until it polls again or is told not to. -/
theorem step_failed {index asked : Nat} {loop : Loop} (error : Hub.Error)
    (found : bot.loop? index = some loop) (polling : loop.phase = .polling asked) :
    ∃ failed, bot.step (.loop index (.take (.error (.hub error)))) = some failed ∧
      failed.cursor = bot.cursor ∧
      failed.loop? index = some { loop with phase := .resting } ∧
      (loop.isSignalled = false →
        ∃ again, failed.run [.loop index .tick, .loop index .poll] = some again ∧
          again.loop? index = some { loop with phase := .polling bot.cursor }) := by
  have takes : Loop.Steps bot.cursor loop (.take (.error (.hub error)))
      { cursor := bot.cursor, loop := { loop with phase := .resting } } := .take polling
  obtain ⟨failed, stepped, sameCursor, rests⟩ := step_loop found takes
  refine ⟨failed, stepped, sameCursor, rests, fun untold => ?_⟩
  obtain ⟨begun, ticked, tickedCursor, foundTicked⟩ := step_loop rests (.tick rfl untold)
  obtain ⟨again, polled, _, foundAgain⟩ := step_loop foundTicked (.poll rfl)
  refine ⟨again, Option.bind_eq_some_iff.mpr ⟨begun, ticked, ?_⟩, ?_⟩
  · exact Option.bind_eq_some_iff.mpr ⟨again, polled, rfl⟩
  · rw [foundAgain, tickedCursor, sameCursor]

/-- The cursor of a bot from the start of a loop to that of the next one. It is the greatest of the
one at the start and of all that polls brought. Each poll asks for the cursor that the one before it
left, so what is asked for never goes back. A poll that fails leaves the cursor and the loop as they
were before it. -/
theorem cursor_is_furthest (reached : (Bot.new capacity identity).run before = some bot)
    (waiting : bot.waiting = some (.start since)) (stepped : bot.step .finish = some started)
    (reachedNext : started.run after = some next)
    (noneNew : next.loops.length = started.loops.length) :
    next.cursor = furthest since (taken bot.loops.length after) ∧
      (∀ number asked, (polled bot.loops.length started after)[number]? = some asked →
        asked = furthest since ((taken bot.loops.length after).take number)) ∧
      (polled bot.loops.length started after).Pairwise (· ≤ ·) ∧
      (taken bot.loops.length after).length ≤ (polled bot.loops.length started after).length ∧
      (polled bot.loops.length started after).length ≤ (taken bot.loops.length after).length + 1 ∧
      ∀ loop asked error, next.loop? bot.loops.length = some loop → loop.phase = .polling asked →
        asked = next.cursor ∧
        ∃ failed, next.step (.loop bot.loops.length (.take (.error (.hub error)))) = some failed ∧
          failed.cursor = next.cursor ∧
          failed.loop? bot.loops.length = some { loop with phase := .resting } ∧
          (loop.isSignalled = false →
            ∃ again, failed.run [.loop bot.loops.length .tick, .loop bot.loops.length .poll] =
                some again ∧
              again.loop? bot.loops.length =
                some { loop with phase := .polling next.cursor }) := by
  obtain ⟨leads, atStart, fresh⟩ := leads_of_start reached waiting stepped
  have cycles := leads.cycles fresh reachedNext
  obtain ⟨cursor, leadsNext⟩ := leads.cursor_of_run fresh reachedNext noneNew
  rw [atStart] at cycles cursor
  refine ⟨cursor, ?_, cycles.ascending, cycles.length_le.1, cycles.length_le.2, ?_⟩
  · intro number asked found
    exact cycles.asked_eq found
  · intro loop asked error found polling
    exact ⟨leadsNext.polling loop asked found polling, step_failed error found polling⟩

/-- Four cycles: one brings a cursor that is behind, one nothing new, one fails, and the last one is
under way. -/
def unevenMoves : List Move :=
  [.loop 0 .tick, .loop 0 .poll, .loop 0 (.take (.ok { mentions := [mentionAt 1], next := 50 })),
    .loop 0 .send, .loop 0 .tick, .loop 0 .poll, .loop 0 (.take (.error (.hub .noNewCasts))),
    .loop 0 .tick, .loop 0 .poll, .loop 0 (.take (.ok { mentions := [], next := 600 })), .receive 0,
    .loop 0 .tick, .loop 0 .poll, .loop 0 (.take (.error (.hub (.request "castsByMention")))),
    .loop 0 .tick, .loop 0 .poll]

theorem unevenMoves_poll_in_order :
    ∃ bot started next, (Bot.new 1 (some 7)).run [.begin (.start 500)] = some bot ∧
      bot.waiting = some (.start 500) ∧ bot.step .finish = some started ∧
      started.run unevenMoves = some next ∧ next.loops.length = started.loops.length ∧
      polled 0 started unevenMoves = [500, 500, 500, 600, 600] ∧
      next.cursor = furthest 500 (taken 0 unevenMoves) ∧
      furthest 500 (taken 0 unevenMoves) = 600 ∧
      (polled 0 started unevenMoves).Pairwise (· ≤ ·) := by
  obtain ⟨bot, started, next, reached, waiting, stepped, reachedNext, noneNew, asked⟩ :
      ∃ bot started next, (Bot.new 1 (some 7)).run [.begin (.start 500)] = some bot ∧
      bot.waiting = some (.start 500) ∧ bot.step .finish = some started ∧
      started.run unevenMoves = some next ∧ next.loops.length = started.loops.length ∧
      polled 0 started unevenMoves = [500, 500, 500, 600, 600] :=
    ⟨_, _, _, rfl, rfl, rfl, rfl, rfl, rfl⟩
  have first : bot.loops.length = 0 := by
    cases reached
    rfl
  have furthestCursor := cursor_is_furthest reached waiting stepped reachedNext noneNew
  rw [first] at furthestCursor
  obtain ⟨cursor, _, ascending, _⟩ := furthestCursor
  exact ⟨bot, started, next, reached, waiting, stepped, reachedNext, noneNew, asked, cursor,
    by decide, ascending⟩

end Start

end PollHerald.Bot
