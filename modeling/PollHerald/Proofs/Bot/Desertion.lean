import PollHerald.Proofs.Bot.Isolation

set_option autoImplicit false

/-! A loop whose receiver was dropped. It looks at its channel only when it has a mention to hand
over, so polls that bring none keep it going: it asks again after them as if somebody listened. The
first poll that brings a mention is its last. -/

namespace PollHerald.Bot

/-- A poll that leaves nothing to hand over and does not break the loop. -/
structure PollResult.Barren (result : PollResult) : Prop where
  empty : mentions result = []
  whole : result ≠ .error .clockOverflow

theorem Loop.phaseAfter_eq_resting_iff (result : PollResult) :
    phaseAfter result = .resting ↔ PollResult.Barren result := by
  constructor
  · intro rests
    constructor
    · rw [← unsent_phaseAfter result, rests]
      rfl
    · intro breaks
      rw [(phaseAfter_eq_broken_iff result).mpr breaks] at rests
      cases rests
  · rintro ⟨empty, whole⟩
    cases result with
    | ok batch =>
        change batch.mentions = [] at empty
        rw [phaseAfter, empty]
        rfl
    | error failure =>
        cases failure with
        | hub error => rfl
        | clockOverflow => exact absurd rfl whole

/-- A loop with nothing to hand over, and results that keep it so. The first of them is that of the
poll under way, if there is one. A loop that was told to shut down has at most the poll left for
which it took its tick before. -/
structure Loop.GoesOnAfter (results : List PollResult) (loop : Loop) : Prop where
  told : loop.isSignalled = true → loop.phase = .ticked ∧ results = []
  going : loop.phase.hasEnded = false
  idle : loop.phase.unsent = []
  answered : loop.underWay.length ≤ results.length
  barren : ∀ result ∈ results, PollResult.Barren result

/-- Whether a loop may ask again when its polls have brought the results. -/
def AsksAfter (index : Nat) (bot : Bot) (results : List PollResult) : Prop :=
  ∃ moves next, bot.run (moves ++ [.loop index .poll]) = some next ∧ taken index moves = results

section Moves

variable {bot next : Bot} {index : Nat} {move : Bot.Move} {moves : List Bot.Move}
variable {loop after : Loop} {results : List PollResult}

theorem Loop.GoesOnAfter.phase_cases (goesOn : loop.GoesOnAfter results) :
    loop.phase = .resting ∨ loop.phase = .ticked ∨ ∃ since, loop.phase = .polling since := by
  have going := goesOn.going
  have idle := goesOn.idle
  cases phase : loop.phase with
  | resting => exact .inl rfl
  | ticked => exact .inr (.inl rfl)
  | polling since => exact .inr (.inr ⟨since, rfl⟩)
  | sending next rest =>
      rw [phase] at idle
      cases idle
  | ended ending =>
      rw [phase] at going
      cases going

/-- A loop that may take another tick was not told to shut down. -/
theorem Loop.GoesOnAfter.untold (goesOn : loop.GoesOnAfter results)
    (before : loop.phase ≠ .ticked ∨ results ≠ []) : loop.isSignalled = false := by
  cases signalled : loop.isSignalled with
  | false => rfl
  | true =>
      obtain ⟨ticked, noResults⟩ := goesOn.told signalled
      rcases before with notTicked | someResults
      · exact absurd ticked notTicked
      · exact absurd noResults someResults

theorem Loop.GoesOnAfter.of_untold (untold : loop.isSignalled = false)
    (going : loop.phase.hasEnded = false) (idle : loop.phase.unsent = [])
    (answered : loop.underWay.length ≤ results.length)
    (barren : ∀ result ∈ results, PollResult.Barren result) : loop.GoesOnAfter results := by
  refine ⟨fun signalled => ?_, going, idle, answered, barren⟩
  cases untold.symm.trans signalled

theorem Loop.GoesOnAfter.of_unasked (untold : loop.isSignalled = false)
    (unasked : loop.phase = .resting ∨ loop.phase = .ticked)
    (barren : ∀ result ∈ results, PollResult.Barren result) : loop.GoesOnAfter results := by
  rcases unasked with phase | phase
  all_goals
    refine of_untold untold ?_ ?_ ?_ barren
    · rw [phase]
      rfl
    · rw [phase]
      rfl
    · rw [underWay, phase]
      exact Nat.zero_le _

/-- A loop that nobody receives from and that goes on after a move could go on before it, and what
it took in with the move was barren. -/
theorem Loop.GoesOnAfter.of_sees {cursor : Nat} (closed : loop.channel.isOpen = false)
    (sees : Sees index cursor loop move after) (goesOn : after.GoesOnAfter results) :
    loop.GoesOnAfter (move.results index ++ results) := by
  cases sees with
  | move steps =>
      cases steps with
      | heed resting signalled => cases goesOn.going
      | tick resting untold => exact of_unasked untold (.inl resting) goesOn.barren
      | poll ticked =>
          have untold : loop.isSignalled = false := by
            apply goesOn.untold
            left
            intro isTicked
            cases isTicked
          exact of_unasked untold (.inr ticked) goesOn.barren
      | @take since result polling =>
          have rests : phaseAfter result = .resting := by
            rcases goesOn.phase_cases with rests | ticked | ⟨later, polls⟩
            · exact rests
            · exact absurd ticked (phaseAfter_ne_ticked result)
            · exact absurd polls (phaseAfter_ne_polling result later)
          have untold : loop.isSignalled = false :=
            goesOn.untold (.inl (phaseAfter_ne_ticked result))
          have barren := (phaseAfter_eq_resting_iff result).mp rests
          have single : Move.results index (.loop index (.take result)) = [result] := if_pos rfl
          rw [single, List.singleton_append]
          apply of_untold untold
          · rw [polling]
            rfl
          · rw [polling]
            rfl
          · rw [underWay, polling]
            exact Nat.succ_le_succ (Nat.zero_le _)
          · exact List.forall_mem_cons.mpr ⟨barren, goesOn.barren⟩
      | abandon sending dropped => cases goesOn.going
      | send sending isOpen hasRoom => cases closed.symm.trans isOpen
  | receive filled => exact ⟨goesOn.told, goesOn.going, goesOn.idle, goesOn.answered, goesOn.barren⟩
  | drop => exact ⟨goesOn.told, goesOn.going, goesOn.idle, goesOn.answered, goesOn.barren⟩
  | signal call =>
      exact ⟨fun _ => goesOn.told rfl, goesOn.going, goesOn.idle, goesOn.answered, goesOn.barren⟩
  | nothing elsewhere =>
      rw [results_of_elsewhere elsewhere]
      exact goesOn

theorem goesOnAfter_of_asks (deserted : loop.Deserted) (found : bot.loop? index = some loop)
    (asks : bot.run (moves ++ [.loop index .poll]) = some next) :
    loop.GoesOnAfter (taken index moves) := by
  induction moves generalizing bot loop with
  | nil =>
      obtain ⟨last, stepped, _⟩ := Option.bind_eq_some_iff.mp asks
      cases steps_of_step stepped with
      | loop foundMoved steps =>
          cases found.symm.trans foundMoved
          cases steps with
          | poll ticked =>
              constructor
              · intro _
                exact ⟨ticked, rfl⟩
              · rw [ticked]
                rfl
              · rw [ticked]
                rfl
              · rw [Loop.underWay, ticked]
                exact Nat.zero_le _
              · exact List.forall_mem_nil _
  | cons move rest ih =>
      obtain ⟨middle, stepped, asksLater⟩ := Option.bind_eq_some_iff.mp asks
      obtain ⟨after, foundAfter, sees⟩ := sees_of_step stepped found
      have goesOn := ih (deserted.of_sees sees) foundAfter asksLater
      exact goesOn.of_sees deserted.closed sees

theorem AsksAfter.step (stepped : bot.step move = some next) (asks : AsksAfter index next results) :
    AsksAfter index bot (move.results index ++ results) := by
  obtain ⟨moves, last, reached, brought⟩ := asks
  refine ⟨move :: moves, last, ?_, ?_⟩
  · exact Option.bind_eq_some_iff.mpr ⟨next, stepped, reached⟩
  · rw [taken, List.flatMap_cons, ← taken, brought]

/-- A loop that rests takes its tick before it asks. -/
theorem AsksAfter.of_resting (found : bot.loop? index = some loop) (resting : loop.phase = .resting)
    (untold : loop.isSignalled = false)
    (fromTicked : ∀ next : Bot, next.loop? index = some { loop with phase := .ticked } →
      AsksAfter index next results) : AsksAfter index bot results := by
  obtain ⟨next, stepped, _, foundNext⟩ := step_loop found (.tick resting untold)
  exact (fromTicked next foundNext).step stepped

theorem asksAfter_of_goesOn (found : bot.loop? index = some loop)
    (goesOn : loop.GoesOnAfter results) : AsksAfter index bot results := by
  induction results generalizing bot loop with
  | nil =>
      have fromTicked {bot : Bot} {ticked : Loop} (found : bot.loop? index = some ticked)
          (phase : ticked.phase = .ticked) : AsksAfter index bot [] := by
        obtain ⟨next, stepped, _⟩ := step_loop found (.poll phase)
        exact ⟨[], next, Option.bind_eq_some_iff.mpr ⟨next, stepped, rfl⟩, rfl⟩
      rcases goesOn.phase_cases with resting | ticked | ⟨since, polling⟩
      · have untold : loop.isSignalled = false := by
          apply goesOn.untold
          left
          intro isTicked
          cases resting.symm.trans isTicked
        exact .of_resting found resting untold fun _ foundNext => fromTicked foundNext rfl
      · exact fromTicked found ticked
      · have answered := goesOn.answered
        rw [Loop.underWay, polling] at answered
        cases answered
  | cons result rest ih =>
      obtain ⟨barren, barrenLater⟩ := List.forall_mem_cons.mp goesOn.barren
      have untold := goesOn.untold (.inr (List.cons_ne_nil _ _))
      -- With a poll under way, its result is taken in, and the loop rests again.
      have fromPolling {bot : Bot} {polled : Loop} {since : Nat}
          (found : bot.loop? index = some polled) (polling : polled.phase = .polling since)
          (untold : polled.isSignalled = false) : AsksAfter index bot (result :: rest) := by
        have takes : Loop.Steps bot.cursor polled (.take result) _ := .take polling
        obtain ⟨next, stepped, _, foundNext⟩ := step_loop found takes
        rw [(Loop.phaseAfter_eq_resting_iff result).mpr barren] at foundNext
        have asks := ih foundNext (.of_unasked untold (.inl rfl) barrenLater)
        have single : Move.results index (.loop index (.take result)) = [result] := if_pos rfl
        have asksBefore := asks.step stepped
        rwa [single, List.singleton_append] at asksBefore
      have fromTicked {bot : Bot} {ticked : Loop} (found : bot.loop? index = some ticked)
          (phase : ticked.phase = .ticked) (untold : ticked.isSignalled = false) :
          AsksAfter index bot (result :: rest) := by
        obtain ⟨next, stepped, _, foundNext⟩ := step_loop found (.poll phase)
        exact (fromPolling foundNext rfl untold).step stepped
      rcases goesOn.phase_cases with resting | ticked | ⟨since, polling⟩
      · exact .of_resting found resting untold fun _ foundNext => fromTicked foundNext rfl untold
      · exact fromTicked found ticked untold
      · exact fromPolling found polling untold

theorem drop_loop? (found : bot.loop? index = some loop)
    (stepped : bot.step (.drop index) = some next) :
    next.loop? index = some { loop with channel := loop.channel.close } := by
  cases steps_of_step stepped with
  | drop foundDropped =>
      cases found.symm.trans foundDropped
      exact setLoop_loop? bot _ found

theorem deserted_of_run (deserted : loop.Deserted) (found : bot.loop? index = some loop)
    (reached : bot.run moves = some next) (foundAfter : next.loop? index = some after) :
    after.Deserted := by
  have kept : ∃ last, next.loop? index = some last ∧ last.Deserted := by
    apply run_preserves (fun later => ∃ last, later.loop? index = some last ∧ last.Deserted)
      ⟨loop, found, deserted⟩ _ reached
    intro move _ before later keptBefore stepped
    rcases keptBefore with ⟨old, foundOld, oldDeserted⟩
    obtain ⟨last, foundLast, sees⟩ := sees_of_step stepped foundOld
    exact ⟨last, foundLast, oldDeserted.of_sees sees⟩
  rcases kept with ⟨last, foundLast, lastDeserted⟩
  cases foundAfter.symm.trans foundLast
  exact lastDeserted

/-- A loop with a mention that nobody will receive has one move left. -/
theorem ends_of_deserted {loopMove : Loop.Move} (deserted : loop.Deserted)
    (found : bot.loop? index = some loop) (left : loop.phase.unsent ≠ [])
    (stepped : bot.step (.loop index loopMove) = some next) :
    next.loop? index = some { loop with phase := .ended .abandoned } := by
  cases steps_of_step stepped with
  | loop foundMoved steps =>
      cases found.symm.trans foundMoved
      cases steps with
      | heed resting told =>
          rw [resting] at left
          exact absurd rfl left
      | tick resting untold =>
          rw [resting] at left
          exact absurd rfl left
      | poll ticked =>
          rw [ticked] at left
          exact absurd rfl left
      | take polling =>
          rw [polling] at left
          exact absurd rfl left
      | abandon sending closed => exact setLoop_loop? bot _ found
      | send sending isOpen hasRoom => cases deserted.closed.symm.trans isOpen

/-- When the receiver of a loop is dropped, at whatever moment, the loop may ask again after exactly
those results that bring no mention. With the first mention it has only its end left, and nothing
goes through its channel any more. -/
theorem dropped_loop_asks_on_iff {dropped : Bot} (found : bot.loop? index = some loop)
    (stepped : bot.step (.drop index) = some dropped) :
    (∀ results, AsksAfter index dropped results ↔ loop.GoesOnAfter results) ∧
      ∀ moves next after, dropped.run moves = some next → next.loop? index = some after →
        received index dropped moves = [] ∧ after.channel.buffer = [] ∧
        (after.phase.unsent ≠ [] → ∀ loopMove ended,
          next.step (.loop index loopMove) = some ended →
          ended.loop? index = some { after with phase := .ended .abandoned }) := by
  have foundDropped := drop_loop? found stepped
  have deserted : ({ loop with channel := loop.channel.close } : Loop).Deserted := ⟨rfl, rfl⟩
  constructor
  · intro results
    constructor
    · rintro ⟨moves, next, asks, brought⟩
      have goesOn := goesOnAfter_of_asks deserted foundDropped asks
      rw [brought] at goesOn
      exact ⟨goesOn.told, goesOn.going, goesOn.idle, goesOn.answered, goesOn.barren⟩
    · intro goesOn
      apply asksAfter_of_goesOn foundDropped
      exact ⟨goesOn.told, goesOn.going, goesOn.idle, goesOn.answered, goesOn.barren⟩
  · intro moves next after reached foundAfter
    obtain ⟨nothing, empty⟩ := received_of_deserted deserted foundDropped reached foundAfter
    refine ⟨nothing, empty, fun left loopMove ended ends => ?_⟩
    have desertedAfter := deserted_of_run deserted foundDropped reached foundAfter
    exact ends_of_deserted desertedAfter foundAfter left ends

/-- Three polls without a mention, of which one finds an empty page and one does not come through. -/
def barrenResults : List PollResult :=
  [.error (.hub .noNewCasts), .ok { mentions := [], next := 5 },
    .error (.hub (.request "castsByMention"))]

/-- A poll with a mention. -/
def tellingResult : PollResult := .ok { mentions := [mentionAt 6], next := 9 }

theorem dropped_loop_asks_on_until_mention :
    ∃ bot loop dropped, (Bot.new 1 (some 7)).run
        [.begin (.start 0), .finish, .loop 0 .tick, .loop 0 .poll] = some bot ∧
      bot.loop? 0 = some loop ∧ loop.phase = .polling 0 ∧ bot.step (.drop 0) = some dropped ∧
      AsksAfter 0 dropped barrenResults ∧
      ¬ AsksAfter 0 dropped (barrenResults ++ [tellingResult]) := by
  obtain ⟨bot, loop, dropped, reached, found, polling, untold, stepped⟩ :
      ∃ bot loop dropped, (Bot.new 1 (some 7)).run
        [.begin (.start 0), .finish, .loop 0 .tick, .loop 0 .poll] = some bot ∧
      bot.loop? 0 = some loop ∧ loop.phase = .polling 0 ∧ loop.isSignalled = false ∧
      bot.step (.drop 0) = some dropped := ⟨_, _, _, rfl, rfl, rfl, rfl, rfl⟩
  obtain ⟨asksOn, _⟩ := dropped_loop_asks_on_iff found stepped
  refine ⟨bot, loop, dropped, reached, found, polling, stepped, ?_, ?_⟩
  · apply (asksOn barrenResults).mpr
    apply Loop.GoesOnAfter.of_untold untold
    · rw [polling]
      rfl
    · rw [polling]
      rfl
    · rw [Loop.underWay, polling]
      decide
    · intro result member
      simp only [barrenResults, List.mem_cons, List.not_mem_nil, or_false] at member
      rcases member with rfl | rfl | rfl
      all_goals
        refine ⟨rfl, fun overflow => ?_⟩
        cases overflow
  · intro asks
    have goesOn := (asksOn _).mp asks
    have barren := goesOn.barren tellingResult (List.mem_append_right _ List.mem_cons_self)
    cases barren.empty

/-- A loop can ask again after the poll during which its receiver was dropped. -/
theorem dropped_loop_can_ask_on :
    ¬ ∀ (capacity index : Nat) (identity : Option Fid) (before moves : List Move)
        (bot dropped next : Bot), (Bot.new capacity identity).run before = some bot →
      bot.step (.drop index) = some dropped → dropped.run moves = some next →
      ∀ earlier result later, moves = earlier ++ .loop index (.take result) :: later →
        .loop index .poll ∉ later := by
  intro alwaysLast
  obtain ⟨bot, dropped, next, reached, stepped, reachedNext⟩ :
      ∃ bot dropped next, (Bot.new 1 (some 7)).run
        [.begin (.start 0), .finish, .loop 0 .tick, .loop 0 .poll] = some bot ∧
      bot.step (.drop 0) = some dropped ∧
      dropped.run [.loop 0 (.take (.error (.hub .noNewCasts))), .loop 0 .tick, .loop 0 .poll] =
        some next := ⟨_, _, _, rfl, rfl, rfl⟩
  exact alwaysLast 1 0 (some 7) _ _ bot dropped next reached stepped reachedNext [] _ _ rfl
    (List.mem_cons_of_mem _ List.mem_cons_self)

end Moves

end PollHerald.Bot
