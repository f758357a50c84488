import PollHerald.Bot.Machine
import PollHerald.Proofs.Bot.Loop

set_option autoImplicit false

/-! All that one move of a bot can do, and what each of its loops sees of it: a loop is moved by its
own moves, by its receiver and by calls that tell it to shut down, and by nothing else. -/

namespace PollHerald.Bot

/-- The moves that a bot can make, each with what it leaves behind. -/
inductive Steps (bot : Bot) : Move → Bot → Prop where
  | loop {index : Nat} {loop : Loop} {move : Loop.Move} {advance : Loop.Advance}
      (found : bot.loop? index = some loop) (steps : Loop.Steps bot.cursor loop move advance) :
      Steps bot (.loop index move)
        { bot.setLoop index advance.loop with cursor := advance.cursor }
  | receive {index : Nat} {loop : Loop} (found : bot.loop? index = some loop)
      (filled : loop.channel.buffer ≠ []) :
      Steps bot (.receive index) (bot.setLoop index { loop with channel := loop.channel.pop })
  | drop {index : Nat} {loop : Loop} (found : bot.loop? index = some loop) :
      Steps bot (.drop index) (bot.setLoop index { loop with channel := loop.channel.close })
  | identify (fid : Option Fid) : Steps bot (.identify fid) { bot with identity := fid }
  | begin (call : Call) (idle : bot.waiting = none) : Steps bot (.begin call) (bot.begin call)
  | finish {call : Call} (waiting : bot.waiting = some call) (free : bot.isFree = true) :
      Steps bot .finish (bot.finish call)

theorem steps_of_step {bot next : Bot} {move : Move} (stepped : bot.step move = some next) :
    Steps bot move next := by
  cases move with
  | loop index move =>
      obtain ⟨loop, found, stepped⟩ := Option.bind_eq_some_iff.mp stepped
      obtain ⟨advance, moved, stepped⟩ := Option.bind_eq_some_iff.mp stepped
      cases stepped
      exact .loop found ((Loop.step_eq_some_iff _ _ _ _).mp moved)
  | receive index =>
      obtain ⟨loop, found, stepped⟩ := Option.bind_eq_some_iff.mp stepped
      split at stepped
      · cases stepped
      · rename_i filled
        cases stepped
        exact .receive found fun empty => filled (empty ▸ rfl)
  | drop index =>
      obtain ⟨loop, found, stepped⟩ := Option.bind_eq_some_iff.mp stepped
      cases stepped
      exact .drop found
  | identify fid =>
      cases stepped
      exact .identify fid
  | begin call =>
      simp only [Bot.step] at stepped
      split at stepped
      · cases stepped
      · rename_i idle
        cases stepped
        exact .begin call (Option.not_isSome_iff_eq_none.mp idle)
  | finish =>
      obtain ⟨call, waiting, stepped⟩ := Option.bind_eq_some_iff.mp stepped
      split at stepped
      · rename_i free
        cases stepped
        exact .finish waiting free
      · cases stepped

/-- The loop that a move is about. -/
def Move.index? : Move → Option Nat
  | .loop index _ | .receive index | .drop index => some index
  | _ => none

/-- What a loop sees of a move of its bot. -/
inductive Sees (index cursor : Nat) (loop : Loop) : Move → Loop → Prop where
  | move {move : Loop.Move} {advance : Loop.Advance}
      (steps : Loop.Steps cursor loop move advance) :
      Sees index cursor loop (.loop index move) advance.loop
  | receive (filled : loop.channel.buffer ≠ []) :
      Sees index cursor loop (.receive index) { loop with channel := loop.channel.pop }
  | drop : Sees index cursor loop (.drop index) { loop with channel := loop.channel.close }
  | signal (call : Call) : Sees index cursor loop (.begin call) { loop with isSignalled := true }
  | nothing {move : Move} (elsewhere : move.index? ≠ some index) : Sees index cursor loop move loop

section Loops

variable {bot next : Bot} {index : Nat} {move : Move}

theorem setLoop_loop? (bot : Bot) {loop : Loop} (changed : Loop)
    (found : bot.loop? index = some loop) :
    (bot.setLoop index changed).loop? index = some changed := by
  obtain ⟨within, _⟩ := List.getElem?_eq_some_iff.mp found
  exact List.getElem?_set_self within

theorem setLoop_loop?_ne (bot : Bot) {other : Nat} (changed : Loop) (differs : other ≠ index) :
    (bot.setLoop other changed).loop? index = bot.loop? index :=
  List.getElem?_set_ne differs

/-- A move that a loop can make, its bot can make. -/
theorem step_loop {loop : Loop} {loopMove : Loop.Move} {advance : Loop.Advance}
    (found : bot.loop? index = some loop) (steps : Loop.Steps bot.cursor loop loopMove advance) :
    ∃ next, bot.step (.loop index loopMove) = some next ∧ next.cursor = advance.cursor ∧
      next.loop? index = some advance.loop := by
  refine ⟨{ bot.setLoop index advance.loop with cursor := advance.cursor }, ?_, rfl,
    setLoop_loop? bot _ found⟩
  have moved := (Loop.step_eq_some_iff _ _ _ _).mpr steps
  simp only [Bot.step, found, Option.bind_eq_bind, Option.bind_some, moved]
  rfl

theorem begin_eq (bot : Bot) (call : Call) :
    ∃ loops waiting, loops.length = bot.loops.length ∧
      bot.begin call = { bot with loops, waiting } := by
  unfold Bot.begin
  split
  · exact ⟨_, _, rfl, rfl⟩
  · unfold signal
    split
    · exact ⟨_, _, rfl, rfl⟩
    · exact ⟨_, _, List.length_modify .., rfl⟩

/-- A call tells one loop at most to shut down, and leaves the others alone. -/
theorem begin_loop? (bot : Bot) (call : Call) (index : Nat) :
    (bot.begin call).loop? index = bot.loop? index ∨
      (bot.begin call).loop? index =
        (bot.loop? index).map fun loop => { loop with isSignalled := true } := by
  unfold Bot.begin
  split
  · exact .inl rfl
  · cases held : bot.held with
    | none =>
        refine .inl ?_
        simp only [loop?, signal, held]
    | some other =>
        by_cases same : other = index
        · cases same
          refine .inr ?_
          simp only [loop?, signal, held, List.getElem?_modify_eq, Option.map_eq_map]
        · refine .inl ?_
          simp only [loop?, signal, held, List.getElem?_modify_ne _ _ same]

theorem finish_loop? (bot : Bot) (call : Call) {loop : Loop} (found : bot.loop? index = some loop) :
    (bot.finish call).loop? index = some loop := by
  obtain ⟨within, _⟩ := List.getElem?_eq_some_iff.mp found
  cases call with
  | start since => exact (List.getElem?_append_left within).trans found
  | stop => exact found

theorem sees_of_step (stepped : bot.step move = some next) {loop : Loop}
    (found : bot.loop? index = some loop) :
    ∃ after, next.loop? index = some after ∧ Sees index bot.cursor loop move after := by
  -- What is set for another loop leaves this one where it was.
  have elsewhere {other : Nat} (changed : Loop) (differs : other ≠ index) :
      (bot.setLoop other changed).loop? index = some loop :=
    (setLoop_loop?_ne bot changed differs).trans found
  cases steps_of_step stepped with
  | @loop other moved loopMove advance foundOther steps =>
      by_cases same : other = index
      · cases same
        cases found.symm.trans foundOther
        exact ⟨_, setLoop_loop? bot _ found, .move steps⟩
      · exact ⟨loop, elsewhere _ same, .nothing (same ∘ Option.some.inj)⟩
  | @receive other moved foundOther filled =>
      by_cases same : other = index
      · cases same
        cases found.symm.trans foundOther
        exact ⟨_, setLoop_loop? bot _ found, .receive filled⟩
      · exact ⟨loop, elsewhere _ same, .nothing (same ∘ Option.some.inj)⟩
  | @drop other moved foundOther =>
      by_cases same : other = index
      · cases same
        cases found.symm.trans foundOther
        exact ⟨_, setLoop_loop? bot _ found, .drop⟩
      · exact ⟨loop, elsewhere _ same, .nothing (same ∘ Option.some.inj)⟩
  | identify fid => exact ⟨loop, found, .nothing nofun⟩
  | begin call idle =>
      rcases begin_loop? bot call index with same | told
      · exact ⟨loop, same.trans found, .nothing nofun⟩
      · exact ⟨_, told.trans (congrArg _ found), .signal call⟩
  | finish waiting free => exact ⟨loop, finish_loop? bot _ found, .nothing nofun⟩

theorem setLoop_loop?_none (bot : Bot) {other : Nat} (changed : Loop)
    (absent : bot.loop? index = none) : (bot.setLoop other changed).loop? index = none := by
  rw [loop?, List.getElem?_eq_none_iff] at absent ⊢
  rwa [setLoop, List.length_set]

/-- Only a call that takes effect brings a new loop, and that has just started. -/
theorem new_loop_of_step (stepped : bot.step move = some next) (absent : bot.loop? index = none)
    {loop : Loop} (found : next.loop? index = some loop) :
    move = .finish ∧ loop = { channel := { capacity := bot.capacity } } := by
  have notSet {other : Nat} (changed : Loop) :
      (bot.setLoop other changed).loop? index ≠ some loop := by
    rw [setLoop_loop?_none bot changed absent]
    exact nofun
  cases steps_of_step stepped with
  | loop foundOther steps => exact absurd found (notSet _)
  | receive foundOther filled => exact absurd found (notSet _)
  | drop foundOther => exact absurd found (notSet _)
  | identify fid => cases absent.symm.trans found
  | begin call idle =>
      rcases begin_loop? bot call index with same | told
      · cases (same.trans absent).symm.trans found
      · rw [absent] at told
        cases told.symm.trans found
  | @finish call waiting free =>
      cases call with
      | stop => cases absent.symm.trans found
      | start since =>
          have outside := List.getElem?_eq_none_iff.mp absent
          refine ⟨rfl, ?_⟩
          change (bot.loops ++ [_])[index]? = some loop at found
          rw [List.getElem?_append_right outside] at found
          exact (List.mem_singleton.mp (List.mem_of_getElem? found))

theorem index?_ne_of_absent (stepped : bot.step move = some next)
    (absent : bot.loop? index = none) : move.index? ≠ some index := by
  intro same
  cases steps_of_step stepped with
  | loop found steps =>
      cases same
      cases absent.symm.trans found
  | receive found filled =>
      cases same
      cases absent.symm.trans found
  | drop found =>
      cases same
      cases absent.symm.trans found
  | _ => cases same

/-- What every move of a run keeps holds at its end. -/
theorem run_preserves (property : Bot → Prop) {moves : List Move} (holds : property bot)
    (kept : ∀ move ∈ moves, ∀ before after : Bot, property before →
      before.step move = some after → property after)
    (reached : bot.run moves = some next) : property next := by
  induction moves generalizing bot with
  | nil =>
      cases reached
      exact holds
  | cons move rest ih =>
      obtain ⟨middle, stepped, reached⟩ := Option.bind_eq_some_iff.mp reached
      have holdsNext := kept move List.mem_cons_self bot middle holds stepped
      exact ih holdsNext (fun later member => kept later (List.mem_cons_of_mem _ member)) reached

theorem capacity_of_step (stepped : bot.step move = some next) : next.capacity = bot.capacity := by
  cases steps_of_step stepped with
  | begin call idle =>
      obtain ⟨loops, waiting, _, same⟩ := begin_eq bot call
      rw [same]
  | @finish call waiting free => cases call <;> rfl
  | _ => rfl

theorem capacity_of_run {moves : List Move} (reached : bot.run moves = some next) :
    next.capacity = bot.capacity :=
  run_preserves (fun later => later.capacity = bot.capacity) rfl
    (fun _ _ _ _ same stepped => (capacity_of_step stepped).trans same) reached

end Loops

end PollHerald.Bot
