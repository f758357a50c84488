import PollHerald.Proofs.Bot.Course
import PollHerald.Proofs.Bot.Machine

set_option autoImplicit false

/-! A loop within its bot. From the call that starts it until the next one that does, the latest
loop of a bot goes on as a loop by itself would: the loops before it have ended, and all that its
bot adds are the events that a course knows. So what holds of every course holds of it. -/

namespace PollHerald.Bot

namespace Course

variable {provider other : Provider} {course next : Course}

theorem length_credit (mentions : List Mention) (log : List Cycle) :
    (credit mentions log).length = log.length := by
  cases log <;> rfl

theorem length_le_enter (course : Course) (after : Nat) (move : Loop.Move) :
    course.log.length ≤ (course.enter after move).length := by
  unfold enter
  split
  · split
    · exact Nat.le_succ _
    · exact Nat.le_refl _
  · exact Nat.le_refl _

theorem length_le_of_move {move : Loop.Move} (moved : course.move move = some next) :
    course.log.length ≤ next.log.length := by
  obtain ⟨advance, _, rfl⟩ := (move_eq_some_iff course next move).mp moved
  rw [length_credit]
  exact length_le_enter course _ move

theorem length_of_take {since : Nat} {result : PollResult}
    (polling : course.loop.phase = .polling since)
    (moved : course.move (.take result) = some next) :
    next.log.length = course.log.length + 1 := by
  obtain ⟨advance, _, rfl⟩ := (move_eq_some_iff course next _).mp moved
  simp only [length_credit, enter, polling, List.length_cons]

theorem length_le_of_step {event : Event} (stepped : course.step provider event = some next) :
    course.log.length ≤ next.log.length := by
  cases change_of_step stepped with
  | move brought moved => exact length_le_of_move moved
  | outside cursor log phase told isOpen => exact Nat.le_of_eq (congrArg List.length log.symm)

theorem run_congr {events : List Event}
    (same : ∀ number, course.log.length ≤ number → provider number = other number) :
    course.run provider events = course.run other events := by
  induction events generalizing course with
  | nil => rfl
  | cons event rest ih =>
      have sameStep : course.step provider event = course.step other event := by
        cases event with
        | answer => simp only [step, same _ (Nat.le_refl _)]
        | _ => rfl
      simp only [run, List.foldlM_cons, sameStep]
      cases stepped : course.step other event with
      | none => rfl
      | some next =>
          have longer := length_le_of_step stepped
          exact ih fun number later => same number (Nat.le_trans longer later)

/-- A later state of a course that is at most one poll away, whatever that poll brought. -/
def GoesOn (course later : Course) : Prop :=
  ∃ result events, ∀ provider : Provider,
    (∀ number < later.log.length, course.log.length ≤ number →
      ∀ since, provider number since = result) →
    course.run provider events = some later

theorem goesOn_refl (course : Course) : course.GoesOn course :=
  ⟨.error .clockOverflow, [], fun _ _ => rfl⟩

theorem goesOn_of_step {event : Event}
    (stepped : ∀ provider, course.step provider event = some next) : course.GoesOn next :=
  ⟨.error .clockOverflow, [event], fun provider _ =>
    Option.bind_eq_some_iff.mpr ⟨next, stepped provider, rfl⟩⟩

theorem goesOn_of_take {since : Nat} {result : PollResult}
    (polling : course.loop.phase = .polling since)
    (moved : course.move (.take result) = some next) : course.GoesOn next := by
  refine ⟨result, [.answer], fun provider brings => Option.bind_eq_some_iff.mpr ⟨next, ?_, rfl⟩⟩
  have longer := length_of_take polling moved
  simp only [step, polling]
  rw [brings _ (longer ▸ Nat.lt_succ_self _) (Nat.le_refl _)]
  exact moved

end Course

theorem loops_le_of_step {bot next : Bot} {move : Move} (stepped : bot.step move = some next) :
    bot.loops.length ≤ next.loops.length := by
  cases steps_of_step stepped with
  | identify fid => exact Nat.le_refl _
  | begin call idle =>
      obtain ⟨loops, waiting, size, same⟩ := begin_eq bot call
      rw [same]
      exact Nat.le_of_eq size.symm
  | @finish call waiting free =>
      cases call with
      | start since =>
          simp only [finish, List.length_append]
          exact Nat.le_add_right _ _
      | stop => exact Nat.le_refl _
  | _ => exact Nat.le_of_eq List.length_set.symm

theorem loops_le_of_run {bot next : Bot} {moves : List Move} (reached : bot.run moves = some next) :
    bot.loops.length ≤ next.loops.length := by
  refine run_preserves (fun later => bot.loops.length ≤ later.loops.length) (Nat.le_refl _) ?_
    reached
  intro move _ before after longer stepped
  exact Nat.le_trans longer (loops_le_of_step stepped)

/-- The latest loop of a bot with its cursor, as a course by itself. No other loop can move, and no
other one is held. -/
structure Mirrors (course : Course) (index : Nat) (bot : Bot) : Prop where
  loop : bot.loop? index = some course.loop
  cursor : bot.cursor = course.cursor
  latest : bot.loops.length = index + 1
  ended : ∀ other < index, ∀ loop, bot.loop? other = some loop → loop.phase.hasEnded = true
  held : ∀ other, bot.held = some other → other = index

namespace Mirrors

variable {course : Course} {index : Nat} {bot next : Bot}

theorem inside (mirrors : Mirrors course index bot) {other : Nat} {loop : Loop}
    (found : bot.loop? other = some loop) : other ≤ index := by
  obtain ⟨within, _⟩ := List.getElem?_eq_some_iff.mp found
  have latest := mirrors.latest
  omega

theorem set_latest (mirrors : Mirrors course index bot) {later : Course}
    (cursor : next.cursor = later.cursor) (loops : next.loops = bot.loops.set index later.loop)
    (held : next.held = bot.held) : Mirrors later index next where
  loop := by
    rw [loop?, loops]
    exact List.getElem?_set_self (mirrors.latest ▸ Nat.lt_succ_self index)
  cursor := cursor
  latest := by rw [loops, List.length_set, mirrors.latest]
  ended := by
    intro other before loop found
    rw [loop?, loops, List.getElem?_set_ne (Nat.ne_of_gt before)] at found
    exact mirrors.ended other before loop found
  held := held ▸ mirrors.held

/-- A change to the channel of a loop that has ended goes unnoticed. -/
theorem set_other (mirrors : Mirrors course index bot) {other : Nat} {loop changed : Loop}
    (differs : other ≠ index) (found : bot.loop? other = some loop)
    (phase : changed.phase = loop.phase) : Mirrors course index (bot.setLoop other changed) where
  loop := (List.getElem?_set_ne differs).trans mirrors.loop
  cursor := mirrors.cursor
  latest := List.length_set.trans mirrors.latest
  ended := by
    intro third before kept foundThird
    rw [loop?, setLoop, List.getElem?_set] at foundThird
    split at foundThird
    · rename_i same
      cases same
      split at foundThird
      · cases foundThird
        rw [phase]
        exact mirrors.ended other before loop found
      · cases foundThird
    · exact mirrors.ended third before kept foundThird
  held := mirrors.held

theorem begin (mirrors : Mirrors course index bot) (call : Call) :
    Mirrors course index (bot.begin call) ∨
      Mirrors { course with loop := { course.loop with isSignalled := true } } index
        (bot.begin call) := by
  have ended : ∀ other < index, ∀ loop, (bot.begin call).loop? other = some loop →
      loop.phase.hasEnded = true := by
    intro other before loop found
    rcases begin_loop? bot call other with same | told
    · exact mirrors.ended other before loop (same.symm.trans found)
    · obtain ⟨old, foundOld, rfl⟩ := Option.map_eq_some_iff.mp (told.symm.trans found)
      exact mirrors.ended other before old foundOld
  have latest := begin_loop? bot call index
  rw [mirrors.loop] at latest
  obtain ⟨loops, waiting, size, begun⟩ := begin_eq bot call
  rw [begun] at latest ended ⊢
  rcases latest with same | told
  · exact .inl ⟨same, mirrors.cursor, size.trans mirrors.latest, ended, mirrors.held⟩
  · exact .inr ⟨told, mirrors.cursor, size.trans mirrors.latest, ended, mirrors.held⟩

private theorem step_loop (mirrors : Mirrors course index bot) {move : Loop.Move}
    {advance : Loop.Advance} (steps : Loop.Steps course.cursor course.loop move advance) :
    ∃ later, course.GoesOn later ∧
      Mirrors later index { bot.setLoop index advance.loop with cursor := advance.cursor } := by
  obtain ⟨later, moved, mirrored⟩ : ∃ later, course.move move = some later ∧
      Mirrors later index { bot.setLoop index advance.loop with cursor := advance.cursor } :=
    ⟨_, (Course.move_eq_some_iff course _ move).mpr ⟨advance, steps, rfl⟩,
      mirrors.set_latest rfl rfl rfl⟩
  refine ⟨later, ?_, mirrored⟩
  cases move with
  | heed => exact Course.goesOn_of_step (fun _ => show course.step _ .heed = _ from moved)
  | tick => exact Course.goesOn_of_step (fun _ => show course.step _ .tick = _ from moved)
  | poll => exact Course.goesOn_of_step (fun _ => show course.step _ .poll = _ from moved)
  | send => exact Course.goesOn_of_step (fun _ => show course.step _ .send = _ from moved)
  | take result =>
      obtain ⟨since, polling⟩ : ∃ since, course.loop.phase = .polling since := by
        cases steps with
        | take polling => exact ⟨_, polling⟩
      exact Course.goesOn_of_take polling moved

/-- What any move of a bot is to the course of its latest loop, as long as it starts no other. -/
theorem step (mirrors : Mirrors course index bot) {move : Move}
    (stepped : bot.step move = some next) (latest : next.loops.length = index + 1) :
    ∃ later, course.GoesOn later ∧ Mirrors later index next := by
  -- What the loop takes no part in is no event of its course.
  have unseen (same : Mirrors course index next) :
      ∃ later, course.GoesOn later ∧ Mirrors later index next :=
    ⟨course, course.goesOn_refl, same⟩
  cases steps_of_step stepped with
  | @loop other loop loopMove advance found steps =>
      rcases Nat.lt_or_eq_of_le (mirrors.inside found) with before | rfl
      · cases steps.going.symm.trans (mirrors.ended other before loop found)
      · cases mirrors.loop.symm.trans found
        rw [mirrors.cursor] at steps
        exact mirrors.step_loop steps
  | @receive other loop found filled =>
      by_cases isLatest : other = index
      · cases isLatest
        cases mirrors.loop.symm.trans found
        have received (provider : Provider) : course.step provider .receive = some
            { course with loop := { course.loop with channel := course.loop.channel.pop } } :=
          if_neg fun empty => filled (List.isEmpty_iff.mp empty)
        exact ⟨_, Course.goesOn_of_step received, mirrors.set_latest mirrors.cursor rfl rfl⟩
      · exact unseen (mirrors.set_other isLatest found rfl)
  | @drop other loop found =>
      by_cases isLatest : other = index
      · cases isLatest
        cases mirrors.loop.symm.trans found
        have dropped (provider : Provider) : course.step provider .drop = some
            { course with loop := { course.loop with channel := course.loop.channel.close } } :=
          rfl
        exact ⟨_, Course.goesOn_of_step dropped, mirrors.set_latest mirrors.cursor rfl rfl⟩
      · exact unseen (mirrors.set_other isLatest found rfl)
  | identify fid =>
      exact unseen ⟨mirrors.loop, mirrors.cursor, mirrors.latest, mirrors.ended, mirrors.held⟩
  | begin call idle =>
      rcases mirrors.begin call with same | signalled
      · exact unseen same
      · have told (provider : Provider) : course.step provider .signal = some
            { course with loop := { course.loop with isSignalled := true } } := rfl
        exact ⟨_, Course.goesOn_of_step told, signalled⟩
  | @finish call waiting free =>
      cases call with
      | start since =>
          have longer := mirrors.latest
          simp only [finish, List.length_append, List.length_singleton] at latest
          omega
      | stop =>
          exact unseen ⟨mirrors.loop, mirrors.cursor, mirrors.latest, mirrors.ended,
            by rintro _ ⟨⟩⟩

/-- As long as no other loop is started, a run of a bot is a course of its latest loop. -/
theorem run (mirrors : Mirrors course index bot) {moves : List Move}
    (reached : bot.run moves = some next) (latest : next.loops.length = index + 1) :
    ∃ provider events later, course.run provider events = some later ∧
      Mirrors later index next := by
  induction moves generalizing course bot with
  | nil =>
      cases reached
      exact ⟨fun _ _ => .error .clockOverflow, [], course, rfl, mirrors⟩
  | cons move rest ih =>
      obtain ⟨middle, stepped, reached⟩ := Option.bind_eq_some_iff.mp reached
      have middleLatest : middle.loops.length = index + 1 := by
        have before := loops_le_of_step stepped
        have after := loops_le_of_run reached
        have here := mirrors.latest
        omega
      obtain ⟨between, ⟨result, first, goes⟩, mirrorsMiddle⟩ := mirrors.step stepped middleLatest
      obtain ⟨provider, events, later, continued, mirrorsLater⟩ := ih mirrorsMiddle reached
      -- The first step only asks for what is new in its record, the others for what comes after.
      let joined : Provider := fun number since =>
        if number < between.log.length then result else provider number since
      refine ⟨joined, first ++ events, later, ?_, mirrorsLater⟩
      have firstRun : course.run joined first = some between :=
        goes joined fun number inside _ since => if_pos inside
      have laterRun : between.run joined events = some later := by
        rw [← continued]
        refine Course.run_congr fun number after => ?_
        funext since
        exact if_neg (Nat.not_lt.mpr after)
      rw [Course.run, List.foldlM_append]
      exact Option.bind_eq_some_iff.mpr ⟨between, firstRun, laterRun⟩

end Mirrors

/-- Whether all loops have ended but the one that is held. -/
def OnlyHeldLives (bot : Bot) : Prop :=
  ∀ index loop, bot.loop? index = some loop → bot.held ≠ some index → loop.phase.hasEnded = true

section Lives

variable {bot next : Bot}

/-- Where a call may take effect, no loop goes on. -/
theorem OnlyHeldLives.ended (lives : OnlyHeldLives bot) (free : bot.isFree = true) {index : Nat}
    {loop : Loop} (found : bot.loop? index = some loop) : loop.phase.hasEnded = true := by
  by_cases held : bot.held = some index
  · simpa only [isFree, heldLoop?, held, Option.bind_some, found, Option.all_some] using free
  · exact lives index loop found held

theorem OnlyHeldLives.set (lives : OnlyHeldLives bot) {index : Nat} {changed : Loop}
    (loops : next.loops = bot.loops.set index changed) (held : next.held = bot.held)
    (still : bot.held ≠ some index → changed.phase.hasEnded = true) : OnlyHeldLives next := by
  intro other loop found notHeld
  rw [held] at notHeld
  rw [loop?, loops, List.getElem?_set] at found
  split at found
  · rename_i same
    cases same
    split at found
    · cases found
      exact still notHeld
    · cases found
  · exact lives other loop found notHeld

theorem OnlyHeldLives.begin (lives : OnlyHeldLives bot) (call : Call) :
    OnlyHeldLives (bot.begin call) := by
  intro index loop found notHeld
  have stillNotHeld : bot.held ≠ some index := by
    obtain ⟨loops, waiting, _, begun⟩ := begin_eq bot call
    rw [begun] at notHeld
    exact notHeld
  rcases begin_loop? bot call index with same | told
  · exact lives index loop (same.symm.trans found) stillNotHeld
  · obtain ⟨old, foundOld, rfl⟩ := Option.map_eq_some_iff.mp (told.symm.trans found)
    exact lives index old foundOld stillNotHeld

theorem OnlyHeldLives.finish (lives : OnlyHeldLives bot) (free : bot.isFree = true) (call : Call) :
    OnlyHeldLives (bot.finish call) := by
  intro index loop found notHeld
  cases call with
  | start since =>
      have before : index < bot.loops.length := by
        obtain ⟨within, _⟩ := List.getElem?_eq_some_iff.mp found
        simp only [Bot.finish, List.length_append, List.length_singleton] at within
        simp only [Bot.finish, ne_eq, Option.some.injEq] at notHeld
        omega
      simp only [Bot.finish, loop?, List.getElem?_append_left before] at found
      exact lives.ended free found
  | stop => exact lives.ended free found

theorem OnlyHeldLives.step (lives : OnlyHeldLives bot) {move : Move}
    (stepped : bot.step move = some next) : OnlyHeldLives next := by
  cases steps_of_step stepped with
  | @loop index loop loopMove advance found steps =>
      refine lives.set rfl rfl fun notHeld => ?_
      cases steps.going.symm.trans (lives index loop found notHeld)
  | @receive index loop found filled =>
      exact lives.set rfl rfl fun notHeld => lives index loop found notHeld
  | @drop index loop found =>
      exact lives.set rfl rfl fun notHeld => lives index loop found notHeld
  | identify fid => exact lives
  | begin call idle => exact lives.begin call
  | finish waiting free => exact lives.finish free _

/-- At any time at most one loop of a bot goes on, the one that is held. -/
theorem run_onlyHeldLives {capacity : Nat} {identity : Option Fid} {moves : List Move}
    (reached : (Bot.new capacity identity).run moves = some bot) : OnlyHeldLives bot := by
  refine run_preserves OnlyHeldLives (by rintro _ _ ⟨⟩) ?_ reached
  intro move _ before after lives stepped
  exact lives.step stepped

theorem ended_of_step {move : Move} {index : Nat} {loop : Loop}
    (stepped : bot.step move = some next) (found : bot.loop? index = some loop)
    (ended : loop.phase.hasEnded = true) :
    ∃ after, next.loop? index = some after ∧ after.phase.hasEnded = true := by
  obtain ⟨after, foundAfter, sees⟩ := sees_of_step stepped found
  refine ⟨after, foundAfter, ?_⟩
  cases sees with
  | move steps => cases steps.going.symm.trans ended
  | _ => exact ended

theorem ended_of_run {moves : List Move} {index : Nat} {loop : Loop}
    (reached : bot.run moves = some next) (found : bot.loop? index = some loop)
    (ended : loop.phase.hasEnded = true) :
    ∃ after, next.loop? index = some after ∧ after.phase.hasEnded = true := by
  refine run_preserves (fun later => ∃ after, later.loop? index = some after ∧
    after.phase.hasEnded = true) ⟨loop, found, ended⟩ ?_ reached
  rintro move _ before after ⟨old, foundOld, oldEnded⟩ stepped
  exact ended_of_step stepped foundOld oldEnded

/-- Where a call took effect, each loop that was there before has ended for good. -/
theorem ended_of_finish {capacity index : Nat} {identity : Option Fid} {earlier later : List Move}
    {loop : Loop} (before : (Bot.new capacity identity).run earlier = some bot)
    (there : index < bot.loops.length) (after : bot.run (.finish :: later) = some next)
    (found : next.loop? index = some loop) : loop.phase.hasEnded = true := by
  obtain ⟨stopped, stepped, _⟩ := Option.bind_eq_some_iff.mp after
  have lives := run_onlyHeldLives before
  obtain ⟨old, foundOld⟩ : ∃ old, bot.loop? index = some old :=
    ⟨_, List.getElem?_eq_getElem there⟩
  have oldEnded : old.phase.hasEnded = true := by
    cases steps_of_step stepped with
    | finish waiting free => exact lives.ended free foundOld
  obtain ⟨last, foundLast, ended⟩ := ended_of_run after foundOld oldEnded
  cases found.symm.trans foundLast
  exact ended

theorem OnlyHeldLives.mirrors_start (lives : OnlyHeldLives bot) (free : bot.isFree = true)
    (since : Nat) :
    Mirrors (Course.begin bot.capacity since) bot.loops.length (bot.finish (.start since)) where
  loop := List.getElem?_concat_length
  cursor := rfl
  latest := List.length_append
  ended := by
    intro other before loop found
    simp only [Bot.finish, loop?, List.getElem?_append_left before] at found
    exact lives.ended free found
  held := fun other same => (Option.some.inj same).symm

/-- From its start until another loop is started, a loop of a bot has the course of a loop by
itself. So its record, its cursor and its channel are those of some course. -/
theorem exists_course {capacity : Nat} {identity : Option Fid} {before after : List Move}
    {started : Bot} {since : Nat} (reached : (Bot.new capacity identity).run before = some bot)
    (waiting : bot.waiting = some (.start since)) (stepped : bot.step .finish = some started)
    (reachedNext : started.run after = some next)
    (latest : next.loops.length = bot.loops.length + 1) :
    ∃ provider events later,
      (Course.begin bot.capacity since).run provider events = some later ∧
        Mirrors later bot.loops.length next := by
  cases steps_of_step stepped with
  | finish called free =>
      cases waiting.symm.trans called
      exact ((run_onlyHeldLives reached).mirrors_start free since).run reachedNext latest

end Lives

end PollHerald.Bot
