import PollHerald.Proofs.Bot.Delivery
import PollHerald.Proofs.Hub.Overflow

set_option autoImplicit false

/-! What ends a loop. Neither an error of the hub nor anything that its pages say does, but for one
thing: a cast later than the Unix clock can tell breaks the loop, and nothing polls any more. -/

namespace PollHerald.Bot

open Hub (Answer Batch Page Setting)

namespace Course

theorem map_result_credit (mentions : List Mention) (log : List Cycle) :
    (credit mentions log).map Cycle.result = log.map Cycle.result := by
  cases log <;> rfl

/-- The loop is broken, or not, as its record says. -/
def TellsBreak (course : Course) : Prop :=
  course.loop.phase = .ended .broken ↔ .error .clockOverflow ∈ course.log.map Cycle.result

/-- Nobody told the loop to shut down or left it without a receiver, and it has not ended but by
itself. -/
structure Undisturbed (course : Course) : Prop where
  untold : course.loop.isSignalled = false
  isOpen : course.loop.channel.isOpen = true
  broken : ∀ ending, course.loop.phase = .ended ending → ending = .broken

section Steps

variable {provider : Provider} {course next : Course}

theorem begin_tellsBreak (capacity start : Nat) : (begin capacity start).TellsBreak := by
  constructor
  · intro broken
    cases broken
  · intro absent
    cases absent

/-- A loop that goes on, or ends otherwise, puts nothing on record that breaks a loop. -/
private theorem TellsBreak.of_unbroken (tells : course.TellsBreak)
    (before : course.loop.phase ≠ .ended .broken) (after : next.loop.phase ≠ .ended .broken)
    (sameResults : next.log.map Cycle.result = course.log.map Cycle.result) :
    next.TellsBreak := by
  unfold TellsBreak
  rw [sameResults]
  constructor
  · intro broken
    exact absurd broken after
  · intro recorded
    exact absurd (tells.mpr recorded) before

theorem move_tellsBreak {move : Loop.Move} (tells : course.TellsBreak)
    (moved : course.move move = some next) : next.TellsBreak := by
  obtain ⟨advance, steps, rfl⟩ := (move_eq_some_iff course next move).mp moved
  cases steps with
  | heed resting told =>
      exact tells.of_unbroken (resting ▸ Phase.noConfusion) (by simp) (map_result_credit _ _)
  | tick resting untold =>
      exact tells.of_unbroken (resting ▸ Phase.noConfusion) (by simp) (map_result_credit _ _)
  | poll ticked =>
      exact tells.of_unbroken (ticked ▸ Phase.noConfusion) (by simp) (map_result_credit _ _)
  | @take since result polling =>
      have unrecorded : .error .clockOverflow ∉ course.log.map Cycle.result := by
        intro recorded
        cases polling.symm.trans (tells.mpr recorded)
      unfold TellsBreak
      rw [map_result_credit]
      simp only [enter, polling, List.map_cons, List.mem_cons, unrecorded, or_false]
      rw [Loop.phaseAfter_eq_broken_iff, eq_comm]
  | abandon sending closed =>
      exact tells.of_unbroken (sending ▸ Phase.noConfusion) (by simp) (map_result_credit _ _)
  | send sending isOpen hasRoom =>
      exact tells.of_unbroken (sending ▸ Phase.noConfusion)
        (Phase.handingOver_ne_ended _ _) (map_result_credit _ _)

theorem step_tellsBreak {event : Event} (tells : course.TellsBreak)
    (stepped : course.step provider event = some next) : next.TellsBreak := by
  cases change_of_step stepped with
  | move brought moved => exact move_tellsBreak tells moved
  | outside cursor log phase told isOpen =>
      unfold TellsBreak
      rw [phase, log]
      exact tells

theorem begin_undisturbed (capacity start : Nat) : (begin capacity start).Undisturbed where
  untold := rfl
  isOpen := rfl
  broken := fun _ ended => nomatch ended

theorem move_undisturbed {move : Loop.Move} (undisturbed : course.Undisturbed)
    (moved : course.move move = some next) : next.Undisturbed := by
  obtain ⟨advance, steps, rfl⟩ := (move_eq_some_iff course next move).mp moved
  cases steps with
  | heed resting told => cases undisturbed.untold.symm.trans told
  | tick resting untold =>
      exact ⟨untold, undisturbed.isOpen, fun _ ended => nomatch ended⟩
  | poll ticked =>
      exact ⟨undisturbed.untold, undisturbed.isOpen, fun _ ended => nomatch ended⟩
  | @take since result polling =>
      refine ⟨undisturbed.untold, undisturbed.isOpen, ?_⟩
      intro ending ended
      cases result with
      | ok batch => exact absurd ended (Phase.handingOver_ne_ended _ _)
      | error failure =>
          cases failure with
          | hub error => cases ended
          | clockOverflow =>
              cases ended
              rfl
  | abandon sending closed => cases undisturbed.isOpen.symm.trans closed
  | send sending isOpen hasRoom =>
      refine ⟨undisturbed.untold, isOpen, ?_⟩
      intro ending ended
      exact absurd ended (Phase.handingOver_ne_ended _ _)

theorem step_undisturbed {event : Event} (undisturbed : course.Undisturbed)
    (noSignal : event ≠ .signal) (noDrop : event ≠ .drop)
    (stepped : course.step provider event = some next) : next.Undisturbed := by
  cases change_of_step stepped with
  | move brought moved => exact move_undisturbed undisturbed moved
  | outside cursor log phase told isOpen =>
      refine ⟨?_, ?_, ?_⟩
      · rw [told noSignal]
        exact undisturbed.untold
      · rw [isOpen noDrop]
        exact undisturbed.isOpen
      · rw [phase]
        exact undisturbed.broken

end Steps

section Run

variable {provider : Provider} {capacity start : Nat} {events : List Event} {course : Course}

theorem run_tellsBreak (reached : (begin capacity start).run provider events = some course) :
    course.TellsBreak := by
  refine run_preserves (begin_tellsBreak capacity start) ?_ reached
  intro event _ before after tells stepped
  exact step_tellsBreak tells stepped

theorem run_undisturbed (noSignal : .signal ∉ events) (noDrop : .drop ∉ events)
    (reached : (begin capacity start).run provider events = some course) :
    course.Undisturbed := by
  refine run_preserves (begin_undisturbed capacity start) ?_ reached
  intro event member before after undisturbed stepped
  exact step_undisturbed undisturbed (fun same => noSignal (same ▸ member))
    (fun same => noDrop (same ▸ member)) stepped

end Run

end Course

/-- What breaks a loop over a hub, whatever the hub answers in any cycle. A poll breaks off only for
a cast that is later than the Unix clock can tell, and then only where all of its casts can be
written out. Any other poll has an error of the hub, or a cursor that is the Unix time of its newest
cast. A loop is broken by the first poll that breaks off, and a loop that nobody ends goes on until
then. -/
theorem loop_breaks_on_unfit_cast {settings : Nat → Setting} {capacity start : Nat}
    {events : List Event} {course : Course}
    (reached : (Course.begin capacity start).run (pollHub settings) events = some course) :
    (∀ (setting : Setting) since,
      (setting.poll since = .error .clockOverflow ↔ setting.MeetsUnfitCast since) ∧
      ∀ batch, setting.poll since = .ok batch →
        batch.next < Width.bound64 ∧ ∃ own page, setting.Serves own page ∧
          ∃ newest ∈ page.kept since, batch.next = newest.timestamp + Clock.epoch ∧
            ∀ message ∈ page.kept since, message.timestamp ≤ newest.timestamp) ∧
      (course.loop.phase = .ended .broken ↔
        ∃ cycle ∈ course.log, (settings cycle.number).MeetsUnfitCast cycle.since) ∧
      (.signal ∉ events → .drop ∉ events →
        ∀ ending, course.loop.phase = .ended ending → ending = .broken) := by
  refine ⟨?_, ?_, ?_⟩
  · intro setting since
    refine ⟨setting.poll_clockOverflow_iff since, ?_⟩
    intro batch succeeded
    obtain ⟨own, page, served⟩ := Setting.serves_of_poll succeeded
    exact ⟨Setting.next_lt_of_poll succeeded, own, page, served,
      (Setting.poll_shows served succeeded).next⟩
  · have recorded := (Course.run_consistent reached).recorded
    have tells := Course.run_tellsBreak reached
    unfold Course.TellsBreak at tells
    rw [tells, List.mem_map]
    constructor
    · intro found
      obtain ⟨cycle, member, broke⟩ := found
      have polled : (settings cycle.number).poll cycle.since = .error .clockOverflow :=
        (recorded.result_eq member).symm.trans broke
      exact ⟨cycle, member, (Setting.poll_clockOverflow_iff _ _).mp polled⟩
    · intro met
      obtain ⟨cycle, member, meets⟩ := met
      have polled := (Setting.poll_clockOverflow_iff _ _).mpr meets
      exact ⟨cycle, member, (recorded.result_eq member).trans polled⟩
  · intro noSignal noDrop
    exact (Course.run_undisturbed noSignal noDrop reached).broken

/-- A page with a cast of the last time that the Unix clock can tell. -/
def latestPage : String :=
  "[[[[\"MESSAGE_TYPE_CAST_ADD\",20,18446744072100092415,[\"hi\",[],[],null],null],\"0x01\",\"\"]]," ++
  "null]"

/-- A page with a cast of the second after it. -/
def unfitPage : String :=
  "[[[[\"MESSAGE_TYPE_CAST_ADD\",20,18446744072100092416,[\"hi\",[],[],null],null],\"0x01\",\"\"]]," ++
  "null]"

/-- A hub that has the one page first, and then the other. -/
def overtakingHub (number : Nat) : Setting :=
  .steady Hub.sampleIdentity (Answer.staged (if number = 0 then latestPage else unfitPage)) []

set_option maxRecDepth 10000 in
/-- The cursor reaches its greatest value, and the cast after it breaks the loop. -/
theorem overtakingHub_breaks_loop :
    ∃ course, (Course.begin 1 0).run (pollHub overtakingHub)
        [.tick, .poll, .answer, .send, .tick, .poll, .answer] = some course ∧
      course.cursor = 18446744073709551615 ∧ course.loop.phase = .ended .broken ∧
      ∃ cycle ∈ course.log, (overtakingHub cycle.number).MeetsUnfitCast cycle.since := by
  obtain ⟨course, reached, cursor, broken⟩ : ∃ course,
      (Course.begin 1 0).run (pollHub overtakingHub)
        [.tick, .poll, .answer, .send, .tick, .poll, .answer] = some course ∧
      course.cursor = 18446744073709551615 ∧ course.loop.phase = .ended .broken :=
    ⟨_, by cbv, by cbv, by cbv⟩
  exact ⟨course, reached, cursor, broken, (loop_breaks_on_unfit_cast reached).2.1.mp broken⟩

set_option maxRecDepth 10000 in
/-- An answer of the hub can end the loop: one page with a time that fits its 64 bits is enough. -/
theorem one_answer_breaks_loop :
    (∃ page, (overtakingHub 1).Serves 7 page ∧
      page.messages.map Hub.Message.timestamp = [18446744072100092416] ∧
      18446744072100092416 < Width.bound64) ∧
    (overtakingHub 1).poll 0 = .error .clockOverflow ∧
    ∃ course, (Course.begin 1 0).run (pollHub fun _ => overtakingHub 1) [.tick, .poll, .answer] =
      some course ∧ course.loop.phase = .ended .broken := by
  have served : (overtakingHub 1).Serves 7 _ :=
    ⟨Hub.sampleIdentity, rfl, rfl, unfitPage, rfl, by cbv⟩
  exact ⟨⟨_, served, by cbv, by decide⟩, by cbv, _, by cbv, by cbv⟩

end PollHerald.Bot
