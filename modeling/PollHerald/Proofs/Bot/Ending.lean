import PollHerald.Proofs.Bot.Delivery

set_option autoImplicit false

/-! What a loop that has ended leaves behind. A cycle moves the cursor before it hands anything
over, so where the receiver is dropped in the middle of a batch, the cursor has passed what is left
of that batch. In all other ways to end, nothing is left. -/

namespace PollHerald.Bot

open Hub (Setting)

theorem Loop.cursorAfter_lt_iff (cursor bound : Nat) (result : PollResult) :
    cursorAfter cursor result < bound ↔
      cursor < bound ∧ ∀ batch, result = .ok batch → batch.next < bound := by
  cases result with
  | ok batch =>
      constructor
      · intro below
        obtain ⟨old, new⟩ := Nat.max_lt.mp below
        refine ⟨old, ?_⟩
        rintro _ ⟨⟩
        exact new
      · rintro ⟨old, new⟩
        exact Nat.max_lt.mpr ⟨old, new batch rfl⟩
  | error failure =>
      constructor
      · intro below
        exact ⟨below, nofun⟩
      · exact And.left

section Record

variable {provider : Provider} {start : Nat} {log : List Cycle}

/-- The cursor is the greatest of the one at the start and of those that the polls brought. -/
theorem Recorded.cursorAfter_lt_iff (recorded : Recorded provider start log) (bound : Nat) :
    Course.cursorAfter start log < bound ↔
      start < bound ∧ ∀ cycle ∈ log, ∀ batch, cycle.result = .ok batch → batch.next < bound := by
  induction recorded with
  | none => simp only [Course.cursorAfter, List.not_mem_nil, false_implies, implies_true, and_true]
  | cycle before whole number since result after handed ih =>
      rw [Course.cursorAfter, after, Loop.cursorAfter_lt_iff, since, ih, List.forall_mem_cons]
      exact and_assoc.trans (and_congr_right' and_comm)

/-- Only the latest cycle can have handed over less than its batch. -/
theorem Recorded.latest_of_partial (recorded : Recorded provider start log) {cycle : Cycle}
    (member : cycle ∈ log) (part : cycle.handed ≠ PollResult.mentions cycle.result) :
    log.head? = some cycle := by
  cases recorded with
  | none => cases member
  | cycle before whole number since result after handed =>
      rcases List.mem_cons.mp member with rfl | earlier
      · rfl
      · exact absurd (whole cycle earlier) part

end Record

namespace Course

variable {provider : Provider} {course next : Course}

/-- A loop whose receiver is there. -/
structure Attended (course : Course) : Prop where
  isOpen : course.loop.channel.isOpen = true
  kept : course.loop.phase ≠ .ended .abandoned

theorem Attended.move {move : Loop.Move} (attended : course.Attended)
    (moved : course.move move = some next) : next.Attended := by
  obtain ⟨advance, steps, rfl⟩ := (move_eq_some_iff course next move).mp moved
  cases steps with
  | heed resting told => exact ⟨attended.isOpen, nofun⟩
  | tick resting untold => exact ⟨attended.isOpen, nofun⟩
  | poll ticked => exact ⟨attended.isOpen, nofun⟩
  | @take since result polling =>
      refine ⟨attended.isOpen, ?_⟩
      cases result with
      | ok batch => exact Phase.handingOver_ne_ended _ _
      | error failure => cases failure <;> exact nofun
  | abandon sending closed => cases attended.isOpen.symm.trans closed
  | send sending isOpen hasRoom => exact ⟨isOpen, Phase.handingOver_ne_ended _ _⟩

theorem Attended.step {event : Event} (attended : course.Attended) (noDrop : event ≠ .drop)
    (stepped : course.step provider event = some next) : next.Attended := by
  cases change_of_step stepped with
  | move brought moved => exact attended.move moved
  | outside cursor log phase told isOpen =>
      refine ⟨?_, ?_⟩
      · rw [isOpen noDrop]
        exact attended.isOpen
      · rw [phase]
        exact attended.kept

theorem begin_attended (capacity start : Nat) : (begin capacity start).Attended where
  isOpen := rfl
  kept := fun abandoned => nomatch abandoned

/-- Nobody but a receiver that is dropped makes a loop give up. -/
theorem drop_of_abandoned {capacity start : Nat} {events : List Event}
    (reached : (begin capacity start).run provider events = some course)
    (abandoned : course.loop.phase = .ended .abandoned) : .drop ∈ events := by
  by_cases dropped : .drop ∈ events
  · exact dropped
  · have attended : course.Attended := by
      refine run_preserves (begin_attended capacity start) ?_ reached
      intro event member before after attended stepped
      exact attended.step (fun same => dropped (same ▸ member)) stepped
    exact absurd abandoned attended.kept

end Course

/-- What a loop that has ended did not hand over, and where its cursor stands. Of every batch a front
part was handed over, and all of it unless the receiver was dropped and the batch is the last one.
The cursor is the greatest of the one at the start and of those that the polls brought, so what is
left of the batch is after it only if it is after all of them. Over a hub nothing is, and no poll
from the cursor on brings any of it again. -/
theorem ended_loop_leaves_rest {provider : Provider} {capacity start : Nat} {events : List Event}
    {course : Course} {ending : Ending}
    (reached : (Course.begin capacity start).run provider events = some course)
    (ended : course.loop.phase = .ended ending) :
    (∀ cycle ∈ course.log, cycle.handed <+: PollResult.mentions cycle.result ∧
      (cycle.handed ≠ PollResult.mentions cycle.result →
        ending = .abandoned ∧ .drop ∈ events ∧ course.log.head? = some cycle)) ∧
      (∀ time, course.cursor < time ↔
        start < time ∧ ∀ cycle ∈ course.log, ∀ batch, cycle.result = .ok batch →
          batch.next < time) ∧
      ∀ settings, provider = pollHub settings →
        ∀ cycle ∈ course.log, ∀ mention ∈ PollResult.mentions cycle.result,
          mention.timestamp + Clock.epoch ≤ course.cursor ∧
          ∀ (again : Setting) since batch, course.cursor ≤ since → again.poll since = .ok batch →
            mention ∉ batch.mentions := by
  have consistent := Course.run_consistent reached
  have recorded := consistent.recorded
  refine ⟨?_, ?_, ?_⟩
  · intro cycle member
    refine ⟨recorded.handed_prefix member, fun part => ?_⟩
    have abandoned : course.loop.phase = .ended .abandoned := by
      by_cases served : course.loop.phase = .ended .abandoned
      · exact served
      · have whole := consistent.whole served (by rw [ended]; rfl) cycle member
        exact absurd whole part
    have dropped := Course.drop_of_abandoned reached abandoned
    cases ended.symm.trans abandoned
    exact ⟨rfl, dropped, recorded.latest_of_partial member part⟩
  · intro time
    rw [consistent.cursor]
    exact recorded.cursorAfter_lt_iff time
  · rintro settings rfl cycle member mention brought
    have passed := recorded.reached (pollHub_follows settings) cycle member mention brought
    rw [← consistent.cursor] at passed
    refine ⟨passed, fun again since batch notBefore succeeded inBatch => ?_⟩
    have later := (Setting.poll_follows succeeded).later mention inBatch
    have sameTime := Clock.le_toHub (Nat.le_trans passed notBefore)
    exact Nat.lt_irrefl _ (Nat.lt_of_le_of_lt sameTime later)

/-- A hub with a page of three casts that does not change. -/
def threeCastHub : Nat → Setting := fun _ =>
  .steady Hub.sampleIdentity (Hub.Answer.staged grownPage) []

set_option maxRecDepth 10000 in
/-- A receiver that takes one of three mentions and is dropped then. -/
theorem threeCastHub_leaves_rest :
    ∃ course, (Course.begin 1 0).run (pollHub threeCastHub)
        [.tick, .poll, .answer, .send, .receive, .drop, .send] = some course ∧
      course.loop.phase = .ended .abandoned ∧
      course.delivered.map Mention.timestamp = [100] ∧
      ∃ cycle ∈ course.log, cycle.handed <+: PollResult.mentions cycle.result ∧
        ∃ mention ∈ PollResult.mentions cycle.result, mention.timestamp = 103 ∧
          mention.timestamp + Clock.epoch ≤ course.cursor := by
  obtain ⟨course, cycle, mention, reached, ended, stream, latest, brought, time⟩ :
      ∃ course cycle mention, (Course.begin 1 0).run (pollHub threeCastHub)
        [.tick, .poll, .answer, .send, .receive, .drop, .send] = some course ∧
      course.loop.phase = .ended .abandoned ∧
      course.delivered.map Mention.timestamp = [100] ∧ course.log.head? = some cycle ∧
      (PollResult.mentions cycle.result)[1]? = some mention ∧ mention.timestamp = 103 :=
    ⟨_, _, _, by cbv, by cbv, by cbv, by cbv, by cbv, by cbv⟩
  have member := List.mem_of_mem_head? latest
  have inBatch := List.mem_of_getElem? brought
  obtain ⟨handed, _, passed⟩ := ended_loop_leaves_rest reached ended
  exact ⟨course, reached, ended, stream, cycle, member, (handed cycle member).1, mention, inBatch,
    time, (passed threeCastHub rfl cycle member mention inBatch).1⟩

set_option maxRecDepth 10000 in
/-- A mention that was not handed over can be behind the cursor. -/
theorem cursor_passes_undelivered :
    ¬∀ (provider : Provider) (capacity start : Nat) (events : List Event) (course : Course)
        (ending : Ending),
      (Course.begin capacity start).run provider events = some course →
      course.loop.phase = .ended ending →
      ∀ cycle ∈ course.log, ∀ mention ∈ PollResult.mentions cycle.result,
        mention ∈ cycle.handed ∨ course.cursor < mention.timestamp + Clock.epoch := by
  intro allKept
  obtain ⟨course, cycle, mention, reached, ended, latest, handed, brought, passed⟩ :
      ∃ course cycle mention, (Course.begin 1 0).run (pollHub threeCastHub)
        [.tick, .poll, .answer, .drop, .send] = some course ∧
      course.loop.phase = .ended .abandoned ∧ course.log.head? = some cycle ∧
      cycle.handed = [] ∧ (PollResult.mentions cycle.result).head? = some mention ∧
      mention.timestamp + Clock.epoch < course.cursor :=
    ⟨_, _, _, by cbv, by cbv, by cbv, by cbv, by cbv, by cbv⟩
  rcases allKept _ 1 0 _ course .abandoned reached ended cycle (List.mem_of_mem_head? latest)
      mention (List.mem_of_mem_head? brought) with kept | ahead
  · rw [handed] at kept
    cases kept
  · exact Nat.lt_asymm passed ahead

end PollHerald.Bot
