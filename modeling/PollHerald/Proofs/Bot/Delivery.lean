import PollHerald.Proofs.Bot.Course
import PollHerald.Proofs.Hub.Poll

set_option autoImplicit false

/-! The stream of mentions that a loop over a hub hands over. Whatever the hub answers, the stream
goes by time, no later cycle comes back to the time of an earlier batch, and every batch moves the
cursor on. -/

namespace PollHerald.Bot

open Hub (Batch)

/-- A provider whose batches lie after the cursor that was polled for. -/
def Provider.Follows (provider : Provider) : Prop :=
  ∀ number since batch, provider number since = .ok batch → batch.Follows since

/-- The provider that polls a hub. What a cycle meets may be anything. -/
def pollHub (settings : Nat → Hub.Setting) : Provider :=
  fun number since => (settings number).poll since

theorem pollHub_follows (settings : Nat → Hub.Setting) : (pollHub settings).Follows :=
  fun _ _ _ succeeds => Hub.Setting.poll_follows succeeds

section Record

variable {provider : Provider} {start : Nat} {log : List Cycle}

theorem Recorded.after_of_ok (recorded : Recorded provider start log)
    (follows : provider.Follows) {cycle : Cycle} {batch : Batch} (member : cycle ∈ log)
    (succeeded : cycle.result = .ok batch) :
    batch.Follows cycle.since ∧ cycle.after = batch.next := by
  have following := follows _ _ _ ((recorded.result_eq member).symm.trans succeeded)
  refine ⟨following, ?_⟩
  rw [recorded.after_eq member, succeeded, Loop.cursorAfter,
    Nat.max_eq_right (Nat.le_of_lt following.advances)]

/-- The cursor has reached all that was brought. -/
theorem Recorded.reached (recorded : Recorded provider start log) (follows : provider.Follows) :
    ∀ cycle ∈ log, ∀ mention ∈ PollResult.mentions cycle.result,
      mention.timestamp + Clock.epoch ≤ Course.cursorAfter start log := by
  induction recorded with
  | none => exact fun _ absent => nomatch absent
  | @cycle latest earlier before whole number since result after handed ih =>
      intro cycle member mention brought
      rw [Course.cursorAfter, after]
      rcases List.mem_cons.mp member with rfl | member
      · obtain ⟨batch, succeeded, inBatch⟩ := PollResult.exists_batch brought
        have following := follows _ _ _ (result.symm.trans succeeded)
        rw [succeeded]
        exact Nat.le_trans (following.reached mention inBatch) (Nat.le_max_right _ _)
      · have earlierReach := ih cycle member mention brought
        rw [← since] at earlierReach
        exact Nat.le_trans earlierReach (Loop.le_cursorAfter _ _)

/-- What a cycle hands over is later than all that earlier cycles were brought. -/
theorem Recorded.strictly_later (recorded : Recorded provider start log)
    (follows : provider.Follows) :
    log.Pairwise fun later earlier => ∀ old ∈ PollResult.mentions earlier.result,
      ∀ new ∈ later.handed, old.timestamp < new.timestamp := by
  induction recorded with
  | none => exact .nil
  | @cycle latest earlier before whole number since result after handed ih =>
      refine .cons ?_ ih
      intro cycle member old brought new handedNew
      have reached := before.reached follows cycle member old brought
      rw [← since] at reached
      obtain ⟨batch, succeeded, inBatch⟩ := PollResult.exists_batch (handed.subset handedNew)
      have following := follows _ _ _ (result.symm.trans succeeded)
      exact Nat.lt_of_le_of_lt (Clock.le_toHub reached) (following.later new inBatch)

theorem Recorded.handed_ascending (recorded : Recorded provider start log)
    (follows : provider.Follows) {cycle : Cycle} (member : cycle ∈ log) :
    cycle.handed.Pairwise fun earlier later => earlier.timestamp ≤ later.timestamp := by
  refine List.Pairwise.sublist (recorded.handed_prefix member).sublist ?_
  cases outcome : cycle.result with
  | error failure => exact .nil
  | ok batch => exact (recorded.after_of_ok follows member outcome).1.ascending

theorem Course.Consistent.delivered_ascending {course : Course}
    (consistent : course.Consistent provider start) (follows : provider.Follows) :
    course.delivered.Pairwise fun earlier later => earlier.timestamp ≤ later.timestamp := by
  unfold Course.delivered
  rw [List.pairwise_flatMap]
  constructor
  · intro cycle member
    exact consistent.recorded.handed_ascending follows (List.mem_reverse.mp member)
  · rw [List.pairwise_reverse]
    have apart := consistent.recorded.strictly_later follows
    refine apart.imp_of_mem ?_
    intro later earlier _ earlierMem strict old oldMem new newMem
    have brought := (consistent.recorded.handed_prefix earlierMem).subset oldMem
    exact Nat.le_of_lt (strict old brought new newMem)

end Record

/-- The order in which a loop over a hub delivers, whatever the hub answers in any cycle. -/
theorem run_delivers_by_time {settings : Nat → Hub.Setting} {capacity start : Nat}
    {events : List Event} {course : Course}
    (reached : (Course.begin capacity start).run (pollHub settings) events = some course) :
    (course.delivered.Pairwise fun earlier later => earlier.timestamp ≤ later.timestamp) ∧
      (course.log.Pairwise fun later earlier => ∀ old ∈ PollResult.mentions earlier.result,
        ∀ new ∈ later.handed, old.timestamp < new.timestamp ∧
          ∀ own (message : Hub.Message), message.ShownAs own old → ¬message.ShownAs own new) ∧
      ∀ cycle ∈ course.log, ∀ batch, cycle.result = .ok batch →
        cycle.since < cycle.after ∧ cycle.after = batch.next ∧
        ∃ own page, (settings cycle.number).Serves own page ∧
          ∀ again : Hub.Setting, again.Serves own page →
            again.poll batch.next = .error (.hub .noNewCasts) := by
  have consistent := Course.run_consistent reached
  have follows := pollHub_follows settings
  refine ⟨consistent.delivered_ascending follows, ?_, ?_⟩
  · refine (consistent.recorded.strictly_later follows).imp ?_
    intro later earlier strict old brought new handed
    have apart := strict old brought new handed
    refine ⟨apart, fun own message shownOld shownNew => ?_⟩
    rw [Hub.Message.timestamp_of_shownAs shownOld, Hub.Message.timestamp_of_shownAs shownNew]
      at apart
    exact Nat.lt_irrefl _ apart
  · intro cycle member batch succeeded
    obtain ⟨following, after⟩ := consistent.recorded.after_of_ok follows member succeeded
    have polled : (settings cycle.number).poll cycle.since = .ok batch :=
      (consistent.recorded.result_eq member).symm.trans succeeded
    obtain ⟨own, page, served⟩ := Hub.Setting.serves_of_poll polled
    exact ⟨after ▸ following.advances, after, own, page, served,
      fun _ unchanged => Hub.Setting.poll_next served polled unchanged⟩

/-- A page with a cast of the time 100. -/
def firstPage : String :=
  "[[[[\"MESSAGE_TYPE_CAST_ADD\",20,100,[\"hi\",[],[],null],null],\"0x01\",\"\"]],null]"

/-- The same page with casts of the times 105 and 103 behind it. -/
def grownPage : String :=
  "[[[[\"MESSAGE_TYPE_CAST_ADD\",20,100,[\"hi\",[],[],null],null],\"0x01\",\"\"]," ++
  "[[\"MESSAGE_TYPE_CAST_ADD\",21,105,[\"yo\",[],[],null],null],\"0x02\",\"\"]," ++
  "[[\"MESSAGE_TYPE_CAST_ADD\",22,103,[\"hey\",[],[],null],null],\"0x03\",\"\"]],null]"

/-- A hub that has a page, then cannot be reached, and then has a longer page. -/
def recoveringHub (number : Nat) : Hub.Setting :=
  { identity := some Hub.sampleIdentity
    hub := fun _ => match number with
      | 0 => Hub.Answer.staged firstPage
      | 1 => fun _ => .unreachable
      | _ => Hub.Answer.staged grownPage
    past := [] }

set_option maxRecDepth 10000 in
theorem recoveringHub_delivers_by_time :
    ∃ course, (Course.begin 1 0).run (pollHub recoveringHub)
        [.tick, .poll, .answer, .send, .tick, .poll, .answer, .receive, .tick, .poll, .answer,
          .send, .receive, .send] = some course ∧
      course.delivered.map Mention.timestamp = [100, 103, 105] ∧
      course.delivered.Pairwise fun earlier later => earlier.timestamp ≤ later.timestamp := by
  obtain ⟨course, reached, stream⟩ : ∃ course,
      (Course.begin 1 0).run (pollHub recoveringHub)
        [.tick, .poll, .answer, .send, .tick, .poll, .answer, .receive, .tick, .poll, .answer,
          .send, .receive, .send] = some course ∧ course.delivered.map Mention.timestamp = [100, 103, 105] :=
    ⟨_, by cbv, by cbv⟩
  exact ⟨course, reached, stream, (run_delivers_by_time reached).1⟩

end PollHerald.Bot
