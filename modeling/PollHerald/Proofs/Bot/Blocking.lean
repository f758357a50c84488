import PollHerald.Proofs.Bot.Delivery
import PollHerald.Proofs.Hub.Steady

set_option autoImplicit false

/-! What a cast that cannot be written out does to the others. A poll brings all of its casts or
none, so one such cast keeps back all that are new together with it, and for as long as it is on
the page. -/

namespace PollHerald.Bot

open Hub (Answer Exchange Page RawCast Request Setting byTime newCasts writeOut)

/-- A loop that only meets failures stays where it started, and hands nothing over. -/
theorem Recorded.of_failures {provider : Provider} {start : Nat} {log : List Cycle}
    (recorded : Recorded provider start log)
    (fails : ∀ number < log.length, ∃ failure, provider number start = .error failure) :
    Course.cursorAfter start log = start ∧
      ∀ cycle ∈ log, PollResult.mentions cycle.result = [] := by
  induction recorded with
  | none => exact ⟨rfl, fun _ absent => nomatch absent⟩
  | @cycle latest earlier before whole number since result after handed ih =>
      obtain ⟨stays, nothing⟩ := ih fun number inside => fails number (Nat.lt_succ_of_lt inside)
      obtain ⟨failure, failed⟩ := fails latest.number (number ▸ Nat.lt_succ_self _)
      rw [stays] at since
      rw [since, failed] at result
      refine ⟨by rw [Course.cursorAfter, after, result, since, Loop.cursorAfter], ?_⟩
      refine List.forall_mem_cons.mpr ⟨?_, nothing⟩
      rw [result]
      rfl

section Poll

variable {identity : Identity} {answers : Request → Answer} (past : List Exchange) {page : Page}
variable {since : Nat}

theorem poll_fails (served : (answers (.castsByMention identity.fid)).Serves page)
    {cast : RawCast} {error : Hub.Error}
    (new : cast ∈ newCasts (Clock.toHub since) page.messages)
    (fails : writeOut answers identity.fid cast = .error error) :
    ∃ failure, (Setting.steady identity answers past).poll since = .error failure := by
  rcases Hub.all_succeed_or_one_fails (writeOut answers identity.fid)
      (byTime (newCasts (Clock.toHub since) page.messages)) with
    succeed | ⟨front, oldest, back, cause, split, succeed, oldestFails⟩
  · obtain ⟨mention, written⟩ := succeed cast ((Hub.byTime_perm _).symm.subset new)
    cases fails.symm.trans written
  · exact ⟨.hub cause, Hub.lastMentions_of_failing past served split succeed oldestFails⟩

theorem writable_of_poll (served : (answers (.castsByMention identity.fid)).Serves page)
    {batch : Hub.Batch}
    (succeeded : (Setting.steady identity answers past).poll since = .ok batch) :
    ∀ cast ∈ newCasts (Clock.toHub since) page.messages,
      ∃ mention, writeOut answers identity.fid cast = .ok mention := by
  intro cast new
  cases written : writeOut answers identity.fid cast with
  | ok mention => exact ⟨mention, rfl⟩
  | error error =>
      obtain ⟨failure, failed⟩ := poll_fails past served new written
      cases succeeded.symm.trans failed

theorem poll_of_writable (served : (answers (.castsByMention identity.fid)).Serves page)
    (succeed : ∀ cast ∈ newCasts (Clock.toHub since) page.messages,
      ∃ mention, writeOut answers identity.fid cast = .ok mention)
    (inRange : ∀ cast ∈ newCasts (Clock.toHub since) page.messages,
      cast.timestamp + Clock.epoch < Width.bound64)
    {cast : RawCast} {mention : Mention}
    (new : cast ∈ newCasts (Clock.toHub since) page.messages)
    (writable : writeOut answers identity.fid cast = .ok mention) :
    ∃ batch, (Setting.steady identity answers past).poll since = .ok batch ∧
      mention ∈ batch.mentions := by
  obtain ⟨batch, succeeded, each⟩ :=
    Hub.lastMentions_of_writable past served (List.ne_nil_of_mem new) inRange succeed
  obtain ⟨shown, inside, written⟩ := Hub.exists_partner each ((Hub.byTime_perm _).symm.subset new)
  cases writable.symm.trans written
  exact ⟨batch, succeeded, inside⟩

end Poll

/-- One cast that cannot be written out keeps back all others. A poll brings a cast that can be
written out only where that holds for all of them, and then it does. Else the oldest one that cannot
be written out decides how the poll fails. While each page has such a cast, the loop delivers
nothing and does not move its cursor. -/
theorem one_failing_cast_blocks_all {identity : Identity} {answers : Nat → Request → Answer}
    {pages : Nat → Page} (pasts : Nat → List Exchange)
    (served : ∀ number, (answers number (.castsByMention identity.fid)).Serves (pages number)) :
    (∀ number since, ∀ cast ∈ newCasts (Clock.toHub since) (pages number).messages, ∀ mention,
      writeOut (answers number) identity.fid cast = .ok mention →
        ((∃ batch, (Setting.steady identity (answers number) (pasts number)).poll since =
              .ok batch ∧ mention ∈ batch.mentions) →
          ∀ other ∈ newCasts (Clock.toHub since) (pages number).messages,
            ∃ shown, writeOut (answers number) identity.fid other = .ok shown) ∧
        ((∀ other ∈ newCasts (Clock.toHub since) (pages number).messages,
            ∃ shown, writeOut (answers number) identity.fid other = .ok shown) →
          (∀ other ∈ newCasts (Clock.toHub since) (pages number).messages,
            other.timestamp + Clock.epoch < Width.bound64) →
          ∃ batch, (Setting.steady identity (answers number) (pasts number)).poll since =
            .ok batch ∧ mention ∈ batch.mentions)) ∧
      (∀ number since front cast back error,
        byTime (newCasts (Clock.toHub since) (pages number).messages) = front ++ cast :: back →
        (∀ earlier ∈ front, ∃ mention,
          writeOut (answers number) identity.fid earlier = .ok mention) →
        writeOut (answers number) identity.fid cast = .error error →
          (Setting.steady identity (answers number) (pasts number)).poll since =
            .error (.hub error)) ∧
      ∀ capacity start events course,
        (Course.begin capacity start).run (pollHub fun number =>
          .steady identity (answers number) (pasts number)) events = some course →
        (∀ number < course.log.length,
          ∃ cast ∈ newCasts (Clock.toHub start) (pages number).messages,
            ∃ error, writeOut (answers number) identity.fid cast = .error error) →
          course.cursor = start ∧ course.delivered = [] := by
  refine ⟨?_, ?_, ?_⟩
  · intro number since cast new mention writable
    refine ⟨?_, ?_⟩
    · rintro ⟨batch, succeeded, _⟩
      exact writable_of_poll (pasts number) (served number) succeeded
    · intro succeed inRange
      exact poll_of_writable (pasts number) (served number) succeed inRange new writable
  · intro number since front cast back error split succeed fails
    exact Hub.lastMentions_of_failing (pasts number) (served number) split succeed fails
  · intro capacity start events course reached blocked
    have consistent := Course.run_consistent reached
    obtain ⟨stays, nothing⟩ := consistent.recorded.of_failures fun number inside => by
      obtain ⟨cast, new, error, fails⟩ := blocked number inside
      exact poll_fails (pasts number) (served number) new fails
    refine ⟨consistent.cursor.trans stays, List.flatMap_eq_nil_iff.mpr ?_⟩
    intro cycle member
    have inLog := List.mem_reverse.mp member
    exact List.prefix_nil.mp (nothing cycle inLog ▸ consistent.recorded.handed_prefix inLog)

/-- A page with a cast that can be written out, and one with a place for a mention that it does not
have. -/
def blockedPage : String :=
  "[[[[\"MESSAGE_TYPE_CAST_ADD\",20,100,[\"hi\",[],[],null],null],\"0x01\",\"\"]," ++
  "[[\"MESSAGE_TYPE_CAST_ADD\",21,105,[\"yo\",[],[0],null],null],\"0x02\",\"\"]],null]"

set_option maxRecDepth 10000 in
/-- Two cycles meet the page, and the loop is where it was. -/
theorem blockedPage_blocks_all :
    ∃ course, (Course.begin 1 50).run (pollHub fun _ =>
        .steady Hub.sampleIdentity (Answer.staged blockedPage) [])
          [.tick, .poll, .answer, .tick, .poll, .answer] = some course ∧
      course.log.length = 2 ∧ course.cursor = 50 ∧ course.delivered = [] := by
  obtain ⟨page, served, failing⟩ : ∃ page,
      (Answer.staged blockedPage (.castsByMention 7)).Serves page ∧
      (newCasts (Clock.toHub 50) page.messages).any (fun cast =>
        !(writeOut (Answer.staged blockedPage) 7 cast).isOk) = true :=
    ⟨_, ⟨blockedPage, rfl, by cbv⟩, by cbv⟩
  obtain ⟨course, reached, size⟩ : ∃ course, (Course.begin 1 50).run (pollHub fun _ =>
        .steady Hub.sampleIdentity (Answer.staged blockedPage) [])
          [.tick, .poll, .answer, .tick, .poll, .answer] = some course ∧ course.log.length = 2 :=
    ⟨_, by cbv, by cbv⟩
  have blocked : ∃ cast ∈ newCasts (Clock.toHub 50) page.messages,
      ∃ error, writeOut (Answer.staged blockedPage) 7 cast = .error error := by
    obtain ⟨cast, new, fails⟩ := List.any_eq_true.mp failing
    refine ⟨cast, new, ?_⟩
    cases written : writeOut (Answer.staged blockedPage) 7 cast with
    | ok mention =>
        rw [written] at fails
        cases fails
    | error error => exact ⟨error, rfl⟩
  have blocks := (one_failing_cast_blocks_all (fun _ => []) (fun _ => served)).2.2 1 50 _ course
    reached (fun _ _ => blocked)
  exact ⟨course, reached, size, blocks⟩

set_option maxRecDepth 10000 in
/-- A cast that can be written out may be kept back by another one. -/
theorem not_every_writable_cast_is_brought :
    ¬∀ (identity : Identity) (answers : Request → Answer) (past : List Exchange) (page : Page)
        (since : Nat) (cast : RawCast) (mention : Mention),
      (answers (.castsByMention identity.fid)).Serves page →
      cast ∈ newCasts (Clock.toHub since) page.messages →
      writeOut answers identity.fid cast = .ok mention →
      ∃ batch, (Setting.steady identity answers past).poll since = .ok batch ∧
        mention ∈ batch.mentions := by
  intro allBrought
  obtain ⟨page, cast, mention, served, new, writable⟩ : ∃ page cast mention,
      (Answer.staged blockedPage (.castsByMention 7)).Serves page ∧
      (newCasts (Clock.toHub 50) page.messages).head? = some cast ∧
      writeOut (Answer.staged blockedPage) 7 cast = .ok mention :=
    ⟨_, _, _, ⟨blockedPage, rfl, by cbv⟩, by cbv, by cbv⟩
  have failed : (Setting.steady Hub.sampleIdentity (Answer.staged blockedPage) []).poll 50 =
      .error (.hub (.mention (.count 1 0))) := by cbv
  obtain ⟨batch, succeeded, _⟩ := allBrought Hub.sampleIdentity (Answer.staged blockedPage) [] page
    50 cast mention served (List.mem_of_mem_head? new) writable
  cases failed.symm.trans succeeded

end PollHerald.Bot
