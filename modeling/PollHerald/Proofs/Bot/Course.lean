import PollHerald.Proofs.Bot.Loop

set_option autoImplicit false

/-! The course of one poll loop, with a record of its cycles. The record only looks on: it keeps
what each poll was asked and brought, and which mentions the channel took in since. Everything else
is moved by the loop itself, in any order in which its receiver and its owner come in between. -/

namespace PollHerald.Bot

/-- What the poll of a cycle brings, by the number of the cycle and the cursor. -/
abbrev Provider := Nat → Nat → PollResult

/-- One cycle of a loop, from the end of its poll on. -/
structure Cycle where
  /-- The number of cycles before it. -/
  number : Nat
  /-- The cursor that was polled for. -/
  since : Nat
  result : PollResult
  /-- The cursor after the poll. -/
  after : Nat
  /-- The mentions that the channel took in so far, the oldest first. -/
  handed : List Mention

/-- A loop with its cursor and with the cycles that have polled, the latest first. -/
structure Course where
  cursor : Nat
  loop : Loop
  log : List Cycle := []

/-- What can happen to a loop. -/
inductive Event where
  | heed
  | tick
  | poll
  /-- The poll under way brings its result. -/
  | answer
  | send
  /-- The receiver takes the oldest mention out of the channel. -/
  | receive
  /-- The receiver is dropped. -/
  | drop
  /-- The loop is told to shut down. -/
  | signal
  deriving DecidableEq, Repr

namespace Course

/-- A loop that polls from `since` on, through a new channel. -/
def begin (capacity since : Nat) : Course :=
  { cursor := since, loop := { channel := { capacity } } }

/-- What a channel took in between two states of it. -/
def gained (before after : Channel) : List Mention :=
  after.buffer.drop before.buffer.length

/-- Adds mentions to what the latest cycle handed over. -/
def credit (mentions : List Mention) : List Cycle → List Cycle
  | [] => []
  | latest :: earlier => { latest with handed := latest.handed ++ mentions } :: earlier

/-- Puts the cycle on record whose poll a move ends. -/
def enter (course : Course) (after : Nat) : Loop.Move → List Cycle
  | .take result =>
    match course.loop.phase with
    | .polling since =>
      { number := course.log.length, since, result, after, handed := [] } :: course.log
    | _ => course.log
  | _ => course.log

/-- Lets the loop make a move. -/
def move (course : Course) (move : Loop.Move) : Option Course := do
  let advance ← course.loop.step course.cursor move
  return {
    cursor := advance.cursor
    loop := advance.loop
    log := credit (gained course.loop.channel advance.loop.channel)
      (course.enter advance.cursor move) }

/-- Lets something happen, where it can. -/
def step (provider : Provider) (course : Course) : Event → Option Course
  | .heed => course.move .heed
  | .tick => course.move .tick
  | .poll => course.move .poll
  | .answer =>
    match course.loop.phase with
    | .polling since => course.move (.take (provider course.log.length since))
    | _ => none
  | .send => course.move .send
  | .receive =>
    if course.loop.channel.buffer.isEmpty then none
    else some { course with loop := { course.loop with channel := course.loop.channel.pop } }
  | .drop =>
    some { course with loop := { course.loop with channel := course.loop.channel.close } }
  | .signal => some { course with loop := { course.loop with isSignalled := true } }

/-- Lets things happen one after another, where they can. -/
def run (provider : Provider) (course : Course) (events : List Event) : Option Course :=
  events.foldlM (step provider) course

/-- All mentions that the channel took in, in that order. -/
def delivered (course : Course) : List Mention :=
  course.log.reverse.flatMap Cycle.handed

/-- The cursor that the cycles on record leave. -/
def cursorAfter (start : Nat) : List Cycle → Nat
  | [] => start
  | latest :: _ => latest.after

end Course

/-- Cycles that follow from one another, the latest first: each polls for the cursor that the one
before it left, with what the provider brings for it, and hands mentions over in the order of its
batch. All of them but the latest have handed over their whole batch. -/
inductive Recorded (provider : Provider) (start : Nat) : List Cycle → Prop where
  | none : Recorded provider start []
  | cycle {latest : Cycle} {earlier : List Cycle} (before : Recorded provider start earlier)
      (whole : ∀ cycle ∈ earlier, cycle.handed = PollResult.mentions cycle.result)
      (number : latest.number = earlier.length)
      (since : latest.since = Course.cursorAfter start earlier)
      (result : latest.result = provider latest.number latest.since)
      (after : latest.after = Loop.cursorAfter latest.since latest.result)
      (handed : latest.handed <+: PollResult.mentions latest.result) :
      Recorded provider start (latest :: earlier)

namespace Recorded

variable {provider : Provider} {start : Nat} {log : List Cycle}

theorem of_suffix (recorded : Recorded provider start log) {part : List Cycle}
    (suffix : part <:+ log) : Recorded provider start part := by
  induction recorded with
  | none =>
      rw [List.suffix_nil.mp suffix]
      exact .none
  | cycle before whole number since result after handed ih =>
      rcases List.suffix_cons_iff.mp suffix with rfl | within
      · exact .cycle before whole number since result after handed
      · exact ih within

theorem split (recorded : Recorded provider start log) {cycle : Cycle} (member : cycle ∈ log) :
    ∃ earlier, Recorded provider start (cycle :: earlier) ∧ cycle :: earlier <:+ log := by
  obtain ⟨later, earlier, rfl⟩ := List.append_of_mem member
  exact ⟨earlier, recorded.of_suffix (List.suffix_append _ _), List.suffix_append _ _⟩

theorem result_eq (recorded : Recorded provider start log) {cycle : Cycle} (member : cycle ∈ log) :
    cycle.result = provider cycle.number cycle.since := by
  obtain ⟨earlier, recorded, _⟩ := recorded.split member
  cases recorded
  assumption

theorem after_eq (recorded : Recorded provider start log) {cycle : Cycle} (member : cycle ∈ log) :
    cycle.after = Loop.cursorAfter cycle.since cycle.result := by
  obtain ⟨earlier, recorded, _⟩ := recorded.split member
  cases recorded
  assumption

theorem handed_prefix (recorded : Recorded provider start log) {cycle : Cycle}
    (member : cycle ∈ log) : cycle.handed <+: PollResult.mentions cycle.result := by
  obtain ⟨earlier, recorded, _⟩ := recorded.split member
  cases recorded
  assumption

theorem exists_number_iff (recorded : Recorded provider start log) (number : Nat) :
    (∃ cycle ∈ log, cycle.number = number) ↔ number < log.length := by
  induction recorded with
  | none => simp only [List.not_mem_nil, false_and, exists_false, List.length_nil, Nat.not_lt_zero]
  | cycle before whole numbered since result after handed ih =>
      simp only [List.mem_cons, exists_eq_or_imp, ih, numbered, List.length_cons]
      omega

end Recorded

/-- What holds at any time in the course of a loop. -/
structure Course.Consistent (provider : Provider) (start : Nat) (course : Course) : Prop where
  recorded : Recorded provider start course.log
  cursor : course.cursor = Course.cursorAfter start course.log
  polling : ∀ since, course.loop.phase = .polling since → since = course.cursor
  /-- Handed over and left to hand over is the whole batch, unless the receiver was dropped. -/
  handing : course.loop.phase ≠ .ended .abandoned → ∀ latest ∈ course.log.head?,
    latest.handed ++ course.loop.phase.unsent = PollResult.mentions latest.result

namespace Course

@[simp] theorem gained_self (channel : Channel) : gained channel channel = [] :=
  List.drop_length

@[simp] theorem gained_push (channel : Channel) (mention : Mention) :
    gained channel (channel.push mention) = [mention] :=
  List.drop_left

@[simp] theorem credit_nil (log : List Cycle) : credit [] log = log := by
  cases log with
  | nil => rfl
  | cons latest earlier => simp only [credit, List.append_nil]

theorem move_eq_some_iff (course next : Course) (move : Loop.Move) :
    course.move move = some next ↔
      ∃ advance, Loop.Steps course.cursor course.loop move advance ∧ {
        cursor := advance.cursor
        loop := advance.loop
        log := credit (gained course.loop.channel advance.loop.channel)
          (course.enter advance.cursor move) } = next := by
  simp only [← Loop.step_eq_some_iff]
  exact Option.bind_eq_some_iff.trans (by simp only [Option.pure_def, Option.some.injEq])

@[simp] theorem cursorAfter_credit (start : Nat) (mentions : List Mention) (log : List Cycle) :
    cursorAfter start (credit mentions log) = cursorAfter start log := by
  cases log <;> rfl

/-- What an event does: the loop moves, or something comes in from outside, of which its phase and
its record know nothing. -/
inductive Change (provider : Provider) (course : Course) (event : Event) (next : Course) : Prop where
  | move {move : Loop.Move}
      (brought : ∀ since result, course.loop.phase = .polling since → move = .take result →
        result = provider course.log.length since)
      (moved : course.move move = some next)
  | outside (cursor : next.cursor = course.cursor) (log : next.log = course.log)
      (phase : next.loop.phase = course.loop.phase)
      (told : event ≠ .signal → next.loop.isSignalled = course.loop.isSignalled)
      (isOpen : event ≠ .drop → next.loop.channel.isOpen = course.loop.channel.isOpen)

theorem change_of_step {provider : Provider} {course next : Course} {event : Event}
    (stepped : course.step provider event = some next) : Change provider course event next := by
  cases event with
  | heed => exact .move (by rintro _ _ _ ⟨⟩) stepped
  | tick => exact .move (by rintro _ _ _ ⟨⟩) stepped
  | poll => exact .move (by rintro _ _ _ ⟨⟩) stepped
  | send => exact .move (by rintro _ _ _ ⟨⟩) stepped
  | answer =>
      simp only [step] at stepped
      split at stepped
      · rename_i since polling
        refine .move ?_ stepped
        rintro other _ stillPolling ⟨⟩
        rw [polling] at stillPolling
        cases stillPolling
        rfl
      · cases stepped
  | receive =>
      simp only [step] at stepped
      split at stepped
      · cases stepped
      · cases stepped
        exact .outside rfl rfl rfl (fun _ => rfl) (fun _ => rfl)
  | drop =>
      cases stepped
      exact .outside rfl rfl rfl (fun _ => rfl) (fun same => absurd rfl same)
  | signal =>
      cases stepped
      exact .outside rfl rfl rfl (fun same => absurd rfl same) (fun _ => rfl)

section Invariant

variable {provider : Provider} {start : Nat} {course next : Course}

theorem begin_consistent (capacity : Nat) : (begin capacity start).Consistent provider start where
  recorded := .none
  cursor := rfl
  polling := fun _ polling => nomatch polling
  handing := fun _ _ absent => nomatch absent

/-- Where nothing is left to hand over, every batch on record was handed over as a whole. -/
theorem Consistent.whole (consistent : course.Consistent provider start)
    (served : course.loop.phase ≠ .ended .abandoned) (nothingLeft : course.loop.phase.unsent = []) :
    ∀ cycle ∈ course.log, cycle.handed = PollResult.mentions cycle.result := by
  have handing := consistent.handing served
  have recorded := consistent.recorded
  rw [nothingLeft] at handing
  cases log : course.log with
  | nil => exact fun _ absent => nomatch absent
  | cons latest earlier =>
      rw [log] at handing recorded
      cases recorded with
      | cycle before whole =>
          intro cycle member
          rcases List.mem_cons.mp member with rfl | member
          · simpa only [List.append_nil] using handing cycle rfl
          · exact whole cycle member

private theorem Consistent.of_same (consistent : course.Consistent provider start)
    (cursor : next.cursor = course.cursor) (phase : next.loop.phase = course.loop.phase)
    (log : next.log = course.log) : next.Consistent provider start where
  recorded := log ▸ consistent.recorded
  cursor := by rw [cursor, log, consistent.cursor]
  polling := by rw [phase, cursor]; exact consistent.polling
  handing := by rw [phase, log]; exact consistent.handing

/-- A new phase without mentions in it changes nothing about what was handed over. -/
private theorem Consistent.of_idle (consistent : course.Consistent provider start)
    (cursor : next.cursor = course.cursor) (log : next.log = course.log)
    (polling : ∀ since, next.loop.phase = .polling since → since = next.cursor)
    (idle : next.loop.phase.unsent = [])
    (whole : next.loop.phase ≠ .ended .abandoned →
      ∀ cycle ∈ course.log, cycle.handed = PollResult.mentions cycle.result) :
    next.Consistent provider start where
  recorded := log ▸ consistent.recorded
  cursor := by rw [cursor, log, consistent.cursor]
  polling := polling
  handing := by
    intro served latest isLatest
    rw [idle, List.append_nil]
    exact whole served latest (log ▸ List.mem_of_mem_head? isLatest)

private theorem Recorded.credit {log : List Cycle} {mention : Mention} {rest : List Mention}
    (recorded : Recorded provider start log)
    (left : ∀ latest ∈ log.head?,
      latest.handed ++ mention :: rest = PollResult.mentions latest.result) :
    Recorded provider start (credit [mention] log) ∧
      ∀ latest ∈ (credit [mention] log).head?,
        latest.handed ++ rest = PollResult.mentions latest.result := by
  cases recorded with
  | none => exact ⟨.none, fun _ absent => nomatch absent⟩
  | @cycle latest earlier before whole number since result after handed =>
      have remaining : (latest.handed ++ [mention]) ++ rest = PollResult.mentions latest.result := by
        rw [List.append_assoc, List.singleton_append]
        exact left latest rfl
      refine ⟨.cycle before whole number since result after ⟨rest, remaining⟩, ?_⟩
      rintro _ ⟨⟩
      exact remaining

private theorem move_consistent {move : Loop.Move} (consistent : course.Consistent provider start)
    (brought : ∀ since result, course.loop.phase = .polling since → move = .take result →
      result = provider course.log.length since)
    (moved : course.move move = some next) : next.Consistent provider start := by
  obtain ⟨advance, steps, rfl⟩ := (move_eq_some_iff course next move).mp moved
  cases steps with
  | heed resting told =>
      have whole := consistent.whole (resting ▸ Phase.noConfusion) (resting ▸ rfl)
      simp only [gained_self, enter, credit_nil]
      exact consistent.of_idle rfl rfl (fun _ polling => nomatch polling) rfl (fun _ => whole)
  | tick resting untold =>
      have whole := consistent.whole (resting ▸ Phase.noConfusion) (resting ▸ rfl)
      simp only [gained_self, enter, credit_nil]
      exact consistent.of_idle rfl rfl (fun _ polling => nomatch polling) rfl (fun _ => whole)
  | poll ticked =>
      have whole := consistent.whole (ticked ▸ Phase.noConfusion) (ticked ▸ rfl)
      simp only [gained_self, enter, credit_nil]
      refine consistent.of_idle rfl rfl ?_ rfl (fun _ => whole)
      rintro _ ⟨⟩
      rfl
  | @take since result polling =>
      have whole := consistent.whole (polling ▸ Phase.noConfusion) (polling ▸ rfl)
      have sameCursor := consistent.polling since polling
      simp only [gained_self, enter, polling, credit_nil]
      exact {
        recorded := .cycle consistent.recorded whole rfl (sameCursor.trans consistent.cursor)
          (brought since result polling rfl) (by rw [sameCursor]) List.nil_prefix
        cursor := rfl
        polling := fun other stillPolling =>
          absurd stillPolling (Loop.phaseAfter_ne_polling result other)
        handing := by
          rintro _ _ ⟨⟩
          exact Loop.unsent_phaseAfter result }
  | abandon sending closed =>
      simp only [gained_self, enter, credit_nil]
      exact consistent.of_idle rfl rfl (fun _ polling => nomatch polling) rfl
        (fun served => absurd rfl served)
  | @send mention rest sending isOpen hasRoom =>
      have handing := consistent.handing (sending ▸ Phase.noConfusion)
      rw [sending] at handing
      obtain ⟨recorded, remaining⟩ := Recorded.credit consistent.recorded handing
      simp only [gained_push, enter]
      exact {
        recorded
        cursor := by rw [consistent.cursor, cursorAfter_credit]
        polling := by
          intro since polling
          cases rest <;> cases polling
        handing := by
          intro _ latest isLatest
          rw [Phase.unsent_handingOver]
          exact remaining latest isLatest }

theorem step_consistent {event : Event} (consistent : course.Consistent provider start)
    (stepped : course.step provider event = some next) : next.Consistent provider start := by
  cases change_of_step stepped with
  | move brought moved => exact move_consistent consistent brought moved
  | outside cursor log phase told isOpen => exact consistent.of_same cursor phase log

/-- What every event of a run keeps holds at its end. -/
theorem run_preserves {property : Course → Prop} {events : List Event} (holds : property course)
    (kept : ∀ event ∈ events, ∀ before after : Course, property before →
      before.step provider event = some after → property after)
    (reached : course.run provider events = some next) : property next := by
  induction events generalizing course with
  | nil =>
      cases reached
      exact holds
  | cons event rest ih =>
      obtain ⟨middle, stepped, reached⟩ := Option.bind_eq_some_iff.mp reached
      have holdsNext := kept event List.mem_cons_self course middle holds stepped
      exact ih holdsNext (fun later member => kept later (List.mem_cons_of_mem _ member)) reached

/-- Whatever happens to a loop, and in whatever order, its record stays in order. -/
theorem run_consistent {capacity : Nat} {events : List Event}
    (reached : (begin capacity start).run provider events = some course) :
    course.Consistent provider start := by
  refine run_preserves (begin_consistent capacity) ?_ reached
  intro event _ before after consistent stepped
  exact step_consistent consistent stepped

end Invariant

end Course

end PollHerald.Bot
