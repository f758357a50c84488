import PollHerald.Proofs.Bot.Delivery

set_option autoImplicit false

/-! Which casts a loop over a hub delivers, where casts may become visible in any order. The cursor
is as far as the newest cast that was ever seen, so a cast that becomes visible later than a cast
of its own second, or of a later one, is passed over for good. All others are delivered. -/

namespace PollHerald.Bot

open Hub (Batch Message Page Setting)

/-- Whether a poll brought a batch, or nothing new. -/
def PollResult.isRegular : PollResult → Bool
  | .ok _ => true
  | .error (.hub error) => error.isNoProgress
  | .error .clockOverflow => false

theorem PollResult.isRegular_iff (result : PollResult) :
    isRegular result = true ↔ (∃ batch, result = .ok batch) ∨ result = .error (.hub .noNewCasts) := by
  cases result with
  | ok batch => simp only [isRegular, Except.ok.injEq, exists_eq', reduceCtorEq, or_false]
  | error failure =>
      cases failure with
      | clockOverflow => simp [isRegular]
      | hub error => cases error <;> simp [isRegular, Hub.Error.isNoProgress]

/-- Whether the cycle with a number is over: another one has polled since, or nothing of its batch
is left to hand over and nobody was missing to receive it. -/
def Course.HasFinished (course : Course) (number : Nat) : Prop :=
  number + 1 < course.log.length ∨
    number + 1 = course.log.length ∧ course.loop.phase.unsent = [] ∧
      course.loop.phase ≠ .ended .abandoned

theorem Course.hasFinished_of_going {course : Course} {number : Nat}
    (latest : course.log.length = number + 1) (nothingLeft : course.loop.phase.unsent = [])
    (going : course.loop.phase.hasEnded = false) : course.HasFinished number := by
  refine .inr ⟨latest.symm, nothingLeft, fun abandoned => ?_⟩
  rw [abandoned] at going
  cases going

section Record

variable {provider : Provider} {start : Nat} {log : List Cycle}

theorem Course.Consistent.whole_of_finished {course : Course}
    (consistent : course.Consistent provider start) {number : Nat}
    (finished : course.HasFinished number) {cycle : Cycle} (member : cycle ∈ course.log)
    (notLater : cycle.number ≤ number) : cycle.handed = PollResult.mentions cycle.result := by
  rcases finished with another | ⟨_, nothingLeft, served⟩
  · have recorded := consistent.recorded
    cases log : course.log with
    | nil =>
        rw [log] at member
        cases member
    | cons latest earlier =>
        rw [log] at recorded member another
        cases recorded with
        | cycle before whole numbered =>
            rcases List.mem_cons.mp member with rfl | member
            · rw [List.length_cons] at another
              omega
            · exact whole cycle member
  · exact consistent.whole served nothingLeft cycle member

end Record

section Poll

variable {setting : Setting} {own : Fid} {page : Page} {start since : Nat}

/-- A cast after a cursor that a poll for a later cursor leaves out is not after that one. -/
private theorem mem_kept_or_le {message : Message} (member : message ∈ page.kept start) :
    message ∈ page.kept since ∨ message.timestamp ≤ Clock.toHub since := by
  obtain ⟨inside, new⟩ := List.mem_filter.mp member
  by_cases late : Clock.toHub since < message.timestamp
  · exact .inl (List.mem_filter.mpr ⟨inside, Message.isNew_of_isNew new late⟩)
  · exact .inr (Nat.le_of_not_lt late)

/-- A poll moves the cursor up to the newest cast that it saw, if it moves it at all. -/
theorem toHub_cursorAfter_lt_iff (time : Nat) (served : setting.Serves own page)
    (regular : PollResult.isRegular (setting.poll since) = true)
    (notBefore : Clock.toHub start ≤ Clock.toHub since) :
    Clock.toHub (Loop.cursorAfter since (setting.poll since)) < time ↔
      Clock.toHub since < time ∧ ∀ other ∈ page.kept start, other.timestamp < time := by
  rcases (PollResult.isRegular_iff _).mp regular with ⟨batch, succeeded⟩ | nothingNew
  · have shows := Setting.poll_shows served succeeded
    have advances := shows.follows.advances
    obtain ⟨newest, newestMem, top, bound⟩ := shows.toHub_next
    obtain ⟨inside, new⟩ := List.mem_filter.mp newestMem
    have late := Message.lt_timestamp_of_isNew new
    rw [succeeded, Loop.cursorAfter, Nat.max_eq_right (Nat.le_of_lt advances), top]
    constructor
    · intro newestFirst
      refine ⟨Nat.lt_trans late newestFirst, fun other member => ?_⟩
      rcases mem_kept_or_le member with kept | passed
      · exact Nat.lt_of_le_of_lt (bound other kept) newestFirst
      · exact Nat.lt_of_le_of_lt passed (Nat.lt_trans late newestFirst)
    · rintro ⟨_, all⟩
      exact all newest (List.mem_filter.mpr
        ⟨inside, Message.isNew_of_isNew new (Nat.lt_of_le_of_lt notBefore late)⟩)
  · have nothing := (Setting.poll_noNewCasts_iff served).mp nothingNew
    rw [nothingNew, Loop.cursorAfter]
    refine ⟨fun later => ⟨later, fun other member => ?_⟩, And.left⟩
    rcases mem_kept_or_le member with kept | passed
    · rw [nothing] at kept
      cases kept
    · exact Nat.lt_of_le_of_lt passed later

theorem exists_shown_iff (served : setting.Serves own page)
    (regular : PollResult.isRegular (setting.poll since) = true) {message : Message}
    (visible : message ∈ page.messages) (new : message.isNew (Clock.toHub start) = true) :
    (∃ mention ∈ PollResult.mentions (setting.poll since), message.ShownAs own mention) ↔
      Clock.toHub since < message.timestamp := by
  constructor
  · rintro ⟨mention, brought, shown⟩
    obtain ⟨batch, succeeded, inBatch⟩ := PollResult.exists_batch brought
    rw [← Message.timestamp_of_shownAs shown]
    exact (Setting.poll_follows succeeded).later mention inBatch
  · intro late
    have kept : message ∈ page.kept since :=
      List.mem_filter.mpr ⟨visible, Message.isNew_of_isNew new late⟩
    rcases (PollResult.isRegular_iff _).mp regular with ⟨batch, succeeded⟩ | nothingNew
    · rw [succeeded]
      exact (Setting.poll_shows served succeeded).exists_mention kept
    · rw [(Setting.poll_noNewCasts_iff served).mp nothingNew] at kept
      cases kept

end Poll

section Visible

variable {settings : Nat → Setting} {owns : Nat → Fid} {pages : Nat → Page} {start time : Nat}
variable {log : List Cycle}

/-- The cursor stands at the newest cast that was ever seen, or where it started. -/
theorem Recorded.toHub_cursorAfter_lt_iff (recorded : Recorded (pollHub settings) start log)
    (served : ∀ number, (settings number).Serves (owns number) (pages number))
    (regular : ∀ cycle ∈ log, PollResult.isRegular cycle.result = true) :
    Clock.toHub (Course.cursorAfter start log) < time ↔
      Clock.toHub start < time ∧
        ∀ number < log.length, ∀ other ∈ (pages number).kept start, other.timestamp < time := by
  induction recorded generalizing time with
  | none => simp only [Course.cursorAfter, List.length_nil, Nat.not_lt_zero, false_implies,
      implies_true, and_true]
  | @cycle latest earlier before whole number since result after handed ih =>
      have regularBefore : ∀ cycle ∈ earlier, PollResult.isRegular cycle.result = true :=
        fun cycle member => regular cycle (List.mem_cons_of_mem _ member)
      have regularLatest := regular latest List.mem_cons_self
      rw [result, pollHub] at regularLatest
      -- The cursor never went below the start, on the hub's clock.
      have notBefore : Clock.toHub start ≤ Clock.toHub latest.since := by
        rw [since]
        exact Nat.le_of_lt_succ ((ih regularBefore).mp (Nat.lt_succ_self _)).1
      have polled := Bot.toHub_cursorAfter_lt_iff time (served latest.number)
        regularLatest notBefore
      rw [Course.cursorAfter, after, result, pollHub, polled, since, ih regularBefore, number,
        List.length_cons, Nat.forall_lt_succ_right, and_assoc]

/-- Which casts a loop delivers. A cast after the start that becomes visible is handed over by the
time its cycle is over, if it is newer than all casts that were visible in the cycles before. If it
is not, no cycle that sees it ever hands it over. -/
theorem delivered_iff_newer_than_seen {capacity number : Nat} {events : List Event}
    {course : Course} {message : Message}
    (served : ∀ number, (settings number).Serves (owns number) (pages number))
    (reached : (Course.begin capacity start).run (pollHub settings) events = some course)
    (regular : ∀ cycle ∈ course.log, PollResult.isRegular cycle.result = true)
    (finished : course.HasFinished number)
    (new : message.isNew (Clock.toHub start) = true) :
    (∃ cycle ∈ course.log, cycle.number ≤ number ∧ message ∈ (pages cycle.number).messages ∧
        ∃ mention ∈ cycle.handed, message.ShownAs (owns cycle.number) mention) ↔
      ∃ first ≤ number, message ∈ (pages first).messages ∧
        ∀ before < first, ∀ other ∈ (pages before).kept start,
          other.timestamp < message.timestamp := by
  have consistent := Course.run_consistent reached
  have recorded := consistent.recorded
  -- A cycle brings the cast just where all that was seen before is older.
  have brought : ∀ cycle ∈ course.log, message ∈ (pages cycle.number).messages →
      ((∃ mention ∈ PollResult.mentions cycle.result,
          message.ShownAs (owns cycle.number) mention) ↔
        ∀ before < cycle.number, ∀ other ∈ (pages before).kept start,
          other.timestamp < message.timestamp) := by
    intro cycle member visible
    obtain ⟨earlier, recordedSoFar, suffix⟩ := recorded.split member
    have regularPoll := regular cycle member
    rw [recorded.result_eq member, pollHub] at regularPoll ⊢
    rw [exists_shown_iff (served cycle.number) regularPoll visible new]
    cases recordedSoFar with
    | cycle before whole numbered since =>
        have regularBefore : ∀ cycle ∈ earlier, PollResult.isRegular cycle.result = true :=
          fun cycle member => regular cycle (suffix.subset (List.mem_cons_of_mem _ member))
        rw [since, before.toHub_cursorAfter_lt_iff served regularBefore, numbered]
        exact and_iff_right (Message.lt_timestamp_of_isNew new)
  constructor
  · rintro ⟨cycle, member, notLater, visible, mention, handed, shown⟩
    exact ⟨cycle.number, notLater, visible, (brought cycle member visible).mp
      ⟨mention, (recorded.handed_prefix member).subset handed, shown⟩⟩
  · rintro ⟨first, notLater, visible, newer⟩
    have inside : first < course.log.length := by
      rcases finished with another | ⟨last, _⟩
      · omega
      · omega
    obtain ⟨cycle, member, rfl⟩ := (recorded.exists_number_iff first).mpr inside
    refine ⟨cycle, member, notLater, visible, ?_⟩
    rw [consistent.whole_of_finished finished member notLater]
    exact (brought cycle member visible).mpr newer

end Visible

/-- A message that adds a cast without mentions. -/
def plainCast (fid timestamp : Nat) (hash text : String) : Message :=
  { content := some {
      kind := Hub.castKind
      fid
      timestamp
      cast := some { text, mentions := [], positions := [], parent := none }
      address := none }
    hash
    signer := "" }

def pageOf (messages : List Message) : Page :=
  { messages, nextPageToken := none }

/-- A hub with a page in the first cycle, and another one in all cycles after it. -/
def turningHub (first later : String) (number : Nat) : Setting :=
  { identity := some Hub.sampleIdentity
    hub := fun _ => Hub.Answer.staged (if number = 0 then first else later)
    past := [] }

private theorem turningHub_serves {first later : String} {before after : List Message}
    (firstRead : (Json.Value.parse? first).bind Page.read = some (pageOf before))
    (laterRead : (Json.Value.parse? later).bind Page.read = some (pageOf after)) (number : Nat) :
    (turningHub first later number).Serves 7 (pageOf (if number = 0 then before else after)) := by
  refine ⟨Hub.sampleIdentity, rfl, rfl, _, rfl, ?_⟩
  split
  · exact firstRead
  · exact laterRead

/-- What the two pages of the sample hold. -/
def firstMessages : List Message :=
  [plainCast 20 100 "0x01" "hi"]

def grownMessages : List Message :=
  firstMessages ++ [plainCast 21 105 "0x02" "yo", plainCast 22 103 "0x03" "hey"]

set_option maxRecDepth 10000 in
/-- The last cast of the page that grew is not the newest of it, but newer than the first page. -/
theorem newer_cast_is_delivered :
    ∃ course, (Course.begin 5 0).run (pollHub (turningHub firstPage grownPage))
        [.tick, .poll, .answer, .send, .tick, .poll, .answer, .send, .send] = some course ∧
      ∃ cycle ∈ course.log, cycle.number ≤ 1 ∧
        plainCast 22 103 "0x03" "hey" ∈
          (pageOf (if cycle.number = 0 then firstMessages else grownMessages)).messages ∧
        ∃ mention ∈ cycle.handed, (plainCast 22 103 "0x03" "hey").ShownAs 7 mention := by
  have firstRead : (Json.Value.parse? firstPage).bind Page.read = some (pageOf firstMessages) := by
    cbv
  have grownRead : (Json.Value.parse? grownPage).bind Page.read = some (pageOf grownMessages) := by
    cbv
  obtain ⟨course, reached, regular, size, nothingLeft, ended⟩ : ∃ course,
      (Course.begin 5 0).run (pollHub (turningHub firstPage grownPage))
        [.tick, .poll, .answer, .send, .tick, .poll, .answer, .send, .send] = some course ∧
      course.log.all (fun cycle => PollResult.isRegular cycle.result) = true ∧
      course.log.length = 2 ∧ course.loop.phase.unsent = [] ∧
      course.loop.phase.hasEnded = false :=
    ⟨_, by cbv, by cbv, by cbv, by cbv, by cbv⟩
  have finished := Course.hasFinished_of_going size nothingLeft ended
  refine ⟨course, reached, (delivered_iff_newer_than_seen
    (turningHub_serves firstRead grownRead) reached (List.all_eq_true.mp regular) finished
    (by decide)).mpr ⟨1, Nat.le_refl 1, List.mem_of_getLast? rfl, ?_⟩⟩
  intro before isFirst other member
  obtain rfl := Nat.lt_one_iff.mp isFirst
  have seen : ((pageOf firstMessages).kept 0).map Message.timestamp = [100] := by decide
  have time : other.timestamp ∈ ((pageOf firstMessages).kept 0).map Message.timestamp :=
    List.mem_map_of_mem member
  rw [seen, List.mem_singleton] at time
  rw [time]
  decide

/-- The first page with another cast of the time 100 behind the first one. -/
def straddlingPage : String :=
  "[[[[\"MESSAGE_TYPE_CAST_ADD\",20,100,[\"hi\",[],[],null],null],\"0x01\",\"\"]," ++
  "[[\"MESSAGE_TYPE_CAST_ADD\",21,100,[\"yo\",[],[],null],null],\"0x02\",\"\"]],null]"

def straddlingMessages : List Message :=
  firstMessages ++ [plainCast 21 100 "0x02" "yo"]

set_option maxRecDepth 10000 in
/-- A page may grow by a cast of a second that was polled before. No cycle hands it over, so not
every visible cast is delivered. -/
theorem not_every_visible_cast_is_delivered :
    ¬∀ (settings : Nat → Setting) (own : Fid) (pages : Nat → Page) (capacity start : Nat)
        (events : List Event) (course : Course) (number : Nat) (message : Message),
      (∀ number, (settings number).Serves own (pages number)) →
      (∀ number, (pages number).messages ⊆ (pages (number + 1)).messages) →
      (Course.begin capacity start).run (pollHub settings) events = some course →
      (∀ cycle ∈ course.log, PollResult.isRegular cycle.result = true) →
      course.HasFinished number → message ∈ (pages number).messages →
      message.isNew (Clock.toHub start) = true →
      ∃ cycle ∈ course.log, cycle.number ≤ number ∧
        ∃ mention ∈ cycle.handed, message.ShownAs own mention := by
  intro allDelivered
  have firstRead : (Json.Value.parse? firstPage).bind Page.read = some (pageOf firstMessages) := by
    cbv
  have laterRead : (Json.Value.parse? straddlingPage).bind Page.read =
      some (pageOf straddlingMessages) := by
    cbv
  obtain ⟨course, reached, regular, size, nothingLeft, ended, delivered⟩ : ∃ course,
      (Course.begin 5 0).run (pollHub (turningHub firstPage straddlingPage))
        [.tick, .poll, .answer, .send, .tick, .poll, .answer] = some course ∧
      course.log.all (fun cycle => PollResult.isRegular cycle.result) = true ∧
      course.log.length = 2 ∧ course.loop.phase.unsent = [] ∧
      course.loop.phase.hasEnded = false ∧
      course.log.all (fun cycle => cycle.handed.all fun mention => mention.hash == "0x01") :=
    ⟨_, by cbv, by cbv, by cbv, by cbv, by cbv, by cbv⟩
  have finished := Course.hasFinished_of_going size nothingLeft ended
  have grows : ∀ number, (pageOf (if number = 0 then firstMessages else straddlingMessages)).messages
      ⊆ (pageOf (if number + 1 = 0 then firstMessages else straddlingMessages)).messages := by
    intro number
    split
    · exact List.subset_append_left _ _
    · exact List.Subset.refl _
  obtain ⟨cycle, member, _, mention, handed, content, cast, _, _, _, hash, _⟩ :=
    allDelivered _ 7 _ 5 0 _ course 1 (plainCast 21 100 "0x02" "yo")
      (turningHub_serves firstRead laterRead) grows reached (List.all_eq_true.mp regular) finished
      (List.mem_of_getLast? rfl) (by decide)
  have first := List.all_eq_true.mp (List.all_eq_true.mp delivered cycle member) mention handed
  rw [beq_iff_eq, hash] at first
  revert first
  decide

end PollHerald.Bot
