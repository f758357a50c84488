import Mathlib.Data.List.Forall2
import Mathlib.Data.List.Perm.Basic
import PollHerald.Proofs.Hub.Fetch

set_option autoImplicit false

/-! Which messages of a page a poll keeps, and how the batch shows them: one mention for each kept
message, by time, messages of one second in the order of the page. A poll says that there is
nothing new exactly where no message is kept. -/

namespace PollHerald.Hub

namespace Message

/-- When a message was made, on the hub's clock. -/
def timestamp (message : Message) : Nat :=
  (message.content.map MessageContent.timestamp).getD 0

/-- Whether a message adds a cast that has a text and is later than a time on the hub's clock. -/
def isNew (since : Nat) (message : Message) : Bool :=
  match message.content with
  | none => false
  | some content =>
    content.kind == castKind && (content.cast.any fun cast => !cast.text.isEmpty) &&
      decide (since < content.timestamp)

/-- Whether a mention shows the cast of a message to the account `own`. What became of the text is
left open. -/
def ShownAs (own : Fid) (message : Message) (mention : Mention) : Prop :=
  ∃ content cast, message.content = some content ∧ content.cast = some cast ∧
    mention.author = content.fid ∧ mention.hash = message.hash ∧
    mention.timestamp = content.timestamp ∧
    mention.parent = (cast.parent.bind fun name => (castId name.fid name.hash).toOption) ∧
    (mention.isMention = true ↔ own ∈ cast.mentions)

/-- The same messages by time, where those of one time keep the order that they had. -/
structure ByTime (messages ordered : List Message) : Prop where
  perm : ordered.Perm messages
  ascending : ordered.Pairwise fun earlier later => earlier.timestamp ≤ later.timestamp
  stable : ∀ time, (ordered.filter fun message => message.timestamp == time) =
    messages.filter fun message => message.timestamp == time

theorem isNew_iff (since : Nat) (message : Message) :
    message.isNew since = true ↔
      ∃ content cast, message.content = some content ∧ content.kind = castKind ∧
        content.cast = some cast ∧ cast.text ≠ "" ∧ since < content.timestamp := by
  unfold isNew
  split
  · rename_i absent
    simp only [absent, Bool.false_eq_true, reduceCtorEq, false_and, exists_false]
  · rename_i content present
    simp only [present, Option.some.injEq, Bool.and_eq_true, beq_iff_eq, Option.any_eq_true,
      Bool.not_eq_eq_eq_not, Bool.not_true, String.isEmpty_eq_false_iff, decide_eq_true_eq]
    constructor
    · rintro ⟨⟨kind, cast, found, hasText⟩, late⟩
      exact ⟨content, cast, rfl, kind, found, hasText, late⟩
    · rintro ⟨_, cast, rfl, kind, found, hasText, late⟩
      exact ⟨⟨kind, cast, found, hasText⟩, late⟩

theorem lt_timestamp_of_isNew {since : Nat} {message : Message}
    (new : message.isNew since = true) : since < message.timestamp := by
  obtain ⟨content, _, present, _, _, _, late⟩ := (isNew_iff since message).mp new
  simpa only [timestamp, present, Option.map_some, Option.getD_some] using late

theorem isNew_of_isNew {since later : Nat} {message : Message}
    (new : message.isNew since = true) (late : later < message.timestamp) :
    message.isNew later = true := by
  obtain ⟨content, cast, present, kind, found, hasText, _⟩ := (isNew_iff since message).mp new
  simp only [timestamp, present, Option.map_some, Option.getD_some] at late
  exact (isNew_iff later message).mpr ⟨content, cast, present, kind, found, hasText, late⟩

theorem timestamp_of_shownAs {own : Fid} {message : Message} {mention : Mention}
    (shown : message.ShownAs own mention) : mention.timestamp = message.timestamp := by
  obtain ⟨content, _, present, _, _, _, time, _⟩ := shown
  simp only [time, timestamp, present, Option.map_some, Option.getD_some]

theorem cast?_eq_some_iff (message : Message) (raw : RawCast) :
    message.cast? = some raw ↔
      ∃ content cast, message.content = some content ∧ content.kind = castKind ∧
        content.cast = some cast ∧
        raw = {
          fid := content.fid
          timestamp := content.timestamp
          hash := message.hash
          text := cast.text
          mentions := cast.mentions
          positions := cast.positions
          parent := cast.parent.bind fun name => (castId name.fid name.hash).toOption } := by
  unfold cast?
  cases present : message.content with
  | none => simp only [Option.bind_eq_bind, Option.bind_none, reduceCtorEq, false_and,
      exists_false]
  | some content =>
      by_cases kind : content.kind = castKind
      · cases body : content.cast with
        | none => simp [kind, body]
        | some cast =>
            simp only [Option.bind_eq_bind, Option.bind_some, if_pos kind, body,
              Option.some.injEq]
            constructor
            · rintro rfl
              exact ⟨content, cast, rfl, kind, body, rfl⟩
            · rintro ⟨_, _, rfl, _, sameBody, rfl⟩
              rw [body] at sameBody
              cases sameBody
              rfl
      · simp only [Option.bind_eq_bind, Option.bind_some, if_neg kind, reduceCtorEq, false_iff]
        rintro ⟨_, _, same, kept, _⟩
        cases same
        exact kind kept

theorem timestamp_of_cast? {message : Message} {raw : RawCast}
    (found : message.cast? = some raw) : message.timestamp = raw.timestamp := by
  obtain ⟨content, _, present, _, _, rfl⟩ := (cast?_eq_some_iff message raw).mp found
  simp only [timestamp, present, Option.map_some, Option.getD_some]

theorem isNew_iff_cast? (since : Nat) (message : Message) :
    message.isNew since = true ↔
      ∃ raw, message.cast? = some raw ∧ raw.text ≠ "" ∧ since < raw.timestamp := by
  rw [isNew_iff]
  constructor
  · rintro ⟨content, cast, present, kind, body, hasText, late⟩
    exact ⟨_, (cast?_eq_some_iff message _).mpr ⟨content, cast, present, kind, body, rfl⟩,
      hasText, late⟩
  · rintro ⟨raw, found, hasText, late⟩
    obtain ⟨content, cast, present, kind, body, rfl⟩ := (cast?_eq_some_iff message raw).mp found
    exact ⟨content, cast, present, kind, body, hasText, late⟩

end Message

/-- The casts that a poll keeps are those of the messages that it keeps, in the same order. -/
theorem map_cast?_filter_isNew (since : Nat) (messages : List Message) :
    (messages.filter (Message.isNew since)).map Message.cast? =
      (newCasts since messages).map some := by
  induction messages with
  | nil => rfl
  | cons message rest ih =>
      unfold newCasts at ih ⊢
      cases found : message.cast? with
      | none =>
          have dropped : ¬message.isNew since = true := by
            rw [Message.isNew_iff_cast?]
            rintro ⟨raw, same, _⟩
            rw [found] at same
            cases same
          rw [List.filter_cons_of_neg dropped, List.filterMap_cons_none found, ih]
      | some raw =>
          have decided : message.isNew since =
              (!raw.text.isEmpty && decide (since < raw.timestamp)) := by
            rw [Bool.eq_iff_iff, Message.isNew_iff_cast?, found]
            simp
          rw [List.filterMap_cons_some found, List.filter_cons, List.filter_cons, decided]
          split
          · rw [List.map_cons, List.map_cons, found, ih]
          · exact ih

theorem newCasts_eq_nil_iff (since : Nat) (messages : List Message) :
    newCasts since messages = [] ↔ messages.filter (Message.isNew since) = [] := by
  have same := congrArg List.length (map_cast?_filter_isNew since messages)
  rw [List.length_map, List.length_map] at same
  rw [← List.length_eq_zero_iff, ← List.length_eq_zero_iff, same]

/-- Casts by time, those of one time in the order that they had. -/
abbrev byTime (casts : List RawCast) : List RawCast :=
  casts.mergeSort fun left right => decide (left.timestamp ≤ right.timestamp)

theorem byTime_perm (casts : List RawCast) : (byTime casts).Perm casts :=
  List.mergeSort_perm casts _

/-- The newest time of casts. -/
abbrev newestTime (casts : List RawCast) : Nat :=
  ((byTime casts).map RawCast.timestamp).foldl max 0

namespace Message

/-- Messages by time. -/
def sort (messages : List Message) : List Message :=
  messages.mergeSort fun left right => decide (left.timestamp ≤ right.timestamp)

private theorem precedes_trans (first second third : Message)
    (before : decide (first.timestamp ≤ second.timestamp) = true)
    (after : decide (second.timestamp ≤ third.timestamp) = true) :
    decide (first.timestamp ≤ third.timestamp) = true :=
  decide_eq_true (Nat.le_trans (of_decide_eq_true before) (of_decide_eq_true after))

private theorem precedes_total (first second : Message) :
    (decide (first.timestamp ≤ second.timestamp) ||
      decide (second.timestamp ≤ first.timestamp)) = true := by
  simp only [Bool.or_eq_true, decide_eq_true_eq]
  exact Nat.le_total _ _

private theorem sort_ascending (messages : List Message) :
    (sort messages).Pairwise fun earlier later => earlier.timestamp ≤ later.timestamp := by
  have sorted := List.pairwise_mergeSort precedes_trans precedes_total messages
  simp only [decide_eq_true_eq] at sorted
  exact sorted

/-- The messages of one time are in ascending order already, so sorting keeps their order. -/
private theorem sort_stable (messages : List Message) (time : Nat) :
    ((sort messages).filter fun message => message.timestamp == time) =
      messages.filter fun message => message.timestamp == time := by
  let atTime (message : Message) : Bool := message.timestamp == time
  have level : (messages.filter atTime).Pairwise fun earlier later =>
      decide (earlier.timestamp ≤ later.timestamp) = true := by
    apply List.pairwise_of_forall_mem_list
    intro earlier earlierMem later laterMem
    have first := beq_iff_eq.mp (List.mem_filter.mp earlierMem).2
    have second := beq_iff_eq.mp (List.mem_filter.mp laterMem).2
    exact decide_eq_true (Nat.le_of_eq (first.trans second.symm))
  have kept : (messages.filter atTime).Sublist (sort messages) :=
    List.sublist_mergeSort precedes_trans precedes_total level List.filter_sublist
  have within := kept.filter atTime
  rw [List.filter_filter] at within
  simp only [Bool.and_self] at within
  have sorted : (sort messages).Perm messages := List.mergeSort_perm messages _
  exact (within.eq_of_length (sorted.filter atTime).length_eq.symm).symm

theorem byTime_sort (messages : List Message) : ByTime messages (sort messages) where
  perm := List.mergeSort_perm messages _
  ascending := sort_ascending messages
  stable := sort_stable messages

end Message

theorem map_cast?_sort (since : Nat) (messages : List Message) :
    (Message.sort (messages.filter (Message.isNew since))).map Message.cast? =
      (byTime (newCasts since messages)).map some := by
  let precedes (left right : Option RawCast) : Bool :=
    decide ((left.map RawCast.timestamp).getD 0 ≤ (right.map RawCast.timestamp).getD 0)
  have timed : ∀ message ∈ messages.filter (Message.isNew since),
      message.timestamp = (message.cast?.map RawCast.timestamp).getD 0 := by
    intro message kept
    obtain ⟨raw, found, _⟩ :=
      (Message.isNew_iff_cast? since message).mp (List.mem_filter.mp kept).2
    rw [Message.timestamp_of_cast? found, found]
    rfl
  have ofMessages := List.map_mergeSort (f := Message.cast?) (s := precedes)
    (r := fun left right : Message => decide (left.timestamp ≤ right.timestamp))
    (l := messages.filter (Message.isNew since)) (by
      intro left leftMem right rightMem
      rw [timed left leftMem, timed right rightMem])
  have ofCasts := List.map_mergeSort (f := some) (s := precedes)
    (r := fun left right : RawCast => decide (left.timestamp ≤ right.timestamp))
    (l := newCasts since messages) (fun _ _ _ _ => rfl)
  rw [Message.sort, byTime, ofMessages, ofCasts, map_cast?_filter_isNew]

section Course

variable (hub : List Exchange → Request → Answer) (past : List Exchange)

theorem normalize_shownAs {names known : Names} {own : Fid} {message : Message}
    {raw : RawCast} {mention : Mention} (found : message.cast? = some raw)
    (succeeds : ((normalize names own raw).record hub past).value = .ok (mention, known)) :
    message.ShownAs own mention := by
  obtain ⟨learned, _, written⟩ := Task.record_bind_eq_ok hub past succeeds
  split at written
  · cases written
  · rename_i text _
    cases written
    obtain ⟨content, cast, present, _, body, rfl⟩ := (Message.cast?_eq_some_iff message raw).mp found
    exact ⟨content, cast, present, body, rfl, rfl, rfl, rfl, List.contains_iff_mem⟩

theorem normalizeAll_shownAs {names : Names} {own : Fid} {messages : List Message}
    {casts : List RawCast} {mentions : List Mention}
    (found : messages.map Message.cast? = casts.map some)
    (succeeds : ((normalizeAll names own casts).record hub past).value = .ok mentions) :
    List.Forall₂ (Message.ShownAs own) messages mentions := by
  induction casts generalizing names messages mentions past with
  | nil =>
      cases succeeds
      rw [List.map_nil, List.map_eq_nil_iff] at found
      rw [found]
      exact .nil
  | cons raw rest ih =>
      obtain ⟨message, others, rfl, first, later⟩ := List.map_eq_cons_iff.mp found
      obtain ⟨⟨mention, known⟩, one, remaining⟩ := Task.record_bind_eq_ok hub past succeeds
      obtain ⟨shown, all, done⟩ := Task.record_bind_eq_ok hub _ remaining
      cases done
      exact .cons (normalize_shownAs hub past first one) (ih _ later all)

theorem learnNames_error {names : Names} {fids : List Fid} {error : Error}
    (fails : ((learnNames names fids).record hub past).value = .error error) :
    error.isNoProgress = false := by
  induction fids generalizing names past with
  | nil => cases fails
  | cons fid rest ih =>
      unfold learnNames at fails
      split at fails
      · exact ih _ fails
      · rcases Task.record_bind_eq_error hub past fails with lookup | ⟨user, _, later⟩
        · obtain ⟨cause, rfl⟩ := Task.profile_error hub past lookup
          rfl
        · exact ih _ later

theorem composeText_error {names : Names} {own : Fid} {cast : RawCast} {error : Error}
    (fails : composeText names own cast = .error error) : error.isNoProgress = false := by
  simp only [composeText] at fails
  split at fails
  · cases fails
  · cases fails
    rfl

theorem normalize_error {names : Names} {own : Fid} {cast : RawCast} {error : Error}
    (fails : ((normalize names own cast).record hub past).value = .error error) :
    error.isNoProgress = false := by
  rcases Task.record_bind_eq_error hub past fails with lookup | ⟨learned, _, written⟩
  · exact learnNames_error hub past lookup
  · split at written
    · rename_i cause composed
      cases written
      exact composeText_error composed
    · cases written

/-- Writing casts out never ends in the error that stands for nothing new. -/
theorem normalizeAll_error {names : Names} {own : Fid} {casts : List RawCast} {error : Error}
    (fails : ((normalizeAll names own casts).record hub past).value = .error error) :
    error.isNoProgress = false := by
  induction casts generalizing names past with
  | nil => cases fails
  | cons cast rest ih =>
      rcases Task.record_bind_eq_error hub past fails with first | ⟨⟨mention, known⟩, _, later⟩
      · exact normalize_error hub past first
      · rcases Task.record_bind_eq_error hub _ later with all | ⟨shown, _, done⟩
        · exact ih _ all
        · cases done

end Course

theorem newestTime_mem {casts : List RawCast} (present : casts ≠ []) :
    ∃ newest ∈ casts, newestTime casts = newest.timestamp ∧
      ∀ cast ∈ casts, cast.timestamp ≤ newest.timestamp := by
  have sorted := (byTime_perm casts).map RawCast.timestamp
  have top : ((casts.map RawCast.timestamp).max?).isSome := by
    rw [List.isSome_max?_iff]
    simpa only [ne_eq, List.map_eq_nil_iff] using present
  obtain ⟨greatest, found⟩ := Option.isSome_iff_exists.mp top
  obtain ⟨member, bound⟩ := List.max?_eq_some_iff.mp found
  obtain ⟨newest, newestMem, same⟩ := List.mem_map.mp member
  refine ⟨newest, newestMem, ?_, ?_⟩
  · rw [newestTime, sorted.foldl_eq, List.foldl_max, found, Option.getD_some, Nat.zero_max, same]
  · intro cast castMem
    rw [same]
    exact bound _ (List.mem_map_of_mem castMem)

/-- What a poll hands on, where the mentions and their newest time are known. -/
def Batch.ofOutcome : Except Error (List Mention × Nat) → Except Failure Batch
  | .error error => .error (.hub error)
  | .ok (mentions, newest) =>
    match Clock.toUnix? newest with
    | some next => .ok { mentions, next }
    | none => .error .clockOverflow

section Course

variable (hub : List Exchange → Request → Answer) (past : List Exchange)

theorem lastMentions_run (identity : Identity) (since : Nat) :
    ((lastMentions (some identity) since).run hub past).value =
        Batch.ofOutcome ((mentionsSince identity.fid since).record hub past).value ∧
      ((lastMentions (some identity) since).run hub past).exchanges =
        ((mentionsSince identity.fid since).record hub past).exchanges := by
  simp only [lastMentions, Dialogue.run_bind, Dialogue.Record.before, Task.record]
  cases ((mentionsSince identity.fid since).run.run hub past).value with
  | error error => simp only [Batch.ofOutcome, Dialogue.run_pure, List.append_nil, and_self]
  | ok found =>
      obtain ⟨mentions, newest⟩ := found
      simp only [Batch.ofOutcome]
      cases Clock.toUnix? newest <;>
        simp only [Dialogue.run_pure, List.append_nil, and_self]

/-- A page without a kept message ends the poll after one request. -/
theorem mentionsSince_of_nothing {own : Fid} {since : Nat} {page : Page}
    (served : (hub past (.castsByMention own)).Serves page)
    (nothing : newCasts (Clock.toHub since) page.messages = []) :
    (mentionsSince own since).record hub past =
      { value := .error .noNewCasts
        exchanges := [⟨.castsByMention own, hub past (.castsByMention own)⟩]
        entries := [] } := by
  have fetched := Task.record_fetch hub past (.castsByMention own) Page.read
  rw [(Answer.outcome_eq_ok_iff _ _ _ _).mpr served] at fetched
  unfold mentionsSince
  rw [Task.record_bind_of_ok hub past (congrArg Dialogue.Record.value fetched), fetched]
  simp only [nothing, List.isEmpty_nil, if_true]
  rfl

theorem mentionsSince_of_some {own : Fid} {since : Nat} {page : Page}
    (served : (hub past (.castsByMention own)).Serves page)
    (present : newCasts (Clock.toHub since) page.messages ≠ []) :
    ((mentionsSince own since).record hub past).value =
      ((normalizeAll [] own (byTime (newCasts (Clock.toHub since) page.messages))).record hub
        (⟨.castsByMention own, hub past (.castsByMention own)⟩ :: past)).value.map fun mentions =>
          (mentions, newestTime (newCasts (Clock.toHub since) page.messages)) := by
  have fetched := Task.record_fetch hub past (.castsByMention own) Page.read
  rw [(Answer.outcome_eq_ok_iff _ _ _ _).mpr served] at fetched
  have some : (newCasts (Clock.toHub since) page.messages).isEmpty = false :=
    List.isEmpty_eq_false_iff.mpr present
  unfold mentionsSince
  rw [Task.record_bind_of_ok hub past (congrArg Dialogue.Record.value fetched), fetched]
  simp only [some, Bool.false_eq_true, if_false, Dialogue.Record.before, List.reverse_cons,
    List.reverse_nil, List.nil_append, List.singleton_append]
  cases written : ((normalizeAll [] own (byTime (newCasts (Clock.toHub since)
      page.messages))).record hub
        (⟨.castsByMention own, hub past (.castsByMention own)⟩ :: past)).value with
  | error error =>
      rw [Task.record_bind_of_error hub _ written]
      rfl
  | ok mentions =>
      rw [Task.record_bind_of_ok hub _ written]
      rfl

end Course

end PollHerald.Hub
