import PollHerald.Proofs.Hub.Poll

set_option autoImplicit false

/-! What a cursor means. After the hub's epoch it is a Unix time, and a cast is kept where it is
later on that clock. Up to the epoch it is taken for hub seconds as it stands. Either scale keeps
the order of cursors, and only between them an earlier cursor may keep less than a later one. -/

namespace PollHerald.Hub

/-- Whether a message adds a cast that has a text. -/
def Message.hasText (message : Message) : Bool :=
  message.content.any fun content =>
    content.kind == castKind && content.cast.any fun cast => !cast.text.isEmpty

theorem Message.isNew_eq (since : Nat) (message : Message) :
    message.isNew since = (message.hasText && decide (since < message.timestamp)) := by
  unfold isNew hasText timestamp
  cases message.content with
  | none => rfl
  | some content => rfl

namespace Page

variable (page : Page)

theorem mem_kept_iff (since : Nat) (message : Message) :
    message ∈ page.kept since ↔
      message ∈ page.messages ∧ message.hasText = true ∧
        if Clock.epoch < since then since < message.timestamp + Clock.epoch
        else since < message.timestamp := by
  rw [kept, List.mem_filter, Message.isNew_eq, Bool.and_eq_true, decide_eq_true_iff,
    Clock.toHub_lt_iff]

theorem kept_sublist_of_le {since later : Nat} (ordered : Clock.toHub since ≤ Clock.toHub later) :
    (page.kept later).Sublist (page.kept since) := by
  apply List.monotone_filter_right
  intro message new
  exact Message.isNew_of_isNew new (Nat.lt_of_le_of_lt ordered (Message.lt_timestamp_of_isNew new))

end Page

/-- How a cursor decides what a poll keeps. A cursor after the hub's epoch is a Unix time, any other
one counts in hub seconds. Of two cursors on one side of the epoch the later one keeps no more. Of
two cursors on different sides the earlier one keeps what the later one does only where that is
also later in hub seconds. -/
theorem poll_keeps_by_side_of_epoch {setting : Setting} {own : Fid} {page : Page}
    (served : setting.Serves own page) (since : Nat) :
    (setting.poll since = .error (.hub .noNewCasts) ↔ page.kept since = []) ∧
      (∀ batch, setting.poll since = .ok batch → batch.Shows own (page.kept since)) ∧
      (∀ message, message ∈ page.kept since ↔
        message ∈ page.messages ∧ message.hasText = true ∧
          if Clock.epoch < since then since < message.timestamp + Clock.epoch
          else since < message.timestamp) ∧
      (∀ later, since ≤ later → later ≤ Clock.epoch ∨ Clock.epoch < since →
        (page.kept later).Sublist (page.kept since)) ∧
      ∀ later, since ≤ Clock.epoch → Clock.epoch < later → ∀ message ∈ page.kept later,
        (message ∈ page.kept since ↔ since < message.timestamp) := by
  refine ⟨Setting.poll_noNewCasts_iff served, fun _ => Setting.poll_shows served,
    page.mem_kept_iff since, ?_, ?_⟩
  · intro later ordered sameSide
    exact page.kept_sublist_of_le (Clock.toHub_le_toHub ordered sameSide)
  · intro later early _ message keptLater
    obtain ⟨onPage, hasText, _⟩ := (page.mem_kept_iff later message).mp keptLater
    rw [page.mem_kept_iff, if_neg (Nat.not_lt.mpr early)]
    constructor
    · intro kept
      exact kept.2.2
    · intro after
      exact ⟨onPage, hasText, after⟩

/-- Casts of the times 10 and 30. -/
def twoCasts : Page :=
  { messages := [10, 30].map fun time => {
      content := some {
        kind := castKind
        fid := 20
        timestamp := time
        cast := some { text := "hi", mentions := [], positions := [], parent := none }
        address := none }
      hash := "0x01"
      signer := "" }
    nextPageToken := none }

def twoCastsHub : Setting :=
  .steady sampleIdentity (Answer.staged
    ("[[[[\"MESSAGE_TYPE_CAST_ADD\",20,10,[\"hi\",[],[],null],null],\"0x01\",\"\"]," ++
    "[[\"MESSAGE_TYPE_CAST_ADD\",20,30,[\"hi\",[],[],null],null],\"0x01\",\"\"]],null]")) []

set_option maxRecDepth 10000 in
theorem twoCastsHub_serves : twoCastsHub.Serves 7 twoCasts :=
  ⟨sampleIdentity, rfl, rfl, _, rfl, by cbv⟩

/-- Cursors on both sides of the epoch, and a pair across it. -/
theorem twoCasts_kept_by_side_of_epoch :
    twoCastsHub.Serves 7 twoCasts ∧
      (twoCasts.kept (Clock.epoch + 5)).map Message.timestamp = [10, 30] ∧
      (twoCasts.kept 20).map Message.timestamp = [30] ∧
      (twoCasts.kept 20).Sublist (twoCasts.kept 5) ∧
      (twoCasts.kept (Clock.epoch + 20)).Sublist (twoCasts.kept (Clock.epoch + 5)) ∧
      ∀ message ∈ twoCasts.kept (Clock.epoch + 5),
        (message ∈ twoCasts.kept 20 ↔ 20 < message.timestamp) := by
  have early := (poll_keeps_by_side_of_epoch twoCastsHub_serves 5).2.2.2.1 20 (by decide)
    (.inl (by decide))
  have late := (poll_keeps_by_side_of_epoch twoCastsHub_serves (Clock.epoch + 5)).2.2.2.1
    (Clock.epoch + 20) (by decide) (.inr (by decide))
  have across := (poll_keeps_by_side_of_epoch twoCastsHub_serves 20).2.2.2.2 (Clock.epoch + 5)
    (by decide) (by decide)
  exact ⟨twoCastsHub_serves, by decide, by decide, early, late, across⟩

/-- Up to the epoch a cursor is no Unix time. Both casts of the page are later than the Unix time 30,
but a poll for it has nothing new, where a poll for a later time has both. -/
theorem early_cursor_passes_over_later_casts :
    twoCastsHub.Serves 7 twoCasts ∧ twoCastsHub.poll 30 = .error (.hub .noNewCasts) ∧
      (twoCasts.kept (Clock.epoch + 5)).map Message.timestamp = [10, 30] ∧
      ¬(∀ message ∈ twoCasts.messages, message.hasText = true →
        message.timestamp + Clock.epoch < Width.bound64 →
          (message ∈ twoCasts.kept 30 ↔ 30 < message.timestamp + Clock.epoch)) ∧
      ¬(∀ since later, since ≤ later → twoCasts.kept later ⊆ twoCasts.kept since) := by
  have nothing : twoCasts.kept 30 = [] := by decide
  have both : (twoCasts.kept (Clock.epoch + 5)).length = 2 := by decide
  refine ⟨twoCastsHub_serves, (Setting.poll_noNewCasts_iff twoCastsHub_serves).mpr nothing,
    by decide, ?_, ?_⟩
  · intro inUnixTime
    have kept := (inUnixTime _ (.head _) (by decide) (by decide)).mpr (by decide)
    rw [nothing] at kept
    cases kept
  · intro ordered
    have within := ordered 30 (Clock.epoch + 5) (by decide)
    rw [nothing] at within
    rw [List.eq_nil_of_subset_nil within] at both
    cases both

end PollHerald.Hub
