import PollHerald.Proofs.Hub.Poll

set_option autoImplicit false

/-! Polls that break off. The time of the newest kept message is turned into a cursor only after all
casts were written out. Where no cursor can hold it, the poll has neither a batch nor an error of
the hub to return. -/

namespace PollHerald.Hub

theorem Batch.ofOutcome_eq_clockOverflow_iff (outcome : Except Error (List Mention × Nat)) :
    ofOutcome outcome = .error .clockOverflow ↔
      ∃ mentions newest, outcome = .ok (mentions, newest) ∧
        Width.bound64 ≤ newest + Clock.epoch := by
  constructor
  · intro breaks
    cases outcome with
    | error error => cases breaks
    | ok found =>
        obtain ⟨mentions, newest⟩ := found
        simp only [ofOutcome] at breaks
        split at breaks
        · cases breaks
        · rename_i unfit
          exact ⟨mentions, newest, rfl, (Clock.toUnix?_eq_none_iff newest).mp unfit⟩
  · intro found
    obtain ⟨mentions, newest, succeeded, unfit⟩ := found
    rw [succeeded]
    simp only [ofOutcome, (Clock.toUnix?_eq_none_iff newest).mpr unfit]

namespace Setting

variable {setting : Setting} {own : Fid} {page : Page} {since : Nat}

/-- What writing out the casts that a poll keeps of a page comes to. -/
def written (setting : Setting) (own : Fid) (page : Page) (since : Nat) :
    Except Error (List Mention) :=
  let fetched : Exchange :=
    ⟨.castsByMention own, setting.hub setting.past (.castsByMention own)⟩
  ((normalizeAll [] own (byTime (newCasts (Clock.toHub since) page.messages))).record setting.hub
    (fetched :: setting.past)).value

/-- Whether a poll gets a page with a new cast later than the Unix clock can tell, and can write out
all casts that are new there. -/
def MeetsUnfitCast (setting : Setting) (since : Nat) : Prop :=
  ∃ own page, setting.Serves own page ∧
    (∃ mentions, setting.written own page since = .ok mentions) ∧
    ∃ message ∈ page.kept since, Width.bound64 ≤ message.timestamp + Clock.epoch

theorem poll_of_kept (served : setting.Serves own page) (present : page.kept since ≠ []) :
    setting.poll since = Batch.ofOutcome ((setting.written own page since).map fun mentions =>
      (mentions, newestTime (newCasts (Clock.toHub since) page.messages))) := by
  obtain ⟨identity, installed, rfl, answered⟩ := served
  have some : newCasts (Clock.toHub since) page.messages ≠ [] :=
    mt (newCasts_eq_nil_iff _ _).mp present
  rw [poll, installed, (lastMentions_run _ _ identity since).1,
    mentionsSince_of_some setting.hub setting.past answered some]
  rfl

theorem serves_of_clockOverflow (breaks : setting.poll since = .error .clockOverflow) :
    ∃ own page, setting.Serves own page := by
  rw [poll_eq, Batch.ofOutcome_eq_clockOverflow_iff] at breaks
  obtain ⟨mentions, newest, succeeded, _⟩ := breaks
  exact serves_of_outcome succeeded

/-- A poll breaks off exactly where the newest of its casts has no Unix time. -/
theorem poll_clockOverflow_iff (setting : Setting) (since : Nat) :
    setting.poll since = .error .clockOverflow ↔ setting.MeetsUnfitCast since := by
  constructor
  · intro breaks
    obtain ⟨own, page, served⟩ := serves_of_clockOverflow breaks
    have present : page.kept since ≠ [] := by
      intro nothing
      rw [(poll_noNewCasts_iff served).mpr nothing] at breaks
      cases breaks
    rw [poll_of_kept served present] at breaks
    obtain ⟨mentions, time, outcome, unfit⟩ :=
      (Batch.ofOutcome_eq_clockOverflow_iff _).mp breaks
    cases written : setting.written own page since with
    | error cause =>
        rw [written] at outcome
        cases outcome
    | ok shown =>
        rw [written] at outcome
        cases outcome
        obtain ⟨newest, newestMem, top, _⟩ :=
          newest_of_kept (mt (newCasts_eq_nil_iff _ _).mp present)
        rw [top] at unfit
        exact ⟨own, page, served, ⟨_, written⟩, newest, newestMem, unfit⟩
  · intro meets
    obtain ⟨own, page, served, ⟨mentions, written⟩, message, kept, unfit⟩ := meets
    have present : page.kept since ≠ [] := List.ne_nil_of_mem kept
    obtain ⟨newest, _, top, bound⟩ := newest_of_kept (mt (newCasts_eq_nil_iff _ _).mp present)
    have newestUnfit : Width.bound64 ≤ newest.timestamp + Clock.epoch :=
      Nat.le_trans unfit (Nat.add_le_add_right (bound message kept) _)
    rw [poll_of_kept served present, Batch.ofOutcome_eq_clockOverflow_iff, written]
    exact ⟨mentions, newest.timestamp, by rw [top]; rfl, newestUnfit⟩

theorem next_lt_of_poll {batch : Batch} (succeeds : setting.poll since = .ok batch) :
    batch.next < Width.bound64 := by
  rw [poll_eq, Batch.ofOutcome_eq_ok_iff] at succeeds
  obtain ⟨_, _, _, bounded⟩ := succeeds
  exact bounded

end Setting

end PollHerald.Hub
