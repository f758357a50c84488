import PollHerald.Proofs.Hub.Batch

set_option autoImplicit false

/-! One poll beside others: how a batch stands to the cursor that was polled for, and what a poll
for the new cursor would bring from the same page. -/

namespace PollHerald.Hub

theorem Batch.ofOutcome_eq_ok_iff (outcome : Except Error (List Mention × Nat)) (batch : Batch) :
    ofOutcome outcome = .ok batch ↔
      ∃ newest, outcome = .ok (batch.mentions, newest) ∧ batch.next = newest + Clock.epoch ∧
        batch.next < Width.bound64 := by
  constructor
  · intro succeeds
    cases outcome with
    | error error => cases succeeds
    | ok found =>
        obtain ⟨mentions, newest⟩ := found
        simp only [ofOutcome] at succeeds
        split at succeeds
        · rename_i next fits
          cases succeeds
          obtain ⟨same, bounded⟩ := (Clock.toUnix?_eq_some_iff newest next).mp fits
          exact ⟨newest, rfl, same, same ▸ bounded⟩
        · cases succeeds
  · intro found
    obtain ⟨newest, succeeded, same, bounded⟩ := found
    have fits : Clock.toUnix? newest = some batch.next :=
      (Clock.toUnix?_eq_some_iff newest _).mpr ⟨same, same ▸ bounded⟩
    rw [succeeded]
    simp only [ofOutcome, fits]

/-- What a poll meets: the installed identity, the hub, and what the hub was asked before. -/
structure Setting where
  identity : Option Identity
  hub : List Exchange → Request → Answer
  past : List Exchange

namespace Setting

/-- What a poll for a cursor comes to. -/
def poll (setting : Setting) (since : Nat) : Except Failure Batch :=
  ((lastMentions setting.identity since).run setting.hub setting.past).value

/-- Whether a poll asks for the mentions of the account `own` and gets a page. -/
def Serves (setting : Setting) (own : Fid) (page : Page) : Prop :=
  ∃ identity, setting.identity = some identity ∧ identity.fid = own ∧
    (setting.hub setting.past (.castsByMention own)).Serves page

/-- A poll of a hub whose answers depend on the request alone. Within one poll no hub shows
otherwise, as each request of it is made once. -/
def steady (identity : Identity) (answers : Request → Answer) (past : List Exchange) : Setting :=
  { identity := some identity, hub := fun _ => answers, past }

/-- What a poll comes to before its cursor is turned to the Unix clock. -/
def outcome (setting : Setting) (since : Nat) : Except Error (List Mention × Nat) :=
  match setting.identity with
  | none => .error .noIdentity
  | some identity => ((mentionsSince identity.fid since).record setting.hub setting.past).value

theorem poll_eq (setting : Setting) (since : Nat) :
    setting.poll since = Batch.ofOutcome (setting.outcome since) := by
  unfold poll outcome
  cases setting.identity with
  | none => rfl
  | some identity => exact (lastMentions_run setting.hub setting.past identity since).1

theorem serves_of_outcome {setting : Setting} {since : Nat} {found : List Mention × Nat}
    (succeeds : setting.outcome since = .ok found) : ∃ own page, setting.Serves own page := by
  unfold outcome at succeeds
  split at succeeds
  · cases succeeds
  · rename_i identity installed
    obtain ⟨page, served⟩ := page_of_mentionsSince succeeds
    exact ⟨identity.fid, page, identity, installed, rfl, served⟩

section Served

variable {setting : Setting} {own : Fid} {page : Page} {since : Nat}

theorem poll_noNewCasts_iff (served : setting.Serves own page) :
    setting.poll since = .error (.hub .noNewCasts) ↔ page.kept since = [] := by
  obtain ⟨identity, installed, rfl, answered⟩ := served
  rw [poll, installed]
  exact lastMentions_noNewCasts_iff answered

theorem poll_shows {batch : Batch} (served : setting.Serves own page)
    (succeeds : setting.poll since = .ok batch) : batch.Shows own (page.kept since) := by
  obtain ⟨identity, installed, rfl, answered⟩ := served
  rw [poll, installed] at succeeds
  exact lastMentions_shows answered succeeds

theorem serves_of_poll {batch : Batch} (succeeds : setting.poll since = .ok batch) :
    ∃ own page, setting.Serves own page := by
  rw [poll_eq, Batch.ofOutcome_eq_ok_iff] at succeeds
  obtain ⟨newest, outcome, _⟩ := succeeds
  exact serves_of_outcome outcome

end Served

end Setting

/-- A batch that lies after a cursor and moves it on. -/
structure Batch.Follows (since : Nat) (batch : Batch) : Prop where
  ascending : batch.mentions.Pairwise fun earlier later => earlier.timestamp ≤ later.timestamp
  later : ∀ mention ∈ batch.mentions, Clock.toHub since < mention.timestamp
  reached : ∀ mention ∈ batch.mentions, mention.timestamp + Clock.epoch ≤ batch.next
  advances : since < batch.next

theorem exists_partner {α β : Type} {related : α → β → Prop} {lefts : List α} {rights : List β}
    (paired : List.Forall₂ related lefts rights) {left : α} (member : left ∈ lefts) :
    ∃ right ∈ rights, related left right := by
  induction paired with
  | nil => cases member
  | cons first _ ih =>
      rcases List.mem_cons.mp member with rfl | member
      · exact ⟨_, List.mem_cons_self, first⟩
      · obtain ⟨right, inside, pair⟩ := ih member
        exact ⟨right, List.mem_cons_of_mem _ inside, pair⟩

theorem Batch.Shows.exists_message {own : Fid} {messages : List Message} {batch : Batch}
    {mention : Mention} (shows : batch.Shows own messages) (member : mention ∈ batch.mentions) :
    ∃ message ∈ messages, message.ShownAs own mention := by
  obtain ⟨ordered, byTime, shown⟩ := shows.mentions
  obtain ⟨message, inside, pair⟩ := exists_partner shown.flip member
  exact ⟨message, byTime.perm.subset inside, pair⟩

theorem Batch.Shows.exists_mention {own : Fid} {messages : List Message} {batch : Batch}
    {message : Message} (shows : batch.Shows own messages) (member : message ∈ messages) :
    ∃ mention ∈ batch.mentions, message.ShownAs own mention := by
  obtain ⟨ordered, byTime, shown⟩ := shows.mentions
  exact exists_partner shown (byTime.perm.symm.subset member)

theorem Batch.Shows.follows {own : Fid} {page : Page} {since : Nat} {batch : Batch}
    (shows : batch.Shows own (page.kept since)) : batch.Follows since := by
  have late : ∀ message ∈ page.kept since, Clock.toHub since < message.timestamp :=
    fun _ member => Message.lt_timestamp_of_isNew (List.mem_filter.mp member).2
  obtain ⟨newest, newestMem, next, bound⟩ := shows.next
  refine ⟨shows.ascending, ?_, ?_, ?_⟩
  · intro mention member
    obtain ⟨message, kept, shown⟩ := shows.exists_message member
    rw [Message.timestamp_of_shownAs shown]
    exact late message kept
  · intro mention member
    obtain ⟨message, kept, shown⟩ := shows.exists_message member
    rw [Message.timestamp_of_shownAs shown, next]
    exact Nat.add_le_add_right (bound message kept) Clock.epoch
  · rw [next]
    exact Clock.lt_add_epoch (late newest newestMem)

theorem Setting.poll_follows {setting : Setting} {since : Nat} {batch : Batch}
    (succeeds : setting.poll since = .ok batch) : batch.Follows since := by
  obtain ⟨own, page, served⟩ := serves_of_poll succeeds
  exact (poll_shows served succeeds).follows

/-- On the hub's clock, the cursor of a batch is the time of the newest message that it shows. -/
theorem Batch.Shows.toHub_next {own : Fid} {page : Page} {since : Nat} {batch : Batch}
    (shows : batch.Shows own (page.kept since)) :
    ∃ newest ∈ page.kept since, Clock.toHub batch.next = newest.timestamp ∧
      ∀ message ∈ page.kept since, message.timestamp ≤ newest.timestamp := by
  obtain ⟨newest, newestMem, next, bound⟩ := shows.next
  have late := Message.lt_timestamp_of_isNew (List.mem_filter.mp newestMem).2
  refine ⟨newest, newestMem, ?_, bound⟩
  rw [next, Clock.toHub_add_epoch (Nat.zero_lt_of_lt late)]

theorem Page.kept_next {own : Fid} {page : Page} {since : Nat} {batch : Batch}
    (shows : batch.Shows own (page.kept since)) : page.kept batch.next = [] := by
  obtain ⟨newest, newestMem, next, bound⟩ := shows.toHub_next
  have late := Message.lt_timestamp_of_isNew (List.mem_filter.mp newestMem).2
  rw [kept, List.filter_eq_nil_iff]
  intro message member new
  have later := Message.lt_timestamp_of_isNew new
  rw [next] at later
  have kept : message ∈ page.kept since :=
    List.mem_filter.mpr ⟨member, Message.isNew_of_isNew new (Nat.lt_trans late later)⟩
  exact absurd (bound message kept) (Nat.not_le_of_gt later)

/-- A page that has not changed has nothing new after the cursor that it led to. -/
theorem Setting.poll_next {setting again : Setting} {own reader : Fid} {page : Page}
    {since : Nat} {batch : Batch} (served : setting.Serves own page)
    (succeeds : setting.poll since = .ok batch) (unchanged : again.Serves reader page) :
    again.poll batch.next = .error (.hub .noNewCasts) :=
  (poll_noNewCasts_iff unchanged).mpr (Page.kept_next (poll_shows served succeeds))

end PollHerald.Hub
