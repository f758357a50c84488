import Mathlib
import PollHerald.Proofs.Clock
import PollHerald.Proofs.Hub.Retention

set_option autoImplicit false

/-! What a poll returns. A batch shows the kept messages of the page and nothing else, and reaches
up to the newest of them. Without a kept message there is no batch, and no second request. -/

namespace PollHerald.Hub

/-- A batch that shows the given messages and nothing else: one mention for each of them, by time,
and a cursor that names the newest of them. -/
structure Batch.Shows (own : Fid) (messages : List Message) (batch : Batch) : Prop where
  mentions : ∃ ordered, Message.ByTime messages ordered ∧
    List.Forall₂ (Message.ShownAs own) ordered batch.mentions
  ascending : batch.mentions.Pairwise fun earlier later => earlier.timestamp ≤ later.timestamp
  next : ∃ newest ∈ messages, batch.next = newest.timestamp + Clock.epoch ∧
    ∀ message ∈ messages, message.timestamp ≤ newest.timestamp

/-- The messages of a page that a poll after `since`, in Unix seconds, keeps. -/
def Page.kept (page : Page) (since : Nat) : List Message :=
  page.messages.filter (Message.isNew (Clock.toHub since))

private theorem ascending_of_shownAs {own : Fid} {ordered : List Message}
    {mentions : List Mention} (shown : List.Forall₂ (Message.ShownAs own) ordered mentions)
    (sorted : ordered.Pairwise fun earlier later => earlier.timestamp ≤ later.timestamp) :
    mentions.Pairwise fun earlier later => earlier.timestamp ≤ later.timestamp := by
  have sameTimes : mentions.map Mention.timestamp = ordered.map Message.timestamp := by
    induction shown with
    | nil => rfl
    | cons first _ ih =>
        rw [List.map_cons, List.map_cons, Message.timestamp_of_shownAs first,
          ih (List.pairwise_cons.mp sorted).2]
  have timed := List.pairwise_map.mpr sorted
  rw [← sameTimes] at timed
  exact List.pairwise_map.mp timed

theorem newest_of_kept {since : Nat} {messages : List Message}
    (present : newCasts since messages ≠ []) :
    ∃ newest ∈ messages.filter (Message.isNew since),
      newestTime (newCasts since messages) = newest.timestamp ∧
        ∀ message ∈ messages.filter (Message.isNew since),
          message.timestamp ≤ newest.timestamp := by
  have sameCasts := map_cast?_filter_isNew since messages
  obtain ⟨greatest, greatestMem, top, bound⟩ := newestTime_mem present
  have lifted : some greatest ∈ (messages.filter (Message.isNew since)).map Message.cast? := by
    rw [sameCasts]
    exact List.mem_map_of_mem greatestMem
  obtain ⟨newest, newestMem, found⟩ := List.mem_map.mp lifted
  have newestTime := Message.timestamp_of_cast? found
  refine ⟨newest, newestMem, top.trans newestTime.symm, ?_⟩
  intro message messageMem
  have lowered := List.mem_map_of_mem (f := Message.cast?) messageMem
  rw [sameCasts] at lowered
  obtain ⟨raw, rawMem, same⟩ := List.mem_map.mp lowered
  rw [Message.timestamp_of_cast? same.symm, newestTime]
  exact bound raw rawMem

section Course

variable {hub : List Exchange → Request → Answer} {past : List Exchange}
variable {identity : Identity} {since : Nat} {page : Page}

/-- Only a page without a kept message makes a poll say that there is nothing new. A failure to
write a cast out has other errors. -/
theorem lastMentions_noNewCasts_iff
    (served : (hub past (.castsByMention identity.fid)).Serves page) :
    ((lastMentions (some identity) since).run hub past).value = .error (.hub .noNewCasts) ↔
      page.kept since = [] := by
  rw [(lastMentions_run hub past identity since).1, Page.kept, ← newCasts_eq_nil_iff]
  by_cases nothing : newCasts (Clock.toHub since) page.messages = []
  · simp only [mentionsSince_of_nothing hub past served nothing, Batch.ofOutcome, nothing]
  · simp only [nothing, iff_false]
    rw [mentionsSince_of_some hub past served nothing]
    intro nothingNew
    cases written : ((normalizeAll [] identity.fid (byTime (newCasts (Clock.toHub since)
        page.messages))).record hub
          (⟨.castsByMention identity.fid, hub past (.castsByMention identity.fid)⟩ ::
            past)).value with
    | error cause =>
        rw [written] at nothingNew
        cases nothingNew
        cases normalizeAll_error hub _ written
    | ok mentions =>
        rw [written] at nothingNew
        simp only [Except.map, Batch.ofOutcome] at nothingNew
        split at nothingNew
        · cases nothingNew
        · cases nothingNew

theorem lastMentions_shows {batch : Batch}
    (served : (hub past (.castsByMention identity.fid)).Serves page)
    (succeeds : ((lastMentions (some identity) since).run hub past).value = .ok batch) :
    batch.Shows identity.fid (page.kept since) := by
  have present : newCasts (Clock.toHub since) page.messages ≠ [] := by
    intro nothing
    rw [(lastMentions_noNewCasts_iff served).mpr ((newCasts_eq_nil_iff _ _).mp nothing)] at succeeds
    cases succeeds
  rw [(lastMentions_run hub past identity since).1, mentionsSince_of_some hub past served present]
    at succeeds
  cases written : ((normalizeAll [] identity.fid (byTime (newCasts (Clock.toHub since)
      page.messages))).record hub
        (⟨.castsByMention identity.fid, hub past (.castsByMention identity.fid)⟩ ::
          past)).value with
  | error cause =>
      rw [written] at succeeds
      cases succeeds
  | ok mentions =>
      rw [written] at succeeds
      simp only [Except.map, Batch.ofOutcome] at succeeds
      split at succeeds
      · rename_i next inRange
        cases succeeds
        have ordered := Message.byTime_sort (page.kept since)
        have shown := normalizeAll_shownAs hub _
          (map_cast?_sort (Clock.toHub since) page.messages) written
        obtain ⟨newest, newestMem, top, bound⟩ := newest_of_kept present
        refine ⟨⟨_, ordered, shown⟩, ascending_of_shownAs shown ordered.ascending,
          newest, newestMem, ?_, bound⟩
        rw [← top]
        exact ((Clock.toUnix?_eq_some_iff _ _).mp inRange).1
      · cases succeeds

theorem page_of_mentionsSince {own : Fid} {found : List Mention × Nat}
    (succeeds : ((mentionsSince own since).record hub past).value = .ok found) :
    ∃ page, (hub past (.castsByMention own)).Serves page := by
  obtain ⟨page, served, _⟩ := Task.record_bind_eq_ok hub past succeeds
  rw [Task.record_fetch] at served
  exact ⟨page, (Answer.outcome_eq_ok_iff _ _ _ _).mp served⟩

end Course

/-- A hub that has one page for everybody, and one name. -/
def Answer.staged (page : String) : Request → Answer
  | .castsByMention _ => .response 200 (some page)
  | .usernameProofs _ => .response 200 (some "[[[10,\"alice\",\"0x01\"]]]")
  | .verifications _ => .response 200 (some "[[],null]")
  | _ => .unreachable

/-- The identity of account 7 with a key of one repeated byte. -/
def sampleIdentity : Identity :=
  { fid := 7, seed := List.replicate 32 7, seedLength := rfl }

end PollHerald.Hub
