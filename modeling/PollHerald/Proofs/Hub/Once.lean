import PollHerald.Proofs.Hub.Attempt
import PollHerald.Proofs.Hub.Poll

set_option autoImplicit false

/-! A poll makes each request once. The page is asked for first, and a user only while the name is
not known yet. So whatever a hub answers over time, within one poll it is no different from one
whose answers depend on the request alone. -/

namespace PollHerald.Hub

/-- The user that a lookup is about. -/
def Request.user? : Request → Option Fid
  | .usernameProofs fid | .verifications fid => some fid
  | _ => none

theorem Request.user?_of_mem_lookup {fid : Fid} {request : Request}
    (member : request ∈ lookup fid) : request.user? = some fid := by
  simp only [lookup, List.mem_cons, List.not_mem_nil, or_false] at member
  rcases member with rfl | rfl <;> rfl

theorem nodup_lookup (fid : Fid) : (lookup fid).Nodup := by
  simp [lookup]

/-- Lookups of users whose names are not known, each made once. -/
structure Names.Fresh (names : Names) (asked : List Request) : Prop where
  nodup : asked.Nodup
  unknown : ∀ request ∈ asked, ∃ fid, request.user? = some fid ∧ names.lookup fid = none

/-- Names that were known before, and those of the users that were looked up since. -/
structure Names.Grows (names : Names) (asked : List Request) (known : Names) : Prop where
  keeps : ∀ fid, (names.lookup fid).isSome → (known.lookup fid).isSome
  covers : ∀ request ∈ asked, ∃ fid, request.user? = some fid ∧ (known.lookup fid).isSome

namespace Names

variable {names middle known : Names} {first second : List Request}

theorem fresh_nil (names : Names) : names.Fresh [] where
  nodup := .nil
  unknown := fun _ absent => nomatch absent

/-- To look users up is to submit nothing. -/
theorem Fresh.submits_nothing (fresh : names.Fresh first) (bytes : List UInt8) :
    .submit bytes ∉ first := by
  intro submits
  obtain ⟨_, user, _⟩ := fresh.unknown _ submits
  cases user

theorem grows_nil (names : Names) : names.Grows [] names where
  keeps := fun _ before => before
  covers := fun _ absent => nomatch absent

/-- Lookups that go on where others ended do not come back to their users. -/
theorem Fresh.append (fresh : names.Fresh first) (grows : names.Grows first middle)
    (later : middle.Fresh second) : names.Fresh (first ++ second) where
  nodup := by
    refine List.nodup_append.mpr ⟨fresh.nodup, later.nodup, ?_⟩
    rintro request inFirst _ inSecond rfl
    obtain ⟨fid, user, present⟩ := grows.covers request inFirst
    obtain ⟨other, sameUser, absent⟩ := later.unknown request inSecond
    cases user.symm.trans sameUser
    rw [absent] at present
    cases present
  unknown := by
    intro request member
    rcases List.mem_append.mp member with inFirst | inSecond
    · exact fresh.unknown request inFirst
    · obtain ⟨fid, user, absent⟩ := later.unknown request inSecond
      refine ⟨fid, user, ?_⟩
      by_contra present
      have stillPresent := grows.keeps fid (Option.isSome_iff_ne_none.mpr present)
      rw [absent] at stillPresent
      cases stillPresent

theorem Grows.append (grows : names.Grows first middle) (later : middle.Grows second known) :
    names.Grows (first ++ second) known where
  keeps := fun fid before => later.keeps fid (grows.keeps fid before)
  covers := by
    intro request member
    rcases List.mem_append.mp member with inFirst | inSecond
    · obtain ⟨fid, user, present⟩ := grows.covers request inFirst
      exact ⟨fid, user, later.keeps fid present⟩
    · exact later.covers request inSecond

end Names

namespace Task

variable {α β : Type} (hub : List Exchange → Request → Answer) (past : List Exchange)

/-- The requests that a task makes, in order. -/
def asked (task : Task α) : List Request :=
  (task.record hub past).exchanges.map Exchange.request

theorem asked_bind_of_ok {task : Task α} {next : α → Task β} {value : α}
    (succeeds : (task.record hub past).value = .ok value) :
    asked hub past (task >>= next) =
      asked hub past task ++
        asked hub ((task.record hub past).exchanges.reverse ++ past) (next value) := by
  rw [asked, record_bind_of_ok hub past succeeds]
  exact List.map_append

theorem asked_bind_of_error {task : Task α} {next : α → Task β} {error : Error}
    (fails : (task.record hub past).value = .error error) :
    asked hub past (task >>= next) = asked hub past task := by
  rw [asked, record_bind_of_error hub past fails, asked]

theorem exchanges_prefix_bind (task : Task α) (next : α → Task β) :
    (task.record hub past).exchanges <+: (record (task >>= next) hub past).exchanges := by
  cases outcome : (task.record hub past).value with
  | error error =>
      rw [record_bind_of_error hub past outcome]
  | ok value =>
      rw [record_bind_of_ok hub past outcome]
      exact List.prefix_append _ _

theorem asked_bind_of_silent {task : Task α} {next : α → Task β}
    (silent : ∀ value past, asked hub past (next value) = []) :
    asked hub past (task >>= next) = asked hub past task := by
  rw [asked, exchanges_bind_of_silent hub past fun value past => List.map_eq_nil_iff.mp
    (silent value past), asked]

theorem asked_fetch (request : Request) (read : Json.Value → Option α) :
    asked hub past (fetch request read) = [request] := by
  rw [asked, record_fetch]
  rfl

/-- A lookup asks for the usernames of a user first, and then, at most, for the verifications. -/
theorem asked_profile (fid : Fid) : asked hub past (profile fid) <+: lookup fid :=
  (attempts_profile hub past fid).attempted.requests_prefix

end Task

/-- A task that looks up users whose names it does not know, each once, and leaves them known. -/
structure Task.Looks {α : Type} (hub : List Exchange → Request → Answer) (past : List Exchange)
    (names : Names) (task : Task α) (learned : α → Names) : Prop where
  fresh : names.Fresh (task.asked hub past)
  grows : ∀ value, (task.record hub past).value = .ok value →
    names.Grows (task.asked hub past) (learned value)

section Course

variable {α β : Type} {hub : List Exchange → Request → Answer} {names : Names}

theorem fresh_bind {past : List Exchange} {task : Task α} {learned : α → Names}
    {next : α → Task β} (looks : task.Looks hub past names learned)
    (later : ∀ value past, (learned value).Fresh ((next value).asked hub past)) :
    names.Fresh (Task.asked hub past (task >>= next)) := by
  cases outcome : (task.record hub past).value with
  | error error =>
      rw [Task.asked_bind_of_error hub past outcome]
      exact looks.fresh
  | ok value =>
      rw [Task.asked_bind_of_ok hub past outcome]
      exact looks.fresh.append (looks.grows value outcome) (later value _)

theorem looks_bind {past : List Exchange} {task : Task α} {learned : α → Names}
    {next : α → Task β} {learnedNext : β → Names} (looks : task.Looks hub past names learned)
    (later : ∀ value past, (next value).Looks hub past (learned value) learnedNext) :
    Task.Looks hub past names (task >>= next) learnedNext where
  fresh := fresh_bind looks fun value past => (later value past).fresh
  grows := by
    intro value succeeds
    obtain ⟨found, first, second⟩ := Task.record_bind_eq_ok hub past succeeds
    rw [Task.asked_bind_of_ok hub past first]
    exact (looks.grows found first).append ((later found _).grows value second)

theorem profile_looks (past : List Exchange) {fid : Fid} (unknown : names.lookup fid = none) :
    (profile fid).Looks hub past names fun user => (fid, user.username) :: names where
  fresh := by
    have asked := Task.asked_profile hub past fid
    refine ⟨(nodup_lookup fid).sublist asked.sublist, fun request member => ⟨fid, ?_, unknown⟩⟩
    exact Request.user?_of_mem_lookup (asked.subset member)
  grows := by
    intro user _
    refine ⟨fun other before => ?_, fun request member => ⟨fid, ?_, ?_⟩⟩
    · rw [List.lookup_cons]
      split
      · rfl
      · exact before
    · exact Request.user?_of_mem_lookup ((Task.asked_profile hub past fid).subset member)
    · rw [List.lookup_cons_self]
      rfl

theorem learnNames_looks (past : List Exchange) (fids : List Fid) :
    (learnNames names fids).Looks hub past names id := by
  induction fids generalizing names past with
  | nil =>
      refine ⟨names.fresh_nil, ?_⟩
      intro known done
      cases done
      exact names.grows_nil
  | cons fid rest ih =>
      unfold learnNames
      split
      · exact ih past
      · rename_i unknown
        have absent : names.lookup fid = none := Option.not_isSome_iff_eq_none.mp unknown
        exact looks_bind (profile_looks past absent) fun user past => ih past

theorem normalize_looks (past : List Exchange) (own : Fid) (cast : RawCast) :
    (normalize names own cast).Looks hub past names Prod.snd := by
  refine looks_bind (learnNames_looks past _) fun known past => ?_
  split
  · refine ⟨known.fresh_nil, ?_⟩
    intro value succeeds
    cases succeeds
  · refine ⟨known.fresh_nil, ?_⟩
    intro value succeeds
    cases succeeds
    exact known.grows_nil

theorem normalizeAll_fresh (past : List Exchange) (own : Fid) (casts : List RawCast) :
    names.Fresh ((normalizeAll names own casts).asked hub past) := by
  induction casts generalizing names past with
  | nil => exact names.fresh_nil
  | cons cast rest ih =>
      refine fresh_bind (normalize_looks past own cast) fun found past => ?_
      rw [Task.asked_bind_of_silent hub past fun _ _ => rfl]
      exact ih past

/-- A cast is read with one request, and for its names users are looked up. -/
theorem asked_castById {past : List Exchange} {identity : Option Identity} (fid : Fid)
    (hash : String) :
    ∃ lookups, Names.Fresh [] lookups ∧
      (castById identity fid hash).asked hub past = .castById fid hash :: lookups := by
  unfold castById
  cases fetched : ((fetch (.castById fid hash) Message.read).record hub past).value with
  | error error =>
      rw [Task.asked_bind_of_error hub past fetched, Task.asked_fetch]
      exact ⟨[], Names.fresh_nil [], rfl⟩
  | ok message =>
      rw [Task.asked_bind_of_ok hub past fetched, Task.asked_fetch, List.singleton_append]
      refine ⟨_, ?_, rfl⟩
      cases message.cast? with
      | none => exact Names.fresh_nil []
      | some cast =>
          simp only
          rw [Task.asked_bind_of_silent hub _ fun _ _ => rfl]
          exact (normalize_looks _ _ cast).fresh

variable (hub)

/-- A poll asks for the page, and for the names in it users are looked up. -/
theorem mentionsSince_asked (past : List Exchange) (own : Fid) (since : Nat) :
    ∃ lookups, Names.Fresh [] lookups ∧
      (mentionsSince own since).asked hub past = .castsByMention own :: lookups := by
  unfold mentionsSince
  cases fetched : ((fetch (.castsByMention own) Page.read).record hub past).value with
  | error error =>
      rw [Task.asked_bind_of_error hub past fetched, Task.asked_fetch]
      exact ⟨[], Names.fresh_nil [], rfl⟩
  | ok page =>
      rw [Task.asked_bind_of_ok hub past fetched, Task.asked_fetch, List.singleton_append]
      refine ⟨_, ?_, rfl⟩
      cases nothing : (newCasts (Clock.toHub since) page.messages).isEmpty with
      | true =>
          simp only [nothing, if_true]
          exact Names.fresh_nil []
      | false =>
          simp only [nothing, Bool.false_eq_true, if_false]
          rw [Task.asked_bind_of_silent hub _ fun _ _ => rfl]
          exact normalizeAll_fresh _ own _

theorem mentionsSince_asks_page (past : List Exchange) (own : Fid) (since : Nat) :
    ⟨.castsByMention own, hub past (.castsByMention own)⟩ ∈
      ((mentionsSince own since).record hub past).exchanges := by
  have first : ((fetch (.castsByMention own) Page.read).record hub past).exchanges <+:
      ((mentionsSince own since).record hub past).exchanges :=
    Task.exchanges_prefix_bind _ _ _ _
  rw [Task.record_fetch] at first
  exact first.subset List.mem_cons_self

/-- A poll makes no request twice. -/
theorem mentionsSince_asks_once (past : List Exchange) (own : Fid) (since : Nat) :
    ((mentionsSince own since).asked hub past).Nodup := by
  obtain ⟨lookups, fresh, asked⟩ := mentionsSince_asked hub past own since
  rw [asked, List.nodup_cons]
  refine ⟨fun page => ?_, fresh.nodup⟩
  obtain ⟨fid, user, _⟩ := fresh.unknown _ page
  cases user

variable {hub} {past : List Exchange} {exchange : Exchange} (bytes : List UInt8)

theorem Task.submits_nothing {task : Task α} (reads : .submit bytes ∉ task.asked hub past)
    (member : exchange ∈ (task.record hub past).exchanges) : exchange.request ≠ .submit bytes := by
  intro submits
  have isAsked : exchange.request ∈ task.asked hub past := List.mem_map_of_mem member
  exact reads (submits ▸ isAsked)

theorem castById_submits_nothing {identity : Option Identity} {fid : Fid} {hash : String}
    (member : exchange ∈ ((castById identity fid hash).record hub past).exchanges) :
    exchange.request ≠ .submit bytes := by
  refine Task.submits_nothing bytes ?_ member
  obtain ⟨lookups, fresh, asked⟩ : ∃ lookups, Names.Fresh [] lookups ∧
      (castById identity fid hash).asked hub past = .castById fid hash :: lookups :=
    asked_castById fid hash
  rw [asked, List.mem_cons, not_or]
  exact ⟨Request.noConfusion, fresh.submits_nothing bytes⟩

theorem mentionsSince_submits_nothing {own : Fid} {since : Nat}
    (member : exchange ∈ ((mentionsSince own since).record hub past).exchanges) :
    exchange.request ≠ .submit bytes := by
  refine Task.submits_nothing bytes ?_ member
  obtain ⟨lookups, fresh, asked⟩ := mentionsSince_asked hub past own since
  rw [asked, List.mem_cons, not_or]
  exact ⟨Request.noConfusion, fresh.submits_nothing bytes⟩

theorem profile_submits_nothing {fid : Fid}
    (member : exchange ∈ ((profile fid).record hub past).exchanges) :
    exchange.request ≠ .submit bytes := by
  refine Task.submits_nothing bytes ?_ member
  have looks : (profile fid).Looks hub past [] fun user => (fid, user.username) :: [] :=
    profile_looks past rfl
  exact looks.fresh.submits_nothing bytes

end Course

theorem exists_agreeing {exchanges : List Exchange}
    (once : (exchanges.map Exchange.request).Nodup) :
    ∃ answers : Request → Answer, ∀ exchange ∈ exchanges,
      answers exchange.request = exchange.answer := by
  induction exchanges with
  | nil => exact ⟨fun _ => .unreachable, fun _ absent => nomatch absent⟩
  | cons exchange rest ih =>
      obtain ⟨new, onceLater⟩ := List.nodup_cons.mp once
      obtain ⟨answers, agrees⟩ := ih onceLater
      refine ⟨Function.update answers exchange.request exchange.answer, ?_⟩
      refine List.forall_mem_cons.mpr ⟨Function.update_self .., fun later member => ?_⟩
      have differs : later.request ≠ exchange.request := by
        intro same
        exact new (same ▸ List.mem_map_of_mem member)
      rw [Function.update_of_ne differs]
      exact agrees later member

/-- Whatever a hub does, a poll of it goes as with answers that depend on the request alone. -/
theorem Setting.exists_steady {setting : Setting} {identity : Identity}
    (installed : setting.identity = some identity) (since : Nat) :
    ∃ answers, setting.poll since = (steady identity answers setting.past).poll since ∧
      answers (.castsByMention identity.fid) =
        setting.hub setting.past (.castsByMention identity.fid) := by
  obtain ⟨answers, agrees⟩ :=
    exists_agreeing (mentionsSince_asks_once setting.hub setting.past identity.fid since)
  have sameOutcome := Dialogue.answered_of_agrees answers setting.hub setting.past
    (ExceptT.run (mentionsSince identity.fid since)) agrees
  refine ⟨answers, ?_, ?_⟩
  · rw [poll, poll, installed, (lastMentions_run setting.hub setting.past identity since).1, steady,
      (lastMentions_run _ setting.past identity since).1, Task.record_value_eq_answered]
    exact congrArg Batch.ofOutcome sameOutcome.symm
  · exact agrees _ (mentionsSince_asks_page setting.hub setting.past identity.fid since)

end PollHerald.Hub
