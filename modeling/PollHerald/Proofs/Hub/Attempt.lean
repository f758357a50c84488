import PollHerald.Proofs.Hub.Fetch
import PollHerald.Proofs.Mention.Compose

set_option autoImplicit false

/-! Requests made in order, up to the first that fails. A profile is looked up with two requests,
and names are learned with two for each account. -/

namespace PollHerald.Hub

open Json (Value)

/-- Whether an answer is one that the request asks for. A message handed over takes any body. -/
def Exchange.Succeeds (exchange : Exchange) : Prop :=
  match exchange.request with
  | .castsByMention _ | .verifications _ => ∃ page, exchange.answer.Serves page
  | .castById _ _ => ∃ message, exchange.answer.Holds Message.read message
  | .usernameProofs _ => ∃ proofs, exchange.answer.Holds readProofs proofs
  | .submit _ => ∃ body, exchange.answer = .response 200 body

/-- Exchanges that follow a plan, as far as the requests succeed. -/
inductive Attempted : List Request → List Exchange → Prop where
  | nil : Attempted [] []
  | stop {exchange : Exchange} (rest : List Request) (fails : ¬ exchange.Succeeds) :
    Attempted (exchange.request :: rest) [exchange]
  | cons {exchange : Exchange} {rest : List Request} {later : List Exchange}
    (succeeds : exchange.Succeeds) (attempted : Attempted rest later) :
    Attempted (exchange.request :: rest) (exchange :: later)

/-- What is asked for the profile of an account. -/
def lookup (fid : Fid) : List Request :=
  [.usernameProofs fid, .verifications fid]

namespace Attempted

variable {plan rest : List Request} {exchanges later : List Exchange}

theorem requests_prefix (attempted : Attempted plan exchanges) :
    exchanges.map Exchange.request <+: plan := by
  induction attempted with
  | nil => exact List.prefix_rfl
  | stop rest fails => exact List.prefix_append [_] rest
  | cons succeeds _ ih => exact List.cons_prefix_cons.mpr ⟨rfl, ih⟩

theorem requests_eq (attempted : Attempted plan exchanges)
    (succeed : ∀ exchange ∈ exchanges, exchange.Succeeds) :
    exchanges.map Exchange.request = plan := by
  induction attempted with
  | nil => rfl
  | stop rest fails => exact absurd (succeed _ List.mem_cons_self) fails
  | cons succeeds _ ih =>
      exact congrArg _ (ih fun exchange member => succeed exchange (List.mem_cons_of_mem _ member))

theorem succeeds_of_not_last (attempted : Attempted plan exchanges) {front back : List Exchange}
    {exchange : Exchange} (split : exchanges = front ++ exchange :: back) (followed : back ≠ []) :
    exchange.Succeeds := by
  induction attempted generalizing front with
  | nil => cases front <;> cases split
  | stop rest fails =>
      cases front with
      | nil =>
          cases split
          exact absurd rfl followed
      | cons earlier between =>
          obtain ⟨_, none⟩ := List.cons.inj split
          cases between <;> cases none
  | cons succeeds _ ih =>
      cases front with
      | nil =>
          cases split
          exact succeeds
      | cons earlier between => exact ih (List.cons.inj split).2

theorem succeed_before (attempted : Attempted plan exchanges) {front back : List Exchange}
    {exchange : Exchange} (split : exchanges = front ++ exchange :: back) :
    ∀ earlier ∈ front, earlier.Succeeds := by
  intro earlier member
  obtain ⟨first, between, rfl⟩ := List.append_of_mem member
  rw [List.append_assoc, List.cons_append] at split
  exact attempted.succeeds_of_not_last split (List.append_ne_nil_of_right_ne_nil _ nofun)

/-- A request that a plan makes at its end only is the last that is planned and the last made. -/
theorem last_of_new {post : List Request} (attempted : Attempted (plan ++ post) exchanges)
    (short : post.length ≤ 1) {front back : List Exchange} {exchange : Exchange}
    (split : exchanges = front ++ exchange :: back) (new : exchange.request ∉ plan) :
    post = [exchange.request] ∧ back = [] := by
  obtain ⟨more, same⟩ := attempted.requests_prefix
  rw [split, List.map_append, List.map_cons, List.append_assoc, List.cons_append] at same
  rcases List.append_eq_append_iff.mp same with ⟨between, planned, rest⟩ | ⟨between, _, rest⟩
  · cases between with
    | nil =>
        rw [List.nil_append] at rest
        rw [← rest, List.length_cons, List.length_append, List.length_map] at short
        have nothing : back = [] ∧ more = [] := by
          constructor <;> apply List.eq_nil_of_length_eq_zero <;> omega
        obtain ⟨rfl, rfl⟩ := nothing
        exact ⟨rest.symm, rfl⟩
    | cons first others =>
        refine absurd ?_ new
        rw [planned, (List.cons.inj rest).1]
        exact List.mem_append_right _ List.mem_cons_self
  · rw [rest, List.length_append, List.length_cons, List.length_append, List.length_map] at short
    have nothing : between = [] ∧ back = [] ∧ more = [] := by
      refine ⟨?_, ?_, ?_⟩ <;> apply List.eq_nil_of_length_eq_zero <;> omega
    obtain ⟨rfl, rfl, rfl⟩ := nothing
    exact ⟨rest, rfl⟩

theorem single {request : Request} {exchange : Exchange} (asked : exchange.request = request) :
    Attempted [request] [exchange] := by
  cases asked
  by_cases succeeds : exchange.Succeeds
  · exact .cons succeeds .nil
  · exact .stop [] succeeds

theorem append (attempted : Attempted plan exchanges)
    (succeed : ∀ exchange ∈ exchanges, exchange.Succeeds) (behind : Attempted rest later) :
    Attempted (plan ++ rest) (exchanges ++ later) := by
  induction attempted with
  | nil => exact behind
  | stop _ fails => exact absurd (succeed _ List.mem_cons_self) fails
  | cons succeeds _ ih =>
      exact .cons succeeds
        (ih fun exchange member => succeed exchange (List.mem_cons_of_mem _ member))

theorem append_of_failure (attempted : Attempted plan exchanges)
    (fails : ¬ ∀ exchange ∈ exchanges, exchange.Succeeds) (rest : List Request) :
    Attempted (plan ++ rest) exchanges := by
  induction attempted with
  | nil => exact absurd (fun _ absent => nomatch absent) fails
  | stop between failsHere => exact .stop (between ++ rest) failsHere
  | cons succeeds _ ih =>
      refine .cons succeeds (ih fun all => fails ?_)
      exact List.forall_mem_cons.mpr ⟨succeeds, all⟩

end Attempted

namespace Names

variable (names : Names) {fid : Fid} (fids : List Fid)

/-- The accounts whose names are not known, each where it first comes up. -/
def missing : List Fid :=
  (fids.filter fun fid => !(names.lookup fid).isSome).eraseDups

variable {names}

theorem missing_cons_of_known (known : (names.lookup fid).isSome) :
    names.missing (fid :: fids) = names.missing fids := by
  unfold missing
  rw [List.filter_cons_of_neg (by rw [known]; exact Bool.noConfusion)]

theorem missing_cons_of_unknown (unknown : ¬ (names.lookup fid).isSome) :
    names.missing (fid :: fids) = fid :: names.missing (fids.filter fun other => !other == fid) := by
  unfold missing
  rw [List.filter_cons_of_pos (by rw [Bool.eq_false_iff.mpr unknown]; rfl), List.eraseDups_cons,
    List.filter_filter, List.filter_filter]
  simp only [Bool.and_comm]

theorem missing_of_learned (name : String) :
    names.missing (fids.filter fun other => !other == fid) =
      missing ((fid, name) :: names) fids := by
  unfold missing
  rw [List.filter_filter]
  congr 2
  funext other
  rw [List.lookup_cons]
  cases same : other == fid <;> simp

theorem missing_of_nodup (distinct : fids.Nodup) : missing [] fids = fids := by
  induction fids with
  | nil => rfl
  | cons fid rest ih =>
      obtain ⟨new, distinctRest⟩ := List.nodup_cons.mp distinct
      have others : (rest.filter fun other => !other == fid) = rest := by
        refine List.filter_eq_self.mpr fun other member => ?_
        have differs : (other == fid) = false := beq_false_of_ne fun same => new (same ▸ member)
        rw [differs]
        rfl
      have unknown : ¬ (([] : Names).lookup fid).isSome := Bool.false_ne_true
      rw [missing_cons_of_unknown rest unknown, others, ih distinctRest]

end Names

namespace Task

variable {α β : Type} (hub : List Exchange → Request → Answer) (past : List Exchange)

/-- A task that makes the requests of a plan as far as they succeed, and that succeeds where all of
them do. -/
structure Attempts (task : Task α) (plan : List Request) : Prop where
  attempted : Attempted plan (task.record hub past).exchanges
  succeeds_iff : (∃ value, (task.record hub past).value = .ok value) ↔
    ∀ exchange ∈ (task.record hub past).exchanges, exchange.Succeeds

theorem attempts_pure (value : α) : Attempts hub past (pure value) [] where
  attempted := .nil
  succeeds_iff := iff_of_true ⟨value, rfl⟩ fun _ absent => nomatch absent

theorem attempts_bind {task : Task α} {next : α → Task β} {plan rest : List Request}
    (first : task.Attempts hub past plan)
    (later : ∀ value, (task.record hub past).value = .ok value →
      (next value).Attempts hub ((task.record hub past).exchanges.reverse ++ past) rest) :
    Attempts hub past (task >>= next) (plan ++ rest) := by
  -- Where the first task fails, one of its requests did, and what is planned behind is not begun.
  cases outcome : (task.record hub past).value with
  | error error =>
      have fails : ¬ ∀ exchange ∈ (task.record hub past).exchanges, exchange.Succeeds := by
        rw [← first.succeeds_iff, outcome]
        rintro ⟨_, succeeds⟩
        cases succeeds
      refine ⟨?_, ?_⟩
      · rw [record_bind_of_error hub past outcome]
        exact first.attempted.append_of_failure fails rest
      · rw [record_bind_of_error hub past outcome]
        exact iff_of_false (fun ⟨_, succeeds⟩ => nomatch succeeds) fails
  | ok value =>
      have succeed : ∀ exchange ∈ (task.record hub past).exchanges, exchange.Succeeds :=
        first.succeeds_iff.mp ⟨value, outcome⟩
      have second := later value outcome
      refine ⟨?_, ?_⟩
      · rw [record_bind_of_ok hub past outcome]
        exact first.attempted.append succeed second.attempted
      · rw [record_bind_of_ok hub past outcome]
        refine second.succeeds_iff.trans ⟨fun all => ?_, fun all exchange member => ?_⟩
        · exact List.forall_mem_append.mpr ⟨succeed, all⟩
        · exact all exchange (List.mem_append_right _ member)

theorem attempts_fetch {request : Request} {read : Value → Option α}
    (reads : ∀ answer, Exchange.Succeeds { request, answer } ↔ ∃ value, answer.Holds read value) :
    (fetch request read).Attempts hub past [request] := by
  have succeeds_iff := reads (hub past request)
  rw [← exists_congr (Answer.outcome_eq_ok_iff request.endpoint read _)] at succeeds_iff
  refine ⟨?_, ?_⟩
  · rw [record_fetch]
    exact .single rfl
  · rw [record_fetch]
    simp only [List.mem_singleton, forall_eq, succeeds_iff]

theorem attempts_profile (fid : Fid) : (profile fid).Attempts hub past (lookup fid) := by
  have fetches : (fetchProfile fid).Attempts hub past (lookup fid) := by
    refine attempts_bind hub past (attempts_fetch hub past fun _ => Iff.rfl) fun proofs _ => ?_
    refine attempts_bind hub _ (attempts_fetch hub _ fun _ => Iff.rfl) fun page _ => ?_
    exact attempts_pure hub _ _
  have same := record_tryCatch_throw hub past (fetchProfile fid) (.profile fid)
  refine ⟨?_, ?_⟩
  · rw [profile, same]
    exact fetches.attempted
  · rw [profile, same, ← fetches.succeeds_iff]
    cases ((fetchProfile fid).record hub past).value with
    | ok found => exact iff_of_true ⟨found, rfl⟩ ⟨found, rfl⟩
    | error cause => exact iff_of_false (fun ⟨_, ok⟩ => nomatch ok) fun ⟨_, ok⟩ => nomatch ok

/-- Names are learned with a lookup for each account that has none yet. -/
theorem attempts_learnNames (names : Names) (fids : List Fid) :
    (learnNames names fids).Attempts hub past ((names.missing fids).flatMap Hub.lookup) := by
  induction fids generalizing names past with
  | nil => exact attempts_pure hub past names
  | cons fid rest ih =>
      unfold learnNames
      split
      · rename_i already
        rw [Names.missing_cons_of_known rest already]
        exact ih past names
      · rename_i unknown
        rw [Names.missing_cons_of_unknown rest unknown, List.flatMap_cons]
        refine attempts_bind hub past (attempts_profile hub past fid) fun user _ => ?_
        rw [Names.missing_of_learned rest user.username]
        exact ih _ _

end Task

def Exchange.Shows (exchange : Exchange) (cast : RawCast) : Prop :=
  ∃ message, exchange.answer.Holds Message.read message ∧ message.cast? = some cast

theorem Exchange.Shows.unique {exchange : Exchange} {one other : RawCast}
    (showsOne : exchange.Shows one) (showsOther : exchange.Shows other) : one = other := by
  obtain ⟨message, ⟨body, answer, read⟩, cast⟩ := showsOne
  obtain ⟨message', ⟨body', answer', read'⟩, cast'⟩ := showsOther
  cases answer.symm.trans answer'
  cases read.symm.trans read'
  exact Option.some.inj (cast.symm.trans cast')

theorem Exchange.Shows.succeeds {exchange : Exchange} {cast : RawCast} {fid : Fid} {hash : String}
    (shows : exchange.Shows cast) (asked : exchange.request = .castById fid hash) :
    exchange.Succeeds := by
  obtain ⟨message, holds, _⟩ := shows
  rw [Succeeds, asked]
  exact ⟨message, holds⟩

section Cast

variable (hub : List Exchange → Request → Answer) (past : List Exchange)

theorem exchanges_normalize (names : Names) (own : Fid) (cast : RawCast) :
    ((normalize names own cast).record hub past).exchanges =
      ((learnNames names (Mention.fidsToResolve own cast.mentions cast.positions)).record hub
        past).exchanges := by
  refine Task.exchanges_bind_of_silent hub past fun known past => ?_
  cases composeText known own cast <;> rfl

theorem attempts_names (own : Fid) (cast : RawCast) :
    (learnNames [] (Mention.fidsToResolve own cast.mentions cast.positions)).Attempts hub past
      ((Mention.fidsToResolve own cast.mentions cast.positions).flatMap lookup) := by
  have ascending := Mention.ascending_fidsToResolve own cast.mentions cast.positions
  have attempts := Task.attempts_learnNames hub past []
    (Mention.fidsToResolve own cast.mentions cast.positions)
  rw [Names.missing_of_nodup _ (ascending.imp Nat.ne_of_lt)] at attempts
  exact attempts

theorem attempted_normalize (own : Fid) (cast : RawCast) :
    Attempted ((Mention.fidsToResolve own cast.mentions cast.positions).flatMap lookup)
      ((normalize [] own cast).record hub past).exchanges := by
  rw [exchanges_normalize]
  exact (attempts_names hub past own cast).attempted

theorem succeed_of_normalize {own : Fid} {cast : RawCast} {found : Mention × Names}
    (written : ((normalize [] own cast).record hub past).value = .ok found) :
    ∀ exchange ∈ ((normalize [] own cast).record hub past).exchanges, exchange.Succeeds := by
  obtain ⟨known, learned, _⟩ := Task.record_bind_eq_ok hub past written
  rw [exchanges_normalize]
  exact (attempts_names hub past own cast).succeeds_iff.mp ⟨known, learned⟩

variable (identity : Option Identity) (fid : Fid) (hash : String)

def reading : Exchange :=
  { request := .castById fid hash, answer := hub past (.castById fid hash) }

theorem record_fetch_cast : (fetch (.castById fid hash) Message.read).record hub past =
    { value := (reading hub past fid hash).answer.outcome "castById" Message.read
      exchanges := [reading hub past fid hash]
      entries := [] } :=
  Task.record_fetch hub past (.castById fid hash) Message.read

theorem castById_of_unshown (unshown : ∀ cast, ¬ (reading hub past fid hash).Shows cast) :
    ((castById identity fid hash).record hub past).exchanges = [reading hub past fid hash] ∧
      ∃ error, ((castById identity fid hash).record hub past).value = .error error := by
  have fetched := record_fetch_cast hub past fid hash
  unfold castById
  cases outcome : (reading hub past fid hash).answer.outcome "castById" Message.read with
  | error error =>
      rw [outcome] at fetched
      rw [Task.record_bind_of_error hub past (congrArg Dialogue.Record.value fetched), fetched]
      exact ⟨rfl, error, rfl⟩
  | ok message =>
      rw [outcome] at fetched
      rw [Task.record_bind_of_ok hub past (congrArg Dialogue.Record.value fetched), fetched]
      cases found : message.cast? with
      | none => exact ⟨rfl, _, rfl⟩
      | some cast =>
          have holds := (Answer.outcome_eq_ok_iff _ _ _ _).mp outcome
          exact absurd ⟨message, holds, found⟩ (unshown cast)

theorem castById_of_shown {cast : RawCast} (shows : (reading hub past fid hash).Shows cast) :
    let own := (identity.map Identity.fid).getD 0
    let written := (normalize [] own cast).record hub (reading hub past fid hash :: past)
    ((castById identity fid hash).record hub past).exchanges =
        reading hub past fid hash :: written.exchanges ∧
      ((castById identity fid hash).record hub past).value = written.value.map Prod.fst := by
  obtain ⟨message, holds, found⟩ := shows
  have fetched := record_fetch_cast hub past fid hash
  rw [(Answer.outcome_eq_ok_iff _ _ _ _).mpr holds] at fetched
  unfold castById
  rw [Task.record_bind_of_ok hub past (congrArg Dialogue.Record.value fetched), fetched]
  simp only [found]
  have written := Task.record_bind_pure hub (reading hub past fid hash :: past)
    (normalize [] ((identity.map Identity.fid).getD 0) cast) Prod.fst
  exact ⟨congrArg _ (congrArg Dialogue.Record.exchanges written),
    congrArg Dialogue.Record.value written⟩

end Cast

end PollHerald.Hub
