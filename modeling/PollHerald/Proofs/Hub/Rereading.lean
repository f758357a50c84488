import PollHerald.Proofs.Hub.Once
import PollHerald.Proofs.Hub.Steady

set_option autoImplicit false

/-! A poll beside reading its casts one by one. The names that a poll keeps from one cast to the
next spare it requests and change nothing else: it looks each account up once, where the account
first comes up, and each cast is written out as it would be if it were read by itself. -/

namespace PollHerald.Hub

def namesOf (own : Fid) (casts : List RawCast) : List Fid :=
  casts.flatMap fun cast => Mention.fidsToResolve own cast.mentions cast.positions

/-- The accounts whose names go into the text of a message, in ascending order. -/
def Message.namesIn (own : Fid) (message : Message) : List Fid :=
  namesOf own message.cast?.toList

/-- The messages of the page in an answer that a poll after `since` keeps. -/
def Answer.kept (answer : Answer) (since : Nat) : List Message :=
  match answer.outcome "castsByMention" Page.read with
  | .ok page => page.kept since
  | .error _ => []

theorem namesIn_of_cast {message : Message} {cast : RawCast} (found : message.cast? = some cast)
    (own : Fid) : message.namesIn own = Mention.fidsToResolve own cast.mentions cast.positions := by
  unfold Message.namesIn namesOf
  rw [found, Option.toList_some, List.flatMap_singleton]

theorem ascending_namesIn (own : Fid) (message : Message) :
    (message.namesIn own).Pairwise (· < ·) := by
  cases found : message.cast? with
  | none =>
      unfold Message.namesIn
      rw [found]
      exact .nil
  | some cast =>
      rw [namesIn_of_cast found]
      exact Mention.ascending_fidsToResolve own cast.mentions cast.positions

theorem kept_of_serves {answer : Answer} {page : Page} (served : answer.Serves page) (since : Nat) :
    answer.kept since = page.kept since := by
  unfold Answer.kept
  rw [(Answer.outcome_eq_ok_iff _ _ _ _).mpr served]

theorem nodup_eraseDups : ∀ fids : List Fid, fids.eraseDups.Nodup
  | [] => .nil
  | fid :: rest => by
    rw [List.eraseDups_cons, List.nodup_cons]
    refine ⟨fun member => ?_, nodup_eraseDups _⟩
    have kept := (List.mem_filter.mp (List.mem_eraseDups.mp member)).2
    rw [beq_self_eq_true] at kept
    cases kept
  termination_by fids => fids.length
  decreasing_by exact Nat.lt_succ_of_le (List.length_filter_le _ rest)

/-- A task that makes the requests of a plan in order, and all of them where it succeeds. Unlike one
that attempts them, it may fail although they all succeed. -/
structure Task.Follows {α : Type} (hub : List Exchange → Request → Answer) (past : List Exchange)
    (task : Task α) (plan : List Request) : Prop where
  within : task.asked hub past <+: plan
  whole : ∀ value, (task.record hub past).value = .ok value → task.asked hub past = plan

section Order

variable {α β : Type} {hub : List Exchange → Request → Answer} {past : List Exchange}
variable {names known : Names}

theorem follows_of_attempts {task : Task α} {plan : List Request}
    (attempts : task.Attempts hub past plan) : task.Follows hub past plan where
  within := attempts.attempted.requests_prefix
  whole := fun value succeeds =>
    attempts.attempted.requests_eq (attempts.succeeds_iff.mp ⟨value, succeeds⟩)

theorem follows_bind {task : Task α} {next : α → Task β} {plan rest : List Request}
    (first : task.Follows hub past plan)
    (later : ∀ value, (task.record hub past).value = .ok value →
      (next value).Follows hub ((task.record hub past).exchanges.reverse ++ past) rest) :
    Task.Follows hub past (task >>= next) (plan ++ rest) where
  within := by
    cases outcome : (task.record hub past).value with
    | error error =>
        rw [Task.asked_bind_of_error hub past outcome]
        exact first.within.trans (List.prefix_append plan rest)
    | ok value =>
        rw [Task.asked_bind_of_ok hub past outcome, first.whole value outcome]
        exact (List.prefix_append_right_inj plan).mpr (later value outcome).within
  whole := by
    intro value succeeds
    obtain ⟨found, outcome, second⟩ := Task.record_bind_eq_ok hub past succeeds
    rw [Task.asked_bind_of_ok hub past outcome, first.whole found outcome,
      (later found outcome).whole value second]

theorem follows_pure (value : α) : Task.Follows hub past (pure value) [] where
  within := List.prefix_rfl
  whole := fun _ _ => rfl

theorem isSome_lookup_learned {fids : List Fid}
    (succeeds : ((learnNames names fids).record hub past).value = .ok known) (fid : Fid) :
    (known.lookup fid).isSome ↔ fid ∈ fids ∨ (names.lookup fid).isSome := by
  induction fids generalizing names past with
  | nil =>
      cases succeeds
      simp only [List.not_mem_nil, false_or]
  | cons first rest ih =>
      unfold learnNames at succeeds
      split at succeeds
      · rename_i already
        rw [ih succeeds, List.mem_cons, or_assoc]
        exact (or_iff_right_of_imp fun same => .inr (same ▸ already)).symm
      · obtain ⟨user, _, others⟩ := Task.record_bind_eq_ok hub past succeeds
        rw [ih others, List.mem_cons, List.lookup_cons]
        by_cases same : fid = first
        · simp only [same, beq_self_eq_true, Option.isSome_some, or_true, true_or]
        · simp only [beq_false_of_ne same, same, false_or]

theorem missing_append (first rest : List Fid) :
    names.missing (first ++ rest) =
      names.missing first ++ names.missing (rest.filter fun fid => !first.contains fid) := by
  unfold Names.missing
  generalize (fun fid => !(names.lookup fid).isSome) = isUnknown
  rw [List.filter_append, List.eraseDups_append, List.removeAll, List.filter_filter,
    List.filter_filter]
  congr 3
  funext fid
  cases unknown : isUnknown fid <;> simp [List.mem_filter, unknown]

theorem missing_after_learning {first : List Fid} (rest : List Fid)
    (learned : ((learnNames names first).record hub past).value = .ok known) :
    known.missing rest = names.missing (rest.filter fun fid => !first.contains fid) := by
  unfold Names.missing
  rw [List.filter_filter]
  congr 2
  funext fid
  have covered : (known.lookup fid).isSome = (first.contains fid || (names.lookup fid).isSome) := by
    rw [Bool.eq_iff_iff, isSome_lookup_learned learned fid, Bool.or_eq_true,
      List.contains_iff_mem]
  rw [covered, Bool.not_or, Bool.and_comm]

theorem missing_nil (fids : List Fid) : Names.missing [] fids = fids.eraseDups :=
  congrArg List.eraseDups (List.filter_eq_self.mpr fun _ _ => rfl)

theorem normalize_follows (own : Fid) (cast : RawCast) :
    let fids := Mention.fidsToResolve own cast.mentions cast.positions
    (normalize names own cast).Follows hub past ((names.missing fids).flatMap lookup) := by
  intro fids
  have learns := follows_of_attempts (Task.attempts_learnNames hub past names fids)
  rw [← List.append_nil (List.flatMap _ _)]
  refine follows_bind learns fun known _ => ?_
  cases composeText known own cast with
  | error error => exact ⟨List.prefix_rfl, fun _ _ => rfl⟩
  | ok text => exact follows_pure _

/-- What a poll looks up for casts: the accounts whose names it does not know by then, each once. -/
theorem normalizeAll_follows (own : Fid) (casts : List RawCast) :
    (normalizeAll names own casts).Follows hub past
      ((names.missing (namesOf own casts)).flatMap lookup) := by
  -- On the casts: what is known after the first one decides what is missing for the others.
  induction casts generalizing names past with
  | nil => exact follows_pure []
  | cons cast rest ih =>
      have planned : names.missing (namesOf own (cast :: rest)) = _ := missing_append _ _
      unfold normalizeAll
      rw [planned, List.flatMap_append]
      refine follows_bind (normalize_follows own cast) fun found written => ?_
      obtain ⟨known, learned, composed⟩ := Task.record_bind_eq_ok hub past written
      have kept : found.2 = known := by
        split at composed <;> cases composed
        rfl
      rw [← missing_after_learning _ learned, ← kept, ← List.append_nil (List.flatMap _ _)]
      exact follows_bind ih fun mentions _ => follows_pure _

theorem namesIn_sort (own : Fid) (since : Nat) (page : Page) :
    (Message.sort (page.kept since)).flatMap (Message.namesIn own) =
      namesOf own (byTime (newCasts (Clock.toHub since) page.messages)) := by
  have sameCasts := congrArg (List.flatMap fun cast? => namesOf own cast?.toList)
    (map_cast?_sort (Clock.toHub since) page.messages)
  rw [List.flatMap_map, List.flatMap_map] at sameCasts
  refine sameCasts.trans ?_
  unfold namesOf
  simp

variable (hub past)

/-- A poll asks for its page, and then for each account once whose name goes into a cast. -/
theorem mentionsSince_follows (own : Fid) (since : Nat) :
    (mentionsSince own since).Follows hub past
      (.castsByMention own :: ((Message.sort ((hub past (.castsByMention own)).kept since)).flatMap
        (Message.namesIn own)).eraseDups.flatMap lookup) := by
  unfold mentionsSince
  rw [← List.singleton_append]
  refine follows_bind (follows_of_attempts (Task.attempts_fetch hub past fun _ => Iff.rfl))
    fun page fetched => ?_
  rw [Task.record_fetch] at fetched
  rw [kept_of_serves ((Answer.outcome_eq_ok_iff _ _ _ _).mp fetched), namesIn_sort]
  cases nothing : (newCasts (Clock.toHub since) page.messages).isEmpty with
  | true =>
      simp only [nothing, if_true]
      exact ⟨List.nil_prefix, fun _ succeeds => nomatch succeeds⟩
  | false =>
      simp only [nothing, Bool.false_eq_true, if_false]
      rw [← missing_nil, ← List.append_nil (List.flatMap _ _)]
      exact follows_bind (normalizeAll_follows own _) fun mentions _ =>
        ⟨List.prefix_rfl, fun _ _ => rfl⟩

end Order

/-- Whether requests that were made again have the answers that they had. -/
def Unchanged (earlier later : List Exchange) : Prop :=
  ∀ before ∈ earlier, ∀ exchange ∈ later, exchange.request = before.request →
    exchange.answer = before.answer

section Reread

variable {answers : Request → Answer} {hub : List Exchange → Request → Answer}
variable {past : List Exchange} {own : Fid}

variable {identity : Identity} {since : Nat} {batch : Batch} {page : Page}

/-- What a poll brings is what becomes of each of its casts by itself. -/
theorem writeOut_of_poll
    (agrees : ∀ exchange ∈ ((lastMentions (some identity) since).run hub past).exchanges,
      answers exchange.request = exchange.answer)
    (served : (hub past (.castsByMention identity.fid)).Serves page)
    (succeeds : ((lastMentions (some identity) since).run hub past).value = .ok batch) :
    List.Forall₂ (fun cast mention => writeOut answers identity.fid cast = .ok mention)
      (byTime (newCasts (Clock.toHub since) page.messages)) batch.mentions := by
  have present : newCasts (Clock.toHub since) page.messages ≠ [] := by
    intro nothing
    have fails := (lastMentions_noNewCasts_iff served).mpr ((newCasts_eq_nil_iff _ _).mp nothing)
    cases fails.symm.trans succeeds
  have samePage : answers (.castsByMention identity.fid) =
      hub past (.castsByMention identity.fid) := by
    refine agrees ⟨_, _⟩ ?_
    rw [(lastMentions_run hub past identity since).2]
    exact mentionsSince_asks_page hub past identity.fid since
  have steady := Dialogue.answered_of_agrees answers hub past _ agrees
  rw [← Dialogue.run_value_eq_answered answers past,
    lastMentions_steady past (samePage ▸ served) present, succeeds] at steady
  obtain ⟨_, written, _⟩ := (Batch.ofOutcome_eq_ok_iff _ _).mp steady
  cases mapped : (byTime (newCasts (Clock.toHub since) page.messages)).mapM
      (writeOut answers identity.fid) with
  | error error =>
      rw [mapped] at written
      cases written
  | ok mentions =>
      rw [mapped] at written
      cases written
      exact forall₂_of_mapM mapped

/-- A cast that is read by itself becomes what it becomes in a poll, if the accounts that it names
are found as they were. -/
theorem castById_of_writeOut {message : Message} {cast : RawCast} {mention : Mention} {fid : Fid}
    {hash : String} (served : (hub past (.castById fid hash)).Holds Message.read message)
    (found : message.cast? = some cast)
    (agrees : ∀ exchange ∈ ((castById (some identity) fid hash).record hub past).exchanges,
      exchange.request ∈ (message.namesIn identity.fid).flatMap lookup →
        answers exchange.request = exchange.answer)
    (written : writeOut answers identity.fid cast = .ok mention) :
    ((castById (some identity) fid hash).record hub past).value = .ok mention := by
  obtain ⟨exchanges, value⟩ := castById_of_shown hub past (some identity) fid hash
    ⟨message, served, found⟩
  rw [exchanges, namesIn_of_cast found] at agrees
  refine value.trans (Eq.trans (congrArg (Except.map Prod.fst) (Eq.symm ?_)) written)
  have attempted := attempted_normalize hub (reading hub past fid hash :: past) identity.fid cast
  have planned := Attempted.requests_prefix attempted
  refine Dialogue.answered_of_agrees answers hub (reading hub past fid hash :: past) _
    fun exchange member => agrees exchange (List.mem_cons_of_mem _ member) ?_
  exact planned.subset (List.mem_map_of_mem member)

theorem shownAs_of_writeOut {message : Message} {cast : RawCast} {mention : Mention}
    (found : message.cast? = some cast) (written : writeOut answers own cast = .ok mention) :
    message.ShownAs own mention := by
  unfold writeOut at written
  rw [← Task.record_value_eq_answered answers []] at written
  cases outcome : ((normalize [] own cast).record (fun _ => answers) []).value with
  | error error =>
      rw [outcome] at written
      cases written
  | ok normalized =>
      rw [outcome] at written
      cases written
      exact normalize_shownAs _ _ found outcome

theorem writtenFrom_of_poll
    (agrees : ∀ exchange ∈ ((lastMentions (some identity) since).run hub past).exchanges,
      answers exchange.request = exchange.answer)
    (served : (hub past (.castsByMention identity.fid)).Serves page)
    (succeeds : ((lastMentions (some identity) since).run hub past).value = .ok batch) :
    List.Forall₂ (fun message mention => ∃ cast, message.cast? = some cast ∧
        writeOut answers identity.fid cast = .ok mention)
      (Message.sort (page.kept since)) batch.mentions := by
  have written := writeOut_of_poll agrees served succeeds
  have lifted : List.Forall₂ (fun cast? mention => ∃ cast, cast? = some cast ∧
      writeOut answers identity.fid cast = .ok mention)
      ((byTime (newCasts (Clock.toHub since) page.messages)).map some) batch.mentions :=
    List.forall₂_map_left_iff.mpr (written.imp fun cast mention done => ⟨cast, rfl, done⟩)
  rw [← map_cast?_sort] at lifted
  exact List.forall₂_map_left_iff.mp lifted

end Reread

/-- A poll looks each account up at most once, where the account first comes up in the casts by
time, and brings what reading its casts one by one would bring. -/
theorem polled_casts_read_alike (hub : List Exchange → Request → Answer) (past : List Exchange)
    (identity : Identity) (since : Nat) :
    let polled := (lastMentions (some identity) since).run hub past
    ∃ ordered : List Message,
      Message.ByTime ((hub past (.castsByMention identity.fid)).kept since) ordered ∧
      let fids := (ordered.flatMap (Message.namesIn identity.fid)).eraseDups
      let plan := .castsByMention identity.fid :: fids.flatMap lookup
      fids.Nodup ∧ (∀ message ∈ ordered, (message.namesIn identity.fid).Pairwise (· < ·)) ∧
      polled.exchanges.map Exchange.request <+: plan ∧
      ∀ batch, polled.value = .ok batch →
        polled.exchanges.map Exchange.request = plan ∧
        List.Forall₂ (fun message mention => message.ShownAs identity.fid mention ∧
          ∀ later,
            let reread := (castById (some identity) mention.author mention.hash).record hub later
            (hub later (.castById mention.author mention.hash)).Holds Message.read message →
            Unchanged polled.exchanges reread.exchanges →
            reread.value = .ok mention) ordered batch.mentions := by
  intro polled
  obtain ⟨outcome, exchanges⟩ := lastMentions_run hub past identity since
  have follows := mentionsSince_follows hub past identity.fid since
  have asked : polled.exchanges.map Exchange.request =
      (mentionsSince identity.fid since).asked hub past := congrArg _ exchanges
  refine ⟨Message.sort _, Message.byTime_sort _, nodup_eraseDups _,
    fun message _ => ascending_namesIn identity.fid message, asked ▸ follows.within,
    fun batch succeeds => ?_⟩
  obtain ⟨_, found, _⟩ := (Batch.ofOutcome_eq_ok_iff _ _).mp (outcome.symm.trans succeeds)
  have whole := asked.trans (follows.whole _ found)
  refine ⟨whole, ?_⟩
  obtain ⟨page, served⟩ := page_of_mentionsSince found
  obtain ⟨answers, agrees⟩ :=
    exists_agreeing (mentionsSince_asks_once hub past identity.fid since)
  rw [← exchanges] at agrees
  have written := writtenFrom_of_poll agrees served succeeds
  rw [kept_of_serves served]
  refine ((List.forall₂_and_left _ _).mpr ⟨fun _ member => member, written⟩).imp ?_
  rintro message mention ⟨member, cast, shows, written⟩
  refine ⟨shownAs_of_writeOut shows written, fun later reads unchanged => ?_⟩
  refine castById_of_writeOut reads shows (fun exchange again planned => ?_) written
  -- What is looked up for this cast was looked up in the poll, with the same answer.
  have before : exchange.request ∈ polled.exchanges.map Exchange.request := by
    rw [whole, kept_of_serves served]
    refine List.mem_cons_of_mem _ (List.mem_flatMap.mpr ?_)
    obtain ⟨fid, named, asked⟩ := List.mem_flatMap.mp planned
    exact ⟨fid, List.mem_eraseDups.mpr (List.mem_flatMap.mpr ⟨message, member, named⟩), asked⟩
  obtain ⟨earlier, inPoll, same⟩ := List.mem_map.mp before
  rw [← same, agrees earlier inPoll]
  exact (unchanged earlier inPoll exchange again same.symm).symm

theorem answer_of_steady {α : Type} (answers : Request → Answer) (past : List Exchange)
    (dialogue : Dialogue α) :
    ∀ exchange ∈ (dialogue.run (fun _ => answers) past).exchanges,
      exchange.answer = answers exchange.request := by
  induction dialogue generalizing past with
  | done value => exact fun _ absent => nomatch absent
  | note entry rest ih => exact ih past
  | ask request rest ih => exact List.forall_mem_cons.mpr ⟨rfl, ih _ _⟩

theorem unchanged_of_steady {α β : Type} (answers : Request → Answer) (past later : List Exchange)
    (first : Dialogue α) (second : Dialogue β) :
    Unchanged (first.run (fun _ => answers) past).exchanges
      (second.run (fun _ => answers) later).exchanges := by
  intro before inFirst exchange inSecond same
  rw [answer_of_steady answers past first before inFirst,
    answer_of_steady answers later second exchange inSecond, same]

/-- A cast of account 20 that names two accounts, and one of account 21 that comes before it and
names one of them. -/
def laterCast : String :=
  "[[\"MESSAGE_TYPE_CAST_ADD\",20,30,[\"hi \",[9,8],[0,3],null],null],\"0x01\",\"\"]"

def earlierCast : String :=
  "[[\"MESSAGE_TYPE_CAST_ADD\",21,20,[\"yo \",[7,8],[0,3],null],null],\"0x02\",\"\"]"

def sharingHub : Request → Answer
  | .castsByMention _ => .response 200 (some ("[[" ++ laterCast ++ "," ++ earlierCast ++ "],null]"))
  | .castById fid _ => .response 200 (some (if fid = 20 then laterCast else earlierCast))
  | .usernameProofs fid =>
    .response 200 (some ("[[[1,\"" ++ (if fid = 8 then "bob" else "eve") ++ "\",\"0x01\"]]]"))
  | .verifications _ => .response 200 (some "[[],null]")
  | .submit _ => .unreachable

def namingMessage (fid timestamp : Nat) (hash text : String) (mentions : List Fid) : Message :=
  { content := some {
      kind := castKind
      fid
      timestamp
      cast := some { text, mentions, positions := [0, 3], parent := none }
      address := none }
    hash
    signer := "" }

set_option maxRecDepth 10000 in
/-- The second cast takes one name from the first and looks the other up. -/
theorem polled_casts_read_alike_of_sharing :
    let polled := (lastMentions (some sampleIdentity) 10).run (fun _ => sharingHub) []
    ∃ batch, polled.value = .ok batch ∧
      batch.mentions.map Mention.text = ["yo @bob", "@evehi @bob"] ∧
      polled.exchanges.map Exchange.request = .castsByMention 7 :: (lookup 8 ++ lookup 9) ∧
      ∀ mention ∈ batch.mentions,
        ((castById (some sampleIdentity) mention.author mention.hash).record (fun _ => sharingHub)
          []).value = .ok mention := by
  intro polled
  obtain ⟨batch, succeeds, texts, asked⟩ : ∃ batch, polled.value = .ok batch ∧
      batch.mentions.map Mention.text = ["yo @bob", "@evehi @bob"] ∧
      polled.exchanges.map Exchange.request = .castsByMention 7 :: (lookup 8 ++ lookup 9) :=
    ⟨_, by cbv, by cbv, by cbv⟩
  obtain ⟨ordered, byTime, _, _, _, alike⟩ :=
    polled_casts_read_alike (fun _ => sharingHub) [] sampleIdentity 10
  refine ⟨batch, succeeds, texts, asked, fun mention member => ?_⟩
  obtain ⟨message, inOrder, shown, reread⟩ := exists_partner (alike batch succeeds).2.flip member
  have kept : (sharingHub (.castsByMention sampleIdentity.fid)).kept 10 =
      [namingMessage 20 30 "0x01" "hi " [9, 8], namingMessage 21 20 "0x02" "yo " [7, 8]] := by cbv
  have holds : (sharingHub (.castById mention.author mention.hash)).Holds Message.read message := by
    have inPage := byTime.perm.subset inOrder
    rw [kept] at inPage
    simp only [List.mem_cons, List.not_mem_nil, or_false] at inPage
    obtain ⟨_, _, content, _, author, _⟩ := shown
    rcases inPage with rfl | rfl <;> cases content <;> rw [author]
    · exact ⟨laterCast, rfl, by cbv⟩
    · exact ⟨earlierCast, rfl, by cbv⟩
  exact reread [] holds (unchanged_of_steady sharingHub [] [] _ _)

end PollHerald.Hub
