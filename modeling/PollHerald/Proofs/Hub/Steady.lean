import PollHerald.Proofs.Hub.Poll
import PollHerald.Proofs.Mention.Compose

set_option autoImplicit false

/-! Polls of a hub whose answers depend on the request alone. Then the usernames that a poll knows
already change nothing, and each cast is written out as it would be by itself. So a poll succeeds
where all of its casts can be written out, and otherwise fails with the oldest of them that
cannot. -/

namespace PollHerald.Hub

section Traversal

variable {α β ε : Type} {f : α → Except ε β}

theorem mapM_cons_of_ok {item : α} {value : β} (rest : List α) (succeeds : f item = .ok value) :
    (item :: rest).mapM f = (rest.mapM f).map (value :: ·) := by
  rw [List.mapM_cons, succeeds]
  cases rest.mapM f <;> rfl

theorem mapM_cons_of_error {item : α} {error : ε} (rest : List α) (fails : f item = .error error) :
    (item :: rest).mapM f = .error error := by
  rw [List.mapM_cons, fails]
  rfl

theorem mapM_of_ok {items : List α} (succeed : ∀ item ∈ items, ∃ value, f item = .ok value) :
    ∃ values, items.mapM f = .ok values ∧
      List.Forall₂ (fun item value => f item = .ok value) items values := by
  induction items with
  | nil => exact ⟨[], rfl, .nil⟩
  | cons item rest ih =>
      obtain ⟨⟨value, first⟩, others⟩ := List.forall_mem_cons.mp succeed
      obtain ⟨values, later, each⟩ := ih others
      exact ⟨value :: values, by rw [mapM_cons_of_ok rest first, later]; rfl, .cons first each⟩

theorem mapM_of_error {front back : List α} {item : α} {error : ε}
    (succeed : ∀ earlier ∈ front, ∃ value, f earlier = .ok value)
    (fails : f item = .error error) : (front ++ item :: back).mapM f = .error error := by
  induction front with
  | nil => exact mapM_cons_of_error back fails
  | cons earlier front ih =>
      obtain ⟨⟨value, first⟩, others⟩ := List.forall_mem_cons.mp succeed
      rw [List.cons_append, mapM_cons_of_ok _ first, ih others]
      rfl

theorem all_succeed_or_one_fails (f : α → Except ε β) (items : List α) :
    (∀ item ∈ items, ∃ value, f item = .ok value) ∨
      ∃ front item back error, items = front ++ item :: back ∧
        (∀ earlier ∈ front, ∃ value, f earlier = .ok value) ∧ f item = .error error := by
  induction items with
  | nil => exact .inl fun _ absent => nomatch absent
  | cons item rest ih =>
      cases first : f item with
      | error error =>
          exact .inr ⟨[], item, rest, error, rfl, (fun _ absent => nomatch absent), first⟩
      | ok value =>
          rcases ih with succeed | ⟨front, failing, back, error, rfl, succeed, fails⟩
          · exact .inl (List.forall_mem_cons.mpr ⟨⟨value, first⟩, succeed⟩)
          · exact .inr ⟨item :: front, failing, back, error, rfl,
              List.forall_mem_cons.mpr ⟨⟨value, first⟩, succeed⟩, fails⟩

theorem forall₂_of_mapM {items : List α} {values : List β}
    (succeeds : items.mapM f = .ok values) :
    List.Forall₂ (fun item value => f item = .ok value) items values := by
  rcases all_succeed_or_one_fails f items with succeed | ⟨_, _, _, _, rfl, succeed, fails⟩
  · obtain ⟨found, mapped, each⟩ := mapM_of_ok succeed
    cases mapped.symm.trans succeeds
    exact each
  · cases (mapM_of_error succeed fails).symm.trans succeeds

end Traversal

section Steady

variable (answers : Request → Answer)

/-- The username that a lookup finds. -/
def username (fid : Fid) : Except Error String :=
  ((profile fid).answered answers).map Profile.username

/-- Known usernames that a lookup would find again. -/
def Names.Faithful (names : Names) : Prop :=
  ∀ fid name, names.lookup fid = some name → username answers fid = .ok name

/-- What becomes of a cast that is written out by itself. -/
def writeOut (own : Fid) (cast : RawCast) : Except Error Mention :=
  ((normalize [] own cast).answered answers).map Prod.fst

variable {answers} {names : Names}

theorem Names.faithful_nil : Names.Faithful answers [] :=
  fun _ _ found => nomatch found

private theorem answered_learnNames_cons (faithful : names.Faithful answers) {fid : Fid}
    {name : String} (found : username answers fid = .ok name) (rest : List Fid) :
    ∃ known : Names, known.Faithful answers ∧
      (∀ other, other = fid ∨ (names.lookup other).isSome → (known.lookup other).isSome) ∧
      (learnNames names (fid :: rest)).answered answers =
        (learnNames known rest).answered answers := by
  by_cases already : (names.lookup fid).isSome
  · refine ⟨names, faithful, ?_, ?_⟩
    · rintro other (rfl | before)
      · exact already
      · exact before
    · simp only [learnNames, already, if_true]
  · unfold username at found
    cases looked : (profile fid).answered answers with
    | error error =>
        rw [looked] at found
        cases found
    | ok user =>
        refine ⟨(fid, user.username) :: names, ?_, ?_, ?_⟩
        · intro other known lookup
          rw [List.lookup_cons] at lookup
          split at lookup
          · rename_i same
            cases lookup
            rw [beq_iff_eq.mp same, username, looked]
            rfl
          · exact faithful other known lookup
        · intro other cause
          rw [List.lookup_cons]
          split
          · rfl
          · rename_i differs
            exact cause.resolve_left (ne_of_beq_false differs)
        · simp only [learnNames, already, Bool.false_eq_true, if_false, Task.answered_bind, looked]
          rfl

theorem answered_learnNames_of_ok (faithful : names.Faithful answers) {fids : List Fid}
    (succeed : ∀ fid ∈ fids, ∃ name, username answers fid = .ok name) :
    ∃ known : Names, (learnNames names fids).answered answers = .ok known ∧
      known.Faithful answers ∧
      (∀ fid, fid ∈ fids ∨ (names.lookup fid).isSome → (known.lookup fid).isSome) := by
  induction fids generalizing names with
  | nil =>
      refine ⟨names, rfl, faithful, ?_⟩
      rintro fid (absent | before)
      · cases absent
      · exact before
  | cons fid rest ih =>
      obtain ⟨⟨name, found⟩, others⟩ := List.forall_mem_cons.mp succeed
      obtain ⟨middle, middleFaithful, learned, same⟩ :=
        answered_learnNames_cons faithful found rest
      obtain ⟨known, done, knownFaithful, covered⟩ := ih middleFaithful others
      refine ⟨known, same.trans done, knownFaithful, ?_⟩
      rintro other (member | before)
      · rcases List.mem_cons.mp member with rfl | member
        · exact covered _ (.inr (learned _ (.inl rfl)))
        · exact covered _ (.inl member)
      · exact covered _ (.inr (learned _ (.inr before)))

theorem answered_learnNames_of_error (faithful : names.Faithful answers) {front back : List Fid}
    {fid : Fid} {error : Error}
    (succeed : ∀ earlier ∈ front, ∃ name, username answers earlier = .ok name)
    (fails : username answers fid = .error error) :
    (learnNames names (front ++ fid :: back)).answered answers = .error error := by
  induction front generalizing names with
  | nil =>
      have unknown : ¬(names.lookup fid).isSome := by
        intro known
        obtain ⟨name, found⟩ := Option.isSome_iff_exists.mp known
        cases fails.symm.trans (faithful fid name found)
      unfold username at fails
      cases looked : (profile fid).answered answers with
      | ok user =>
          rw [looked] at fails
          cases fails
      | error cause =>
          rw [looked] at fails
          cases fails
          simp only [List.nil_append, learnNames, unknown, Bool.false_eq_true, if_false,
            Task.answered_bind, looked]
          rfl
  | cons earlier front ih =>
      obtain ⟨⟨name, found⟩, others⟩ := List.forall_mem_cons.mp succeed
      obtain ⟨middle, middleFaithful, _, same⟩ :=
        answered_learnNames_cons faithful found (front ++ fid :: back)
      exact same.trans (ih middleFaithful others)

theorem composeText_congr {known : Names} {own : Fid} {cast : RawCast}
    (same : ∀ fid ∈ Mention.fidsToResolve own cast.mentions cast.positions,
      names.lookup fid = known.lookup fid) :
    composeText names own cast = composeText known own cast := by
  let name (names : Names) (fid : Fid) : Except Empty (List Char) :=
    .ok ((names.lookup fid).getD "").toList
  have composed : Mention.compose (name names) own cast.text.toList cast.mentions cast.positions =
      Mention.compose (name known) own cast.text.toList cast.mentions cast.positions :=
    Mention.compose_congr fun fid member => by simp only [name, same fid member]
  unfold composeText
  simp only [name] at composed
  simp only [composed]

private theorem answered_normalize_of_known {known : Names} {own : Fid} {cast : RawCast}
    (learned : (learnNames names (Mention.fidsToResolve own cast.mentions cast.positions)).answered
      answers = .ok known) :
    (normalize names own cast).answered answers = (composeText known own cast).map fun text => ({
      isMention := cast.mentions.contains own
      text
      author := cast.fid
      hash := cast.hash
      timestamp := cast.timestamp
      parent := cast.parent }, known) := by
  unfold normalize
  rw [Task.answered_bind, learned]
  change Task.answered (match composeText known own cast with | _ => _) answers = _
  cases composeText known own cast <;> rfl

private theorem answered_normalize_of_unknown (faithful : names.Faithful answers) {own : Fid}
    {cast : RawCast} {front back : List Fid} {fid : Fid} {error : Error}
    (split : Mention.fidsToResolve own cast.mentions cast.positions = front ++ fid :: back)
    (succeed : ∀ earlier ∈ front, ∃ name, username answers earlier = .ok name)
    (fails : username answers fid = .error error) :
    (normalize names own cast).answered answers = .error error := by
  unfold normalize
  rw [Task.answered_bind, split, answered_learnNames_of_error faithful succeed fails]
  rfl

/-- Names that are known already do not change what becomes of a cast. -/
theorem answered_normalize (faithful : names.Faithful answers) (own : Fid) (cast : RawCast) :
    (∃ mention, ∃ known : Names, writeOut answers own cast = .ok mention ∧
        (normalize names own cast).answered answers = .ok (mention, known) ∧
        known.Faithful answers) ∨
      ∃ error, writeOut answers own cast = .error error ∧
        (normalize names own cast).answered answers = .error error := by
  unfold writeOut
  rcases all_succeed_or_one_fails (username answers)
      (Mention.fidsToResolve own cast.mentions cast.positions) with
    succeed | ⟨front, fid, back, error, split, succeed, fails⟩
  · obtain ⟨known, learned, knownFaithful, covered⟩ := answered_learnNames_of_ok faithful succeed
    obtain ⟨alone, learnedAlone, aloneFaithful, coveredAlone⟩ :=
      answered_learnNames_of_ok Names.faithful_nil succeed
    have sameText : composeText alone own cast = composeText known own cast := by
      refine composeText_congr fun fid member => ?_
      obtain ⟨first, foundFirst⟩ := Option.isSome_iff_exists.mp (coveredAlone fid (.inl member))
      obtain ⟨second, foundSecond⟩ := Option.isSome_iff_exists.mp (covered fid (.inl member))
      cases (aloneFaithful fid first foundFirst).symm.trans (knownFaithful fid second foundSecond)
      rw [foundFirst, foundSecond]
    rw [answered_normalize_of_known learned, answered_normalize_of_known learnedAlone, sameText]
    cases composeText known own cast with
    | error error => exact .inr ⟨error, rfl, rfl⟩
    | ok text => exact .inl ⟨_, known, rfl, rfl, knownFaithful⟩
  · have alone := answered_normalize_of_unknown Names.faithful_nil split succeed fails
    have together := answered_normalize_of_unknown faithful split succeed fails
    exact .inr ⟨error, by rw [alone]; rfl, together⟩

/-- A cast can be written out by itself where all users can be found whose names go into its text,
and the names can be put where the cast has them. -/
theorem exists_writeOut_iff (own : Fid) (cast : RawCast) :
    (∃ mention, writeOut answers own cast = .ok mention) ↔
      (∀ fid ∈ Mention.fidsToResolve own cast.mentions cast.positions,
        ∃ name, username answers fid = .ok name) ∧
      ∃ text, (Mention.compose (fun fid => (.ok ((username answers fid).toOption.getD "").toList :
        Except Empty (List Char))) own cast.text.toList cast.mentions cast.positions).outcome =
          .ok text := by
  unfold writeOut
  rcases all_succeed_or_one_fails (username answers)
      (Mention.fidsToResolve own cast.mentions cast.positions) with
    succeed | ⟨front, fid, back, error, split, succeed, fails⟩
  · obtain ⟨known, learned, faithful, covered⟩ :=
      answered_learnNames_of_ok Names.faithful_nil succeed
    rw [answered_normalize_of_known learned, and_iff_right succeed]
    have sameNames : ∀ fid ∈ Mention.fidsToResolve own cast.mentions cast.positions,
        (.ok ((username answers fid).toOption.getD "").toList : Except Empty (List Char)) =
          .ok ((known.lookup fid).getD "").toList := by
      intro fid member
      obtain ⟨name, found⟩ := Option.isSome_iff_exists.mp (covered fid (.inl member))
      rw [found, faithful fid name found]
      rfl
    rw [Mention.compose_congr sameNames]
    simp only [composeText]
    split
    · rename_i text composed
      rw [composed]
      exact ⟨fun _ => ⟨text, rfl⟩, fun _ => ⟨_, rfl⟩⟩
    · rename_i cause composed
      rw [composed]
      refine ⟨?_, ?_⟩
      · rintro ⟨_, absent⟩
        cases absent
      · rintro ⟨_, absent⟩
        cases absent
  · constructor
    · rintro ⟨mention, written⟩
      rw [answered_normalize_of_unknown Names.faithful_nil split succeed fails] at written
      cases written
    · rintro ⟨all, _⟩
      obtain ⟨name, found⟩ := all fid (split ▸ List.mem_append_right _ List.mem_cons_self)
      cases fails.symm.trans found

theorem answered_normalizeAll (faithful : names.Faithful answers) (own : Fid)
    (casts : List RawCast) :
    (normalizeAll names own casts).answered answers = casts.mapM (writeOut answers own) := by
  induction casts generalizing names with
  | nil => rfl
  | cons cast rest ih =>
      unfold normalizeAll
      rcases answered_normalize faithful own cast with
        ⟨mention, known, alone, together, knownFaithful⟩ | ⟨error, alone, together⟩
      · rw [Task.answered_bind, together, mapM_cons_of_ok rest alone, ← ih knownFaithful]
        change Task.answered (normalizeAll known own rest >>= _) answers = _
        rw [Task.answered_bind]
        cases (normalizeAll known own rest).answered answers <;> rfl
      · rw [Task.answered_bind, together, mapM_cons_of_error rest alone]
        rfl

section Poll

variable (past : List Exchange) {identity : Identity} {since : Nat} {page : Page}

theorem lastMentions_steady (served : (answers (.castsByMention identity.fid)).Serves page)
    (present : newCasts (Clock.toHub since) page.messages ≠ []) :
    ((lastMentions (some identity) since).run (fun _ => answers) past).value =
      Batch.ofOutcome (((byTime (newCasts (Clock.toHub since) page.messages)).mapM
        (writeOut answers identity.fid)).map fun mentions =>
          (mentions, newestTime (newCasts (Clock.toHub since) page.messages))) := by
  rw [(lastMentions_run _ past identity since).1,
    mentionsSince_of_some (fun _ => answers) past served present, Task.record_value_eq_answered,
    answered_normalizeAll Names.faithful_nil]

/-- The oldest cast that cannot be written out decides how a poll fails. -/
theorem lastMentions_of_failing (served : (answers (.castsByMention identity.fid)).Serves page)
    {front back : List RawCast} {cast : RawCast} {error : Error}
    (split : byTime (newCasts (Clock.toHub since) page.messages) = front ++ cast :: back)
    (succeed : ∀ earlier ∈ front, ∃ mention, writeOut answers identity.fid earlier = .ok mention)
    (fails : writeOut answers identity.fid cast = .error error) :
    ((lastMentions (some identity) since).run (fun _ => answers) past).value =
      .error (.hub error) := by
  have present : newCasts (Clock.toHub since) page.messages ≠ [] := by
    intro nothing
    rw [nothing, byTime, List.mergeSort_nil] at split
    exact List.append_ne_nil_of_right_ne_nil _ (List.cons_ne_nil _ _) split.symm
  rw [lastMentions_steady past served present, split, mapM_of_error succeed fails]
  rfl

/-- A poll brings all casts, each as it would be by itself, where they all can be written out. -/
theorem lastMentions_of_writable (served : (answers (.castsByMention identity.fid)).Serves page)
    (present : newCasts (Clock.toHub since) page.messages ≠ [])
    (inRange : ∀ cast ∈ newCasts (Clock.toHub since) page.messages,
      cast.timestamp + Clock.epoch < Width.bound64)
    (succeed : ∀ cast ∈ newCasts (Clock.toHub since) page.messages,
      ∃ mention, writeOut answers identity.fid cast = .ok mention) :
    ∃ batch, ((lastMentions (some identity) since).run (fun _ => answers) past).value = .ok batch ∧
      List.Forall₂ (fun cast mention => writeOut answers identity.fid cast = .ok mention)
        (byTime (newCasts (Clock.toHub since) page.messages)) batch.mentions := by
  obtain ⟨mentions, written, each⟩ := mapM_of_ok fun cast member =>
    succeed cast ((byTime_perm _).subset member)
  obtain ⟨newest, newestMem, top, _⟩ := newestTime_mem present
  have next := (Clock.toUnix?_eq_some_iff newest.timestamp _).mpr ⟨rfl, inRange newest newestMem⟩
  refine ⟨{ mentions, next := newest.timestamp + Clock.epoch }, ?_, each⟩
  rw [lastMentions_steady past served present, written, top]
  simp only [Except.map, Batch.ofOutcome, next]

end Poll

end Steady

end PollHerald.Hub
