import Mathlib
import PollHerald.Proofs.Hub.Attempt

set_option autoImplicit false

/-! Names that are learned before a text is composed. All that the composition asks for are known by
then, so no mention is written with an empty name in place of one that was never looked up. A known
name is one that was known before or one that a lookup of the profile brought. -/

namespace PollHerald.Hub

/-- How known names answer a composition: an account that has none is given an empty one. -/
def Names.spelled (names : Names) (fid : Fid) : Except Empty (List Char) :=
  .ok ((names.lookup fid).getD "").toList

section Course

variable (hub : List Exchange → Request → Answer)

/-- A lookup of the profile that was begun no earlier than after `past`, that is over by `present`,
and that brought the name. -/
def Brought (past present : List Exchange) (fid : Fid) (name : String) : Prop :=
  ∃ begun user, past <:+ begun ∧
    ((profile fid).record hub begun).value = .ok user ∧ user.username = name ∧
    ((profile fid).record hub begun).exchanges.reverse ++ begun <:+ present

/-- Names that come from casts that were written out one after another, the first with none. -/
inductive Gathered : List Exchange → Names → Prop where
  | none (past : List Exchange) : Gathered past []
  | cast {past : List Exchange} {names : Names} {own : Fid} {cast : RawCast}
    {written : Mention × Names} (gathered : Gathered past names)
    (succeeds : ((normalize names own cast).record hub past).value = .ok written) :
    Gathered (((normalize names own cast).record hub past).exchanges.reverse ++ past) written.2

/-- What is known once names were learned: one for each account that was asked about, and none that
was neither known before nor brought. -/
structure Learned (past present : List Exchange) (names known : Names) (fids : List Fid) :
    Prop where
  covered : ∀ fid, fid ∈ fids ∨ (names.lookup fid).isSome → (known.lookup fid).isSome
  brought : ∀ fid name, known.lookup fid = some name →
    names.lookup fid = some name ∨ Brought hub past present fid name

variable {hub} {past present : List Exchange} {names known : Names} {fid : Fid} {name : String}

theorem Brought.since {earlier : List Exchange} (brought : Brought hub past present fid name)
    (before : earlier <:+ past) : Brought hub earlier present fid name := by
  obtain ⟨begun, user, since, found, named, finished⟩ := brought
  exact ⟨begun, user, before.trans since, found, named, finished⟩

theorem Brought.still {later : List Exchange} (brought : Brought hub past present fid name)
    (behind : present <:+ later) : Brought hub past later fid name := by
  obtain ⟨begun, user, since, found, named, finished⟩ := brought
  exact ⟨begun, user, since, found, named, finished.trans behind⟩

theorem learned_nothing (past : List Exchange) (names : Names) :
    Learned hub past past names names [] where
  covered := by
    rintro fid (absent | before)
    · cases absent
    · exact before
  brought := fun _ _ found => .inl found

theorem learned_of_known (past : List Exchange) (already : (names.lookup fid).isSome) :
    Learned hub past past names names [fid] where
  covered := by
    rintro other (member | before)
    · rw [List.mem_singleton.mp member]
      exact already
    · exact before
  brought := fun _ _ found => .inl found

theorem learned_of_profile {user : Profile} (names : Names)
    (found : ((profile fid).record hub past).value = .ok user) :
    Learned hub past (((profile fid).record hub past).exchanges.reverse ++ past) names
      ((fid, user.username) :: names) [fid] where
  covered := by
    intro other cause
    by_cases same : other = fid
    · rw [same, List.lookup_cons_self]
      rfl
    · rw [List.lookup_cons, beq_false_of_ne same]
      exact cause.resolve_left fun member => same (List.mem_singleton.mp member)
  brought := by
    intro other name lookup
    rw [List.lookup_cons] at lookup
    split at lookup
    · rename_i same
      cases lookup
      rw [beq_iff_eq.mp same]
      exact .inr ⟨past, user, List.suffix_rfl, found, rfl, List.suffix_rfl⟩
    · exact .inl lookup

theorem Learned.append {middle : List Exchange} {between : Names} {fids others : List Fid}
    (first : Learned hub past middle names between fids)
    (rest : Learned hub middle present between known others) (since : past <:+ middle)
    (still : middle <:+ present) : Learned hub past present names known (fids ++ others) where
  covered := by
    intro fid cause
    apply rest.covered
    rcases cause with member | before
    · rcases List.mem_append.mp member with inFirst | inRest
      · exact .inr (first.covered fid (.inl inFirst))
      · exact .inl inRest
    · exact .inr (first.covered fid (.inr before))
  brought := by
    intro fid name lookup
    rcases rest.brought fid name lookup with before | brought
    · exact (first.brought fid name before).imp_right fun brought => brought.still still
    · exact .inr (brought.since since)

theorem learnNames_learned {fids : List Fid}
    (succeeds : ((learnNames names fids).record hub past).value = .ok known) :
    Learned hub past (((learnNames names fids).record hub past).exchanges.reverse ++ past) names
      known fids := by
  induction fids generalizing names past with
  | nil =>
      cases succeeds
      exact learned_nothing past _
  | cons fid rest ih =>
      unfold learnNames at succeeds ⊢
      split at succeeds
      · rename_i already
        rw [if_pos already]
        exact (learned_of_known past already).append (ih succeeds) List.suffix_rfl
          (List.suffix_append _ past)
      · rename_i unknown
        obtain ⟨user, found, others⟩ := Task.record_bind_eq_ok hub past succeeds
        rw [if_neg unknown, Task.record_bind_of_ok hub past found, Dialogue.Record.before,
          List.reverse_append, List.append_assoc]
        exact (learned_of_profile names found).append (ih others) (List.suffix_append _ past)
          (List.suffix_append _ _)

theorem Gathered.brought (gathered : Gathered hub past names) :
    ∀ fid name, names.lookup fid = some name → Brought hub [] past fid name := by
  induction gathered with
  | none past => exact fun _ _ absent => nomatch absent
  | @cast past names own cast written _ succeeds ih =>
      obtain ⟨known, found, composed⟩ := Task.record_bind_eq_ok hub past succeeds
      have kept : written.2 = known := by
        split at composed
        · cases composed
        · cases composed
          rfl
      rw [kept, exchanges_normalize]
      intro fid name lookup
      rcases (learnNames_learned found).brought fid name lookup with before | brought
      · exact (ih fid name before).still (List.suffix_append _ past)
      · exact brought.since past.nil_suffix

theorem composeText_eq_ok_iff (own : Fid) (cast : RawCast) (text : String) :
    composeText names own cast = .ok text ↔
      (Mention.compose names.spelled own cast.text.toList cast.mentions cast.positions).outcome =
        .ok text.toList := by
  let course := Mention.compose names.spelled own cast.text.toList cast.mentions cast.positions
  change _ ↔ course.outcome = .ok text.toList
  simp only [composeText]
  split
  · rename_i composed outcome
    have succeeds : course.outcome = .ok composed := outcome
    rw [succeeds, Except.ok.injEq, Except.ok.injEq]
    constructor
    · rintro rfl
      exact String.toList_ofList.symm
    · rintro rfl
      exact String.ofList_toList
  · rename_i cause outcome
    have fails : course.outcome = .error (.mention cause) := outcome
    rw [fails]
    exact iff_of_false nofun nofun

end Course

/-- What is asked for beforehand is what the composition takes: the accounts that it asks about are
among those, and are all of them where it succeeds. So a text is written out with names that are
known by then. Each was known before or was brought by a lookup, and it was brought in any case
where the names known before come from casts written out earlier. -/
theorem composing_takes_prefetched_names :
    (∀ (ε : Type) (name : Fid → Except ε (List Char)) (own : Fid) (text : List Char)
        (mentions : List Fid) (positions : List Nat),
      let listed := Mention.fidsToResolve own mentions positions
      let course := Mention.compose name own text mentions positions
      listed.Pairwise (· < ·) ∧ (∀ fid ∈ course.asked, fid ∈ listed) ∧
        ∀ composed, course.outcome = .ok composed → ∀ fid, fid ∈ course.asked ↔ fid ∈ listed) ∧
    ∀ (hub : List Exchange → Request → Answer) (past : List Exchange) (names known : Names)
        (own : Fid) (cast : RawCast),
      let learning := (learnNames names
        (Mention.fidsToResolve own cast.mentions cast.positions)).record hub past
      let course :=
        Mention.compose known.spelled own cast.text.toList cast.mentions cast.positions
      let present := learning.exchanges.reverse ++ past
      learning.value = .ok known →
        (∀ text, composeText known own cast = .ok text ↔ course.outcome = .ok text.toList) ∧
        ∀ fid ∈ course.asked, ∃ name, known.lookup fid = some name ∧
          (names.lookup fid = some name ∨ Brought hub past present fid name) ∧
          (Gathered hub past names → Brought hub [] present fid name) := by
  constructor
  · intro ε name own text mentions positions listed course
    refine ⟨Mention.ascending_fidsToResolve own mentions positions,
      fun _ asked => Mention.mem_fidsToResolve_of_asked asked, fun composed succeeds fid => ?_⟩
    constructor
    · exact Mention.mem_fidsToResolve_of_asked
    · exact Mention.asked_of_mem_fidsToResolve succeeds
  · intro hub past names known own cast learning course present succeeds
    have learned : Learned hub past present names known _ := learnNames_learned succeeds
    refine ⟨composeText_eq_ok_iff own cast, fun fid asked => ?_⟩
    have listed := Mention.mem_fidsToResolve_of_asked asked
    obtain ⟨name, found⟩ := Option.isSome_iff_exists.mp (learned.covered fid (.inl listed))
    have source := learned.brought fid name found
    refine ⟨name, found, source, fun gathered => ?_⟩
    rcases source with before | brought
    · exact (gathered.brought fid name before).still (List.suffix_append _ past)
    · exact brought.since past.nil_suffix

/-- A hub on which every account is called alice. -/
def aliceHub : Request → Answer
  | .usernameProofs _ => .response 200 (some "[[[10,\"alice\",\"0x01\"]]]")
  | .verifications _ => .response 200 (some "[[],null]")
  | _ => .unreachable

/-- A cast that names two accounts, one of them twice, behind a mention of its reader, account 7. -/
def roundCast : RawCast :=
  { fid := 20, timestamp := 30, hash := "0x03", text := " é and !",
    mentions := [7, 12, 9, 9], positions := [0, 1, 8, 9], parent := none }

theorem composing_takes_prefetched_names_of_roundCast :
    ∃ known text present, ((learnNames [] (Mention.fidsToResolve 7 roundCast.mentions
        roundCast.positions)).record (fun _ => aliceHub) []).value = .ok known ∧
      composeText known 7 roundCast = .ok text ∧ text = " @aliceé and @alice!@alice" ∧
      ∀ fid ∈ [9, 9, 12], ∃ name, known.lookup fid = some name ∧
        Brought (fun _ => aliceHub) [] present fid name := by
  have learned : ((learnNames [] (Mention.fidsToResolve 7 roundCast.mentions
      roundCast.positions)).record (fun _ => aliceHub) []).value =
        .ok [(12, "alice"), (9, "alice")] := by
    cbv
  have composed : composeText [(12, "alice"), (9, "alice")] 7 roundCast =
      .ok " @aliceé and @alice!@alice" := by
    cbv
  have asked : (Mention.compose (Names.spelled [(12, "alice"), (9, "alice")]) 7
      roundCast.text.toList roundCast.mentions roundCast.positions).asked = [9, 9, 12] := by
    cbv
  have taken := (composing_takes_prefetched_names.2 (fun _ => aliceHub) [] [] _ 7 roundCast
    learned).2
  rw [asked] at taken
  exact ⟨_, _, _, learned, composed, rfl, fun fid member => (taken fid member).imp
    fun name taken => ⟨taken.1, taken.2.2 (.none [])⟩⟩

end PollHerald.Hub
