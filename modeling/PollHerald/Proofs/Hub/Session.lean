import PollHerald.Proofs.Hub.Turn

set_option autoImplicit false

/-! The identity of a client over a session. Whatever is carried out and whatever the hub answers,
the identity of the latest key that could be read is installed until it is released. -/

namespace PollHerald.Hub

/-- Carries out operations one after another, each at its time. The hub may answer by all that was
exchanged before. -/
def session (hub : List Exchange → Request → Answer) (past : List Exchange)
    (identity : Option Identity) : List (Nat × Operation) → List Turn
  | [] => []
  | (now, operation) :: rest =>
    let turn := operation.turn hub past identity now
    turn :: session hub (turn.exchanges.reverse ++ past) turn.step.identity rest

/-- The identity that is installed after some turns, of which the first found `first`. -/
def installed (first : Option Identity) (turns : List Turn) : Option Identity :=
  turns.foldl (fun _ turn => turn.step.identity) first

/-- Whether an identity is the one that was installed last, and not released since. -/
def Latest (turns : List Turn) (identity : Identity) : Prop :=
  ∃ front turn back, turns = front ++ turn :: back ∧ turn.Installs identity ∧
    ∀ later ∈ back, ¬ later.Releases ∧ ∀ other, ¬ later.Installs other

theorem not_latest_nil (identity : Identity) : ¬ Latest [] identity := by
  rintro ⟨front, turn, back, same, _⟩
  cases front <;> cases same

/-- An identity is the latest after one more turn where that turn installed it, or left alone the
one that was the latest. -/
theorem latest_concat (front : List Turn) (turn : Turn) (identity : Identity) :
    Latest (front ++ [turn]) identity ↔ turn.Installs identity ∨
      (¬ turn.Releases ∧ (∀ other, ¬ turn.Installs other) ∧ Latest front identity) := by
  constructor
  · rintro ⟨before, taken, back, same, installs, since⟩
    -- The turn that installed it is the last one, or the last one is among those since.
    rcases List.eq_nil_or_concat' back with rfl | ⟨between, last, rfl⟩
    · obtain ⟨_, sameTurn⟩ := List.append_inj' same rfl
      cases sameTurn
      exact .inl installs
    · rw [← List.cons_append, ← List.append_assoc] at same
      obtain ⟨rfl, sameTurn⟩ := List.append_inj' same rfl
      cases sameTurn
      obtain ⟨stays, keeps⟩ := since turn (List.mem_append_right between List.mem_cons_self)
      refine .inr ⟨stays, keeps, before, taken, between, rfl, installs, fun later member => ?_⟩
      exact since later (List.mem_append_left [turn] member)
  · rintro (installs | ⟨stays, keeps, before, taken, back, rfl, installs, since⟩)
    · exact ⟨front, turn, [], rfl, installs, fun _ absent => nomatch absent⟩
    · refine ⟨before, taken, back ++ [turn], ?_, installs, fun later member => ?_⟩
      · rw [List.append_assoc, List.cons_append]
      · rcases List.mem_append.mp member with within | last
        · exact since later within
        · cases List.mem_singleton.mp last
          exact ⟨stays, keeps⟩

section Run

variable (hub : List Exchange → Request → Answer) (past : List Exchange)

theorem session_operations (first : Option Identity) (operations : List (Nat × Operation)) :
    (session hub past first operations).map (fun turn => (turn.now, turn.operation)) =
      operations := by
  induction operations generalizing past first with
  | nil => rfl
  | cons head rest ih =>
      rw [session, List.map_cons, ih]
      rfl

/-- Each turn finds what those before it left installed. -/
theorem session_turn {first : Option Identity} {operations : List (Nat × Operation)}
    {front back : List Turn} {turn : Turn}
    (taken : session hub past first operations = front ++ turn :: back) :
    turn.before = installed first front ∧ turn.Lawful := by
  induction operations generalizing past first front with
  | nil => cases front <;> cases taken
  | cons head rest ih =>
      rw [session] at taken
      cases front with
      | nil =>
          cases taken
          exact ⟨rfl, Operation.turn_lawful hub past first head.1 head.2⟩
      | cons earlier between =>
          obtain ⟨same, later⟩ := List.cons.inj taken
          have found := ih _ later
          rw [same] at found
          exact found

theorem installed_iff_latest {operations : List (Nat × Operation)} {front : List Turn}
    (reached : front <+: session hub past none operations) (identity : Identity) :
    installed none front = some identity ↔ Latest front identity := by
  -- On the turns from the end: the last one decides, or leaves it to those before.
  induction front using List.reverseRecOn with
  | nil => exact iff_of_false nofun (not_latest_nil identity)
  | append_singleton front turn ih =>
      obtain ⟨back, taken⟩ := reached
      rw [List.append_assoc] at taken
      obtain ⟨before, lawful⟩ := session_turn hub past taken.symm
      have after : installed none (front ++ [turn]) = turn.step.identity := by
        rw [installed, List.foldl_concat]
      rw [after, latest_concat, lawful.identity_iff, before,
        ih ⟨turn :: back, taken⟩]

/-- Over a whole session, each point in it has the identity of the latest key that could be read and
was not released since, and none where there is no such key. Each operation finds that identity and
deals with it as it should. -/
theorem session_keeps_latest_identity (operations : List (Nat × Operation)) :
    (session hub past none operations).map (fun turn => (turn.now, turn.operation)) = operations ∧
      (∀ front, front <+: session hub past none operations → ∀ identity,
        installed none front = some identity ↔ Latest front identity) ∧
      ∀ front turn back, session hub past none operations = front ++ turn :: back →
        turn.before = installed none front ∧ turn.Lawful :=
  ⟨session_operations hub past none operations, fun _ => installed_iff_latest hub past,
    fun _ _ _ => session_turn hub past⟩

end Run

/-- A key that cannot be read leaves the identity from before. -/
example : (installed none (session (fun _ _ => .unreachable) [] none
    [(0, .useIdentity 1 "0x0707070707070707070707070707070707070707070707070707070707070707"),
      (0, .useIdentity 2 "xyz")])).map Identity.fid = some 1 := by
  cbv

end PollHerald.Hub
