import PollHerald.Proofs.Hub.Run

set_option autoImplicit false

/-! What single requests bring. A request brings a value where the answer holds a document that the
reader takes, and else an error that names the endpoint. The lookup of a profile fails with the name
of the user. -/

namespace PollHerald.Hub

open Json (Value)

variable {α β : Type}

/-- An answer with a document in it that the reader takes. -/
def Answer.Holds (read : Value → Option α) (answer : Answer) (value : α) : Prop :=
  ∃ body, answer = .response 200 (some body) ∧ (Value.parse? body).bind read = some value

abbrev Answer.Serves (answer : Answer) (page : Page) : Prop :=
  answer.Holds Page.read page

/-- What an answer from an endpoint brings. -/
def Answer.outcome (endpoint : String) (read : Value → Option α) : Answer → Except Error α
  | .unreachable | .broken | .response _ none => .error (.request endpoint)
  | .response status (some body) =>
    if status ≠ 200 then .error (.status endpoint status body)
    else
      match (Value.parse? body).bind read with
      | some value => .ok value
      | none => .error (.answer endpoint)

theorem Answer.outcome_eq_ok_iff (endpoint : String) (read : Value → Option α)
    (answer : Answer) (value : α) :
    answer.outcome endpoint read = .ok value ↔ answer.Holds read value := by
  constructor
  · intro brings
    unfold outcome at brings
    split at brings
    · cases brings
    · cases brings
    · cases brings
    · rename_i status body
      split at brings
      · cases brings
      · rename_i accepted
        split at brings
        · rename_i found readable
          cases brings
          exact ⟨body, by rw [Decidable.not_not.mp accepted], readable⟩
        · cases brings
  · rintro ⟨body, rfl, readable⟩
    simp only [outcome, ne_eq, not_true_eq_false, if_false, readable]

namespace Task

variable (hub : List Exchange → Request → Answer) (past : List Exchange)

@[simp] theorem record_tell (entry : Journal.Entry) :
    record (liftM (Dialogue.tell entry) : Task Unit) hub past =
      { value := .ok (), exchanges := [], entries := [entry] } :=
  rfl

@[simp] theorem record_request (request : Request) :
    record (liftM (Dialogue.request request) : Task Answer) hub past =
      { value := .ok (hub past request)
        exchanges := [{ request, answer := hub past request }]
        entries := [] } :=
  rfl

theorem record_fetch (request : Request) (read : Value → Option α) :
    (fetch request read).record hub past =
      { value := (hub past request).outcome request.endpoint read
        exchanges := [{ request, answer := hub past request }]
        entries := [] } := by
  have asked := record_request hub past request
  unfold fetch
  rw [record_bind_of_ok hub past (congrArg Dialogue.Record.value asked), asked]
  cases hub past request with
  | unreachable => rfl
  | broken => rfl
  | response status body =>
      cases body with
      | none => rfl
      | some body =>
          simp only [Answer.outcome]
          split
          · rfl
          · cases (Value.parse? body).bind read <;> rfl

theorem profile_error {fid : Fid} {error : Error}
    (fails : ((profile fid).record hub past).value = .error error) :
    ∃ cause, error = .profile fid cause := by
  unfold profile at fails
  rw [record_tryCatch_throw] at fails
  cases found : ((fetchProfile fid).record hub past).value with
  | ok profile => rw [found] at fails; cases fails
  | error cause => rw [found] at fails; cases fails; exact ⟨cause, rfl⟩

end Task

end PollHerald.Hub
