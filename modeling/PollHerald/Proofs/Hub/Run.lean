import PollHerald.Hub.Client

set_option autoImplicit false

/-! How dialogues and tasks run one after another. A hub may answer by all that came before; with
one whose answers never change, a task is a plain value, and putting tasks together is putting
their values together. -/

namespace PollHerald.Hub

variable {α β : Type}

namespace Dialogue

/-- One course with another behind it. Only the value of the later one is kept. -/
def Record.before (first : Record α) (later : Record β) : Record β :=
  { value := later.value
    exchanges := first.exchanges ++ later.exchanges
    entries := first.entries ++ later.entries }

@[simp] theorem run_pure (hub : List Exchange → Request → Answer) (past : List Exchange)
    (value : α) :
    (pure value : Dialogue α).run hub past = { value, exchanges := [], entries := [] } :=
  rfl

theorem run_bind (hub : List Exchange → Request → Answer) (past : List Exchange)
    (first : Dialogue α) (next : α → Dialogue β) :
    (first >>= next).run hub past =
      (first.run hub past).before
        ((next (first.run hub past).value).run hub
          ((first.run hub past).exchanges.reverse ++ past)) := by
  induction first generalizing past with
  | done value => rfl
  | note entry rest ih =>
      have tail := ih past
      change (Dialogue.note entry (rest >>= next)).run hub past = _
      simp only [run, tail, Record.before, List.cons_append]
  | ask request rest ih =>
      have tail := ih (hub past request) ({ request, answer := hub past request } :: past)
      change (Dialogue.ask request fun answer => rest answer >>= next).run hub past = _
      simp only [run, tail, Record.before, List.cons_append, List.reverse_cons,
        List.append_assoc, List.nil_append]

theorem exchanges_bind_of_silent (hub : List Exchange → Request → Answer) (past : List Exchange)
    (first : Dialogue α) {next : α → Dialogue β}
    (silent : ∀ value past, ((next value).run hub past).exchanges = []) :
    ((first >>= next).run hub past).exchanges = (first.run hub past).exchanges := by
  rw [run_bind, Record.before, silent, List.append_nil]

/-- The value of a dialogue with a hub whose answers never change. -/
def answered (answers : Request → Answer) : Dialogue α → α
  | .done value => value
  | .note _ rest => rest.answered answers
  | .ask request rest => (rest (answers request)).answered answers

theorem answered_bind (answers : Request → Answer) (first : Dialogue α)
    (next : α → Dialogue β) :
    (first >>= next).answered answers = (next (first.answered answers)).answered answers := by
  induction first with
  | done value => rfl
  | note entry rest ih => exact ih
  | ask request rest ih => exact ih (answers request)

/-- A dialogue goes the same way with all answers that agree with those it got. -/
theorem answered_of_agrees (answers : Request → Answer) (hub : List Exchange → Request → Answer)
    (past : List Exchange) (dialogue : Dialogue α)
    (agrees : ∀ exchange ∈ (dialogue.run hub past).exchanges,
      answers exchange.request = exchange.answer) :
    dialogue.answered answers = (dialogue.run hub past).value := by
  induction dialogue generalizing past with
  | done value => rfl
  | note entry rest ih => exact ih past agrees
  | ask request rest ih =>
      obtain ⟨same, later⟩ := List.forall_mem_cons.mp agrees
      change (rest (answers request)).answered answers = _
      rw [show answers request = hub past request from same]
      exact ih (hub past request) _ later

theorem run_value_eq_answered (answers : Request → Answer) (past : List Exchange)
    (dialogue : Dialogue α) :
    (dialogue.run (fun _ => answers) past).value = dialogue.answered answers := by
  induction dialogue generalizing past with
  | done value => rfl
  | note entry rest ih => exact ih past
  | ask request rest ih => exact ih (answers request) _

end Dialogue

namespace Task

/-- The course of a task with a hub. -/
def record (task : Task α) (hub : List Exchange → Request → Answer) (past : List Exchange) :
    Dialogue.Record (Except Error α) :=
  (ExceptT.run task).run hub past

/-- What comes of a task with a hub whose answers never change. -/
def answered (task : Task α) (answers : Request → Answer) : Except Error α :=
  (ExceptT.run task).answered answers

section Course

variable (hub : List Exchange → Request → Answer) (past : List Exchange)

@[simp] theorem record_pure (value : α) :
    record (pure value) hub past = { value := .ok value, exchanges := [], entries := [] } :=
  rfl

@[simp] theorem record_throw (error : Error) :
    record (throw error : Task α) hub past =
      { value := .error error, exchanges := [], entries := [] } :=
  rfl

theorem record_bind_of_ok {task : Task α} {next : α → Task β} {value : α}
    (succeeds : (task.record hub past).value = .ok value) :
    record (task >>= next) hub past =
      (task.record hub past).before
        ((next value).record hub ((task.record hub past).exchanges.reverse ++ past)) := by
  have joined := Dialogue.run_bind hub past (ExceptT.run task) (ExceptT.bindCont next)
  change _ = (task.record hub past).before
    ((ExceptT.bindCont next (task.record hub past).value).run hub _) at joined
  rw [succeeds] at joined
  exact joined

theorem record_bind_of_error {task : Task α} {next : α → Task β} {error : Error}
    (fails : (task.record hub past).value = .error error) :
    record (task >>= next) hub past =
      { value := .error error
        exchanges := (task.record hub past).exchanges
        entries := (task.record hub past).entries } := by
  have joined := Dialogue.run_bind hub past (ExceptT.run task) (ExceptT.bindCont next)
  change _ = (task.record hub past).before
    ((ExceptT.bindCont next (task.record hub past).value).run hub _) at joined
  rw [fails] at joined
  simp only [ExceptT.bindCont, Dialogue.run_pure, Dialogue.Record.before, List.append_nil] at joined
  exact joined

theorem record_bind_pure (task : Task α) (shape : α → β) :
    record (task >>= fun value => pure (shape value)) hub past =
      { value := (task.record hub past).value.map shape
        exchanges := (task.record hub past).exchanges
        entries := (task.record hub past).entries } := by
  cases outcome : (task.record hub past).value with
  | error error =>
      rw [record_bind_of_error hub past outcome]
      rfl
  | ok value =>
      rw [record_bind_of_ok hub past outcome]
      simp only [Dialogue.Record.before, record_pure, List.append_nil]
      rfl

theorem exchanges_bind_of_silent {task : Task α} {next : α → Task β}
    (silent : ∀ value past, ((next value).record hub past).exchanges = []) :
    (record (task >>= next) hub past).exchanges = (task.record hub past).exchanges := by
  refine Dialogue.exchanges_bind_of_silent hub past (ExceptT.run task) fun outcome past => ?_
  cases outcome with
  | ok value => exact silent value past
  | error error => rfl

theorem record_bind_eq_ok {task : Task α} {next : α → Task β} {value : β}
    (succeeds : (record (task >>= next) hub past).value = .ok value) :
    ∃ found, (task.record hub past).value = .ok found ∧
      ((next found).record hub ((task.record hub past).exchanges.reverse ++ past)).value =
        .ok value := by
  cases first : (task.record hub past).value with
  | ok found =>
      rw [record_bind_of_ok hub past first] at succeeds
      exact ⟨found, rfl, succeeds⟩
  | error error =>
      rw [record_bind_of_error hub past first] at succeeds
      cases succeeds

theorem record_bind_eq_error {task : Task α} {next : α → Task β} {error : Error}
    (fails : (record (task >>= next) hub past).value = .error error) :
    (task.record hub past).value = .error error ∨
      ∃ found, (task.record hub past).value = .ok found ∧
        ((next found).record hub ((task.record hub past).exchanges.reverse ++ past)).value =
          .error error := by
  cases first : (task.record hub past).value with
  | ok found =>
      rw [record_bind_of_ok hub past first] at fails
      exact .inr ⟨found, rfl, fails⟩
  | error cause =>
      rw [record_bind_of_error hub past first] at fails
      cases fails
      exact .inl rfl

theorem record_tryCatch_throw (task : Task α) (wrap : Error → Error) :
    record (tryCatch task fun cause => throw (wrap cause)) hub past =
      { task.record hub past with value := (task.record hub past).value.mapError wrap } := by
  let settle (outcome : Except Error α) : Dialogue (Except Error α) :=
    .done (outcome.mapError wrap)
  have handled : ExceptT.run (tryCatch task fun cause => throw (wrap cause)) =
      (ExceptT.run task >>= settle) := by
    change Dialogue.bind _ _ = Dialogue.bind _ _
    congr 1
    funext outcome
    cases outcome <;> rfl
  have joined := Dialogue.run_bind hub past (ExceptT.run task) settle
  rw [← handled] at joined
  simp only [settle, Dialogue.run, Dialogue.Record.before, List.append_nil] at joined
  exact joined

end Course

section Steady

variable (answers : Request → Answer)

theorem record_value_eq_answered (past : List Exchange) (task : Task α) :
    (task.record (fun _ => answers) past).value = task.answered answers :=
  Dialogue.run_value_eq_answered answers past (ExceptT.run task)

@[simp] theorem answered_pure (value : α) :
    answered (pure value) answers = .ok value :=
  rfl

@[simp] theorem answered_throw (error : Error) :
    answered (throw error : Task α) answers = .error error :=
  rfl

theorem answered_bind (task : Task α) (next : α → Task β) :
    answered (task >>= next) answers =
      task.answered answers >>= fun value => (next value).answered answers := by
  have joined := Dialogue.answered_bind answers (ExceptT.run task) (ExceptT.bindCont next)
  cases first : task.answered answers with
  | ok value =>
      rw [show (ExceptT.run task).answered answers = .ok value from first] at joined
      exact joined
  | error error =>
      rw [show (ExceptT.run task).answered answers = .error error from first] at joined
      exact joined

end Steady

end Task

end PollHerald.Hub
