import PollHerald.Hub.Operation
import PollHerald.Proofs.Hub.Once
import PollHerald.Proofs.Hub.Publish

set_option autoImplicit false

/-! What one operation of a client does with the identity that it finds. A key that can be read
installs an identity, a release takes it away, and nothing else changes it. An operation that writes
either is refused before any request, or hands over one message of that identity. -/

namespace PollHerald

theorem Identity.fid_of_ofHex {fid : Fid} {key : String} {identity : Identity}
    (readable : Identity.ofHex fid key = .ok identity) : identity.fid = fid := by
  unfold Identity.ofHex at readable
  split at readable
  · cases readable
  · split at readable
    · cases readable
      rfl
    · cases readable

namespace Hub

/-- An operation with the identity that it found, how it ended, and what it exchanged. -/
structure Turn where
  before : Option Identity
  now : Nat
  operation : Operation
  step : Step
  exchanges : List Exchange

namespace Turn

/-- Whether a turn installed an identity. That takes a key that can be read. -/
def Installs (turn : Turn) (identity : Identity) : Prop :=
  ∃ key, turn.operation = .useIdentity identity.fid key ∧
    Identity.ofHex identity.fid key = .ok identity ∧ turn.step.result = .ok .done

def Releases (turn : Turn) : Prop :=
  turn.operation = .release

/-- Whether a turn ended with an error, and without a request. -/
def RefusedWith (turn : Turn) (error : Error) : Prop :=
  turn.step.result = .error (.hub error) ∧ turn.exchanges = []

end Turn

/-- Whether an error comes from what is to be written, and not from the hub. -/
def Error.IsLocal : Error → Prop
  | castHash _ _ | noIdentity | mention _ => True
  | _ => False

namespace Operation

/-- Whether an operation would send a draft, by itself or under a cast that has a hash. -/
def Sends (draft : Draft) : Operation → Prop
  | publish own => own = draft
  | reply target own => own = draft ∧ ∃ hash, Hex.decode (Hex.dropMarker target.hash) = .ok hash
  | _ => False

/-- Whether an operation cannot do without an identity. A reply to a cast without a hash fails by
that, with an identity or not. -/
def NeedsIdentity : Operation → Prop
  | lastMentions _ => True
  | operation => ∃ draft, operation.Sends draft

def Writes : Operation → Prop
  | publish _ | reply _ _ => True
  | _ => False

def turn (hub : List Exchange → Request → Answer) (past : List Exchange)
    (before : Option Identity) (now : Nat) (operation : Operation) : Turn :=
  let record := (operation.perform before now).run hub past
  { before, now, operation, step := record.value, exchanges := record.exchanges }

end Operation

/-- How one operation deals with the identity that it finds. -/
structure Turn.Lawful (turn : Turn) : Prop where
  used : ∀ fid key, turn.operation = .useIdentity fid key → turn.step =
    match Identity.ofHex fid key with
    | .ok identity => { identity := some identity, result := .ok .done }
    | .error error => { identity := turn.before, result := .error (.hub error) }
  released : turn.Releases → turn.step = { identity := none, result := .ok .done }
  kept : ¬ turn.Releases → (∀ identity, ¬ turn.Installs identity) →
    turn.step.identity = turn.before
  misdirected : ∀ target draft cause, turn.operation = .reply target draft →
    Hex.decode (Hex.dropMarker target.hash) = .error cause →
      turn.RefusedWith (.castHash target.hash cause)
  unidentified : turn.operation.NeedsIdentity → turn.before = none → turn.RefusedWith .noIdentity
  miscounted : ∀ draft identity, turn.operation.Sends draft → turn.before = some identity →
    (Mention.tokensOf draft.text).length ≠ draft.mentions.length →
      turn.RefusedWith
        (.mention (.count (Mention.tokensOf draft.text).length draft.mentions.length))
  writes : turn.operation.Writes →
    (∃ error, error.IsLocal ∧ turn.RefusedWith error) ∨
      ∃ bytes answer, turn.exchanges = [{ request := .submit bytes, answer }] ∧
        ∀ error, turn.step.result = .error (.hub error) → ¬ error.IsLocal
  signs : ∀ exchange ∈ turn.exchanges, ∀ bytes, exchange.request = .submit bytes →
    ∃ (identity : Identity) (message : Wire.Message) (data : Wire.MessageData),
      turn.before = some identity ∧ bytes = message.encode ∧
        (∀ other : Wire.Message, bytes = other.encode → other = message) ∧
        message.SignedBy identity data ∧ data.fid = identity.fid

theorem submit_error (hub : List Exchange → Request → Answer) (past : List Exchange)
    {message : Wire.Message} {error : Error}
    (fails : ((submit message).record hub past).value = .error error) : ¬ error.IsLocal := by
  have asked := Task.record_request hub past (.submit message.encode)
  unfold submit at fails
  rw [Task.record_bind_of_ok hub past (congrArg Dialogue.Record.value asked), asked] at fails
  cases answer : hub past (.submit message.encode) with
  | unreachable =>
      rw [answer] at fails
      cases fails
      exact id
  | broken =>
      rw [answer] at fails
      cases fails
      exact id
  | response status body =>
      rw [answer] at fails
      by_cases accepted : status = 200
      · simp only [accepted, ne_eq, not_true_eq_false, if_false] at fails
        cases fails
      · simp only [accepted, ne_eq, not_false_eq_true, if_true] at fails
        cases fails
        exact id

theorem signDraft_error {identity : Option Identity} {now : Nat} {draft : Draft} {error : Error}
    (refused : signDraft identity now draft = .error error) : error.IsLocal := by
  cases identity with
  | none =>
      cases refused
      trivial
  | some identity =>
      simp only [signDraft] at refused
      split at refused
      · cases refused
        trivial
      · cases refused

theorem signDraft_signedBy {identity : Option Identity} {now : Nat} {draft : Draft}
    {message : Wire.Message} (signed : signDraft identity now draft = .ok message) :
    ∃ writer data, identity = some writer ∧ message.SignedBy writer data ∧
      data.fid = writer.fid := by
  obtain ⟨writer, body, rfl, _, rfl⟩ := signDraft_eq_ok signed
  exact ⟨writer, _, rfl, Wire.Message.sign_signedBy writer _, rfl⟩

theorem signDraft_of_miscount (identity : Identity) (now : Nat) {draft : Draft}
    (miscounts : (Mention.tokensOf draft.text).length ≠ draft.mentions.length) :
    signDraft (some identity) now draft = .error
      (.mention (.count (Mention.tokensOf draft.text).length draft.mentions.length)) := by
  simp only [signDraft, Wire.CastBody.ofDraft, Mention.decompose_of_miscount miscounts]
  rfl

section Step

variable (hub : List Exchange → Request → Answer) (past : List Exchange)
variable (before : Option Identity) (now : Nat)

namespace Operation

@[simp] theorem keeping_identity {α : Type} (wrap : α → Result) (outcome : Except Error α) :
    (keeping before wrap outcome).identity = before := by
  cases outcome <;> rfl

theorem keeping_result_eq_error {α : Type} {wrap : α → Result} {outcome : Except Error α}
    {error : Error} (fails : (keeping before wrap outcome).result = .error (.hub error)) :
    outcome = .error error := by
  cases outcome with
  | ok value => cases fails
  | error cause =>
      cases fails
      rfl

theorem run_keeping {α : Type} (wrap : α → Result) (task : Task α) :
    (ExceptT.run task >>= fun outcome => pure (keeping before wrap outcome)).run hub past =
      { value := keeping before wrap (task.record hub past).value
        exchanges := (task.record hub past).exchanges
        entries := (task.record hub past).entries } := by
  rw [Dialogue.run_bind]
  simp only [Dialogue.run_pure, Dialogue.Record.before, List.append_nil]
  rfl

theorem turn_useIdentity (fid : Fid) (key : String) :
    (useIdentity fid key).turn hub past before now =
      { before, now, operation := useIdentity fid key
        step := match Identity.ofHex fid key with
          | .ok identity => { identity := some identity, result := .ok .done }
          | .error error => { identity := before, result := .error (.hub error) }
        exchanges := [] } := by
  cases read : Identity.ofHex fid key <;>
    simp only [turn, perform, Hub.useIdentity, read, Dialogue.run_bind] <;> rfl

theorem turn_release :
    release.turn hub past before now =
      { before, now, operation := release
        step := { identity := none, result := .ok .done }
        exchanges := [] } := by
  cases before <;> rfl

theorem turn_lastMentions (identity : Identity) (since : Nat) :
    ((lastMentions since).turn hub past (some identity) now).exchanges =
        ((mentionsSince identity.fid since).record hub past).exchanges ∧
      ((lastMentions since).turn hub past (some identity) now).step.identity = some identity := by
  have polled := (lastMentions_run hub past identity since).2
  simp only [turn, perform, Dialogue.run_bind, Dialogue.Record.before, polled]
  cases ((Hub.lastMentions (some identity) since).run hub past).value <;>
    simp only [Dialogue.run_pure, List.append_nil, and_self]

/-- What an operation that writes would hand over. -/
def outgoing (before : Option Identity) (now : Nat) :
    Operation → Option (Except Error Wire.Message)
  | publish draft => some (signDraft before now draft)
  | reply target draft => some (signReply before now target draft)
  | _ => none

variable {before now}

theorem turn_of_outgoing {operation : Operation} {signed : Except Error Wire.Message}
    (writes : operation.outgoing before now = some signed) :
    (operation.turn hub past before now).step =
        keeping before (fun _ => .done) ((handOver signed).record hub past).value ∧
      (operation.turn hub past before now).exchanges =
        ((handOver signed).record hub past).exchanges := by
  cases operation with
  | publish draft =>
      cases writes
      have run := run_keeping hub past before (fun _ => .done) (Hub.publish before now draft)
      exact ⟨congrArg Dialogue.Record.value run, congrArg Dialogue.Record.exchanges run⟩
  | reply target draft =>
      cases writes
      have run := run_keeping hub past before (fun _ => .done) (Hub.reply before now target draft)
      rw [← reply_eq_handOver]
      exact ⟨congrArg Dialogue.Record.value run, congrArg Dialogue.Record.exchanges run⟩
  | useIdentity | release | lastMentions | profile | castById => cases writes

theorem turn_of_unsigned {operation : Operation} {error : Error}
    (unsigned : operation.outgoing before now = some (.error error)) :
    (operation.turn hub past before now).RefusedWith error := by
  obtain ⟨step, exchanges⟩ := turn_of_outgoing hub past unsigned
  exact ⟨congrArg Step.result step, exchanges⟩

theorem turn_of_signed {operation : Operation} {message : Wire.Message}
    (signed : operation.outgoing before now = some (.ok message)) :
    (operation.turn hub past before now).exchanges =
        [{ request := .submit message.encode, answer := hub past (.submit message.encode) }] ∧
      ∀ error, (operation.turn hub past before now).step.result = .error (.hub error) →
        ¬ error.IsLocal := by
  obtain ⟨step, exchanges⟩ := turn_of_outgoing hub past signed
  refine ⟨exchanges.trans (exchanges_submit hub past message), fun error fails => ?_⟩
  rw [step] at fails
  exact submit_error hub past (keeping_result_eq_error before fails)

theorem outgoing_of_sends {operation : Operation} {draft : Draft}
    (sends : operation.Sends draft) :
    ∃ parent, operation.outgoing before now = some (signDraft before now { draft with parent }) := by
  cases operation with
  | publish own =>
      cases sends
      exact ⟨draft.parent, rfl⟩
  | reply target own =>
      obtain ⟨rfl, hash, decoded⟩ := sends
      refine ⟨some { fid := target.author, hash }, ?_⟩
      simp only [outgoing, signReply, castId, decoded]
      rfl
  | useIdentity | release | lastMentions | profile | castById => cases sends

theorem outgoing_of_no_hash {target : Mention} {cause : Hex.Error} (draft : Draft)
    (undecoded : Hex.decode (Hex.dropMarker target.hash) = .error cause) :
    (reply target draft).outgoing before now = some (.error (.castHash target.hash cause)) := by
  simp only [outgoing, signReply, castId, undecoded]
  rfl

theorem exists_outgoing (before : Option Identity) (now : Nat) {operation : Operation}
    (writes : operation.Writes) : ∃ signed, operation.outgoing before now = some signed := by
  cases operation with
  | publish | reply => exact ⟨_, rfl⟩
  | useIdentity | release | lastMentions | profile | castById => cases writes

theorem outgoing_cases {operation : Operation} {signed : Except Error Wire.Message}
    (writes : operation.outgoing before now = some signed) :
    (∃ hash cause, signed = .error (.castHash hash cause)) ∨
      ∃ draft, signed = signDraft before now draft := by
  cases operation with
  | publish draft =>
      cases writes
      exact .inr ⟨draft, rfl⟩
  | reply target draft =>
      cases decoded : Hex.decode (Hex.dropMarker target.hash) with
      | error cause =>
          cases writes.symm.trans (outgoing_of_no_hash draft decoded)
          exact .inl ⟨target.hash, cause, rfl⟩
      | ok hash =>
          have sends : (reply target draft).Sends draft := ⟨rfl, hash, decoded⟩
          obtain ⟨parent, drafted⟩ := outgoing_of_sends sends
          cases writes.symm.trans drafted
          exact .inr ⟨_, rfl⟩
  | useIdentity | release | lastMentions | profile | castById => cases writes

theorem outgoing_error {operation : Operation} {error : Error}
    (unsigned : operation.outgoing before now = some (.error error)) : error.IsLocal := by
  rcases outgoing_cases unsigned with ⟨hash, cause, same⟩ | ⟨draft, refused⟩
  · cases same
    trivial
  · exact signDraft_error refused.symm

theorem outgoing_signedBy {operation : Operation} {message : Wire.Message}
    (signed : operation.outgoing before now = some (.ok message)) :
    ∃ writer data, before = some writer ∧ message.SignedBy writer data ∧
      data.fid = writer.fid := by
  rcases outgoing_cases signed with ⟨hash, cause, same⟩ | ⟨draft, accepted⟩
  · cases same
  · exact signDraft_signedBy accepted.symm

variable (before now)

theorem turn_kept {operation : Operation}
    (stays : ¬ (operation.turn hub past before now).Releases)
    (fails : ∀ identity, ¬ (operation.turn hub past before now).Installs identity) :
    (operation.turn hub past before now).step.identity = before := by
  cases operation with
  | useIdentity fid key =>
      rw [turn_useIdentity] at fails ⊢
      cases read : Identity.ofHex fid key with
      | error error => rfl
      | ok identity =>
          cases Identity.fid_of_ofHex read
          refine absurd ⟨key, rfl, read, ?_⟩ (fails identity)
          simp only [read]
  | release => exact absurd rfl stays
  | publish draft =>
      rw [(turn_of_outgoing hub past rfl).1, keeping_identity]
  | reply target draft =>
      rw [(turn_of_outgoing hub past rfl).1, keeping_identity]
  | lastMentions since =>
      cases before with
      | none => rfl
      | some identity => exact (turn_lastMentions hub past now identity since).2
  | profile fid =>
      have run := run_keeping hub past before .profile (Hub.profile fid)
      exact (congrArg (Step.identity ∘ Dialogue.Record.value) run).trans (keeping_identity ..)
  | castById fid hash =>
      have run := run_keeping hub past before .mention (Hub.castById before fid hash)
      exact (congrArg (Step.identity ∘ Dialogue.Record.value) run).trans (keeping_identity ..)

theorem turn_unidentified {operation : Operation} (needs : operation.NeedsIdentity) :
    (operation.turn hub past none now).RefusedWith .noIdentity := by
  have refused : ∀ draft, operation.Sends draft →
      (operation.turn hub past none now).RefusedWith .noIdentity := by
    intro draft sends
    obtain ⟨_, unsigned⟩ := outgoing_of_sends sends
    exact turn_of_unsigned hub past unsigned
  cases operation with
  | lastMentions since => exact ⟨rfl, rfl⟩
  | publish | reply | useIdentity | release | profile | castById =>
      obtain ⟨draft, sends⟩ := needs
      exact refused draft sends

theorem turn_writes {operation : Operation} (writes : operation.Writes) :
    (∃ error, error.IsLocal ∧ (operation.turn hub past before now).RefusedWith error) ∨
      ∃ bytes answer, (operation.turn hub past before now).exchanges =
          [{ request := .submit bytes, answer }] ∧
        ∀ error, (operation.turn hub past before now).step.result = .error (.hub error) →
          ¬ error.IsLocal := by
  obtain ⟨signed, outgoing⟩ := exists_outgoing before now writes
  cases signed with
  | error error =>
      exact .inl ⟨error, outgoing_error outgoing, turn_of_unsigned hub past outgoing⟩
  | ok message => exact .inr ⟨_, _, turn_of_signed hub past outgoing⟩

theorem writes_of_submits {operation : Operation} {exchange : Exchange} {bytes : List UInt8}
    (member : exchange ∈ (operation.turn hub past before now).exchanges)
    (submits : exchange.request = .submit bytes) : operation.Writes := by
  cases operation with
  | publish | reply => trivial
  | useIdentity fid key =>
      rw [turn_useIdentity] at member
      cases member
  | release =>
      rw [turn_release] at member
      cases member
  | lastMentions since =>
      cases before with
      | none => cases member
      | some identity =>
          rw [(turn_lastMentions hub past now identity since).1] at member
          exact absurd submits (mentionsSince_submits_nothing bytes member)
  | profile fid =>
      have same : ((profile fid).turn hub past before now).exchanges =
          ((Hub.profile fid).record hub past).exchanges :=
        congrArg Dialogue.Record.exchanges (run_keeping hub past before .profile _)
      exact absurd submits (profile_submits_nothing bytes (same ▸ member))
  | castById fid hash =>
      have same : ((castById fid hash).turn hub past before now).exchanges =
          ((Hub.castById before fid hash).record hub past).exchanges :=
        congrArg Dialogue.Record.exchanges (run_keeping hub past before .mention _)
      exact absurd submits (castById_submits_nothing bytes (same ▸ member))

theorem turn_signs {operation : Operation} {exchange : Exchange} {bytes : List UInt8}
    (member : exchange ∈ (operation.turn hub past before now).exchanges)
    (submits : exchange.request = .submit bytes) :
    ∃ (identity : Identity) (message : Wire.Message) (data : Wire.MessageData),
      before = some identity ∧ bytes = message.encode ∧
        (∀ other : Wire.Message, bytes = other.encode → other = message) ∧
        message.SignedBy identity data ∧ data.fid = identity.fid := by
  have writes : operation.Writes := writes_of_submits hub past before now member submits
  obtain ⟨signed, outgoing⟩ := exists_outgoing before now writes
  cases signed with
  | error error =>
      rw [(turn_of_unsigned hub past outgoing).2] at member
      cases member
  | ok message =>
      rw [(turn_of_signed hub past outgoing).1] at member
      cases List.mem_singleton.mp member
      cases submits
      obtain ⟨identity, data, installed, signedBy, fid⟩ := outgoing_signedBy outgoing
      have only : ∀ other : Wire.Message, message.encode = other.encode → other = message :=
        fun _ sameBytes => (Wire.Message.encode_injective sameBytes).symm
      exact ⟨identity, message, data, installed, rfl, only, signedBy, fid⟩

theorem turn_lawful (operation : Operation) : (operation.turn hub past before now).Lawful where
  used := by
    intro fid key same
    cases same
    rw [turn_useIdentity]
  released := by
    intro releases
    cases releases
    rw [turn_release]
  kept := turn_kept hub past before now
  misdirected := by
    intro target draft cause same undecoded
    cases same
    exact turn_of_unsigned hub past (outgoing_of_no_hash draft undecoded)
  unidentified := by
    intro needs absent
    cases absent
    exact turn_unidentified hub past now needs
  miscounted := by
    intro draft identity sends present miscounts
    cases present
    obtain ⟨parent, drafted⟩ := outgoing_of_sends sends
    refine turn_of_unsigned hub past (drafted.trans (congrArg some ?_))
    exact signDraft_of_miscount identity now miscounts
  writes := turn_writes hub past before now
  signs := by
    intro exchange member bytes submits
    exact turn_signs hub past before now member submits

end Operation

end Step

namespace Turn

variable {turn : Turn} {identity : Identity}

theorem not_installs_of_releases (releases : turn.Releases) : ¬ turn.Installs identity := by
  rintro ⟨key, same, _⟩
  cases releases.symm.trans same

theorem Lawful.identity_of_installs (lawful : turn.Lawful) (installs : turn.Installs identity) :
    turn.step.identity = some identity := by
  obtain ⟨key, same, readable, _⟩ := installs
  rw [lawful.used _ _ same, readable]

/-- An identity is there after a turn that installed it, or that left alone what was there. -/
theorem Lawful.identity_iff (lawful : turn.Lawful) :
    turn.step.identity = some identity ↔ turn.Installs identity ∨
      (¬ turn.Releases ∧ (∀ other, ¬ turn.Installs other) ∧ turn.before = some identity) := by
  by_cases releases : turn.Releases
  · rw [lawful.released releases]
    refine iff_of_false nofun ?_
    rintro (installs | ⟨stays, _⟩)
    · exact not_installs_of_releases releases installs
    · exact stays releases
  · by_cases installs : ∃ other, turn.Installs other
    · obtain ⟨other, installsOther⟩ := installs
      constructor
      · intro present
        cases (lawful.identity_of_installs installsOther).symm.trans present
        exact .inl installsOther
      · rintro (installs | ⟨_, keeps, _⟩)
        · exact lawful.identity_of_installs installs
        · exact absurd installsOther (keeps other)
    · have keeps : ∀ other, ¬ turn.Installs other := not_exists.mp installs
      rw [lawful.kept releases keeps]
      constructor
      · exact fun present => .inr ⟨releases, keeps, present⟩
      · rintro (installs | ⟨_, _, present⟩)
        · exact absurd installs (keeps identity)
        · exact present

end Turn

end Hub

end PollHerald
