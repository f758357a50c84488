import PollHerald.Command
import PollHerald.Proofs.Hub.Once
import PollHerald.Proofs.Hub.Publish
import PollHerald.Proofs.Wire.Message

set_option autoImplicit false

/-! Under which cast the announcement of a poll goes. The mention that asked for the poll is read
anew, and the announcement goes under the cast that the hub shows then. That cast is not compared
with the mention. -/

namespace PollHerald.Hub

/-- Whether the bytes are those of a message with a cast that answers another one. -/
def AnswersCast (target : CastId) (bytes : List UInt8) : Prop :=
  ∃ (message : Wire.Message) (data : Wire.MessageData) (body : Wire.CastBody),
    bytes = message.encode ∧ message.data = some data ∧ data.body = some body ∧
      body.parent = .cast target

theorem AnswersCast.unique {one other : CastId} {bytes : List UInt8}
    (answersOne : AnswersCast one bytes) (answersOther : AnswersCast other bytes) :
    one = other := by
  obtain ⟨message, data, body, encoded, content, cast, parent⟩ := answersOne
  obtain ⟨message', data', body', encoded', content', cast', parent'⟩ := answersOther
  cases Wire.Message.encode_injective (encoded.symm.trans encoded')
  cases content.symm.trans content'
  cases cast.symm.trans cast'
  cases parent.symm.trans parent'
  rfl

theorem parent_of_ofDraft {draft : Draft} {body : Wire.CastBody}
    (rendered : Wire.CastBody.ofDraft draft = .ok body) : body.parent = .ofDraft draft.parent := by
  unfold Wire.CastBody.ofDraft at rendered
  cases taken : Mention.decompose draft.text draft.mentions with
  | error error =>
      rw [taken] at rendered
      cases rendered
  | ok clean =>
      rw [taken] at rendered
      simp only [bind, Except.bind] at rendered
      split at rendered
      · cases rendered
      · cases rendered
        rfl

theorem answersCast_of_signDraft {identity : Option Identity} {now : Nat} {draft : Draft}
    {message : Wire.Message} {target : CastId} (answers : draft.parent = some target)
    (signed : signDraft identity now draft = .ok message) : AnswersCast target message.encode := by
  obtain ⟨writer, body, rfl, rendered, rfl⟩ := signDraft_eq_ok signed
  refine ⟨_, _, body, rfl, rfl, rfl, ?_⟩
  rw [parent_of_ofDraft rendered, answers]
  rfl

section Course

variable {hub : List Exchange → Request → Answer} {past : List Exchange}
variable {identity : Option Identity} {now : Nat}

theorem answersCast_of_reply {target : Mention} {draft : Draft} {exchange : Exchange}
    {bytes : List UInt8}
    (member : exchange ∈ ((reply identity now target draft).record hub past).exchanges)
    (submits : exchange.request = .submit bytes) :
    ∃ parent, castId target.author target.hash = .ok parent ∧ AnswersCast parent bytes := by
  unfold reply at member
  cases named : castId target.author target.hash with
  | error error =>
      rw [named] at member
      cases member
  | ok parent =>
      rw [named] at member
      refine ⟨parent, rfl, ?_⟩
      simp only [publish] at member
      split at member
      · cases member
      · rename_i message signed
        rw [exchanges_submit] at member
        cases List.mem_singleton.mp member
        cases submits
        exact answersCast_of_signDraft rfl signed

theorem target_of_normalize {names known : Names} {own : Fid} {cast : RawCast} {mention : Mention}
    (succeeds : ((normalize names own cast).record hub past).value = .ok (mention, known)) :
    mention.author = cast.fid ∧ mention.hash = cast.hash := by
  obtain ⟨learned, _, written⟩ := Task.record_bind_eq_ok hub past succeeds
  split at written
  · cases written
  · cases written
    exact ⟨rfl, rfl⟩

/-- A cast that was read has the author and the hash that the hub wrote into it. -/
theorem target_of_castById {fid : Fid} {hash : String} {target : Mention}
    (succeeds : ((castById identity fid hash).record hub past).value = .ok target) :
    ∃ served cast, (hub past (.castById fid hash)).Holds Message.read served ∧
      served.cast? = some cast ∧ target.author = cast.fid ∧ target.hash = cast.hash := by
  obtain ⟨served, fetched, succeeds⟩ := Task.record_bind_eq_ok hub past succeeds
  rw [Task.record_fetch] at fetched
  refine ⟨served, ?_⟩
  cases found : served.cast? with
  | none =>
      rw [found] at succeeds
      cases succeeds
  | some cast =>
      rw [found] at succeeds
      obtain ⟨⟨mention, known⟩, written, same⟩ := Task.record_bind_eq_ok hub _ succeeds
      cases same
      exact ⟨cast, (Answer.outcome_eq_ok_iff _ _ _ _).mp fetched, rfl,
        target_of_normalize written⟩

end Course

end PollHerald.Hub

namespace PollHerald.Command

open Hub

/-- Reads a mention anew and answers what is found. -/
def answerAnew (identity : Option Identity) (now : Nat) (mention : Mention) (url : String) :
    Hub.Task Unit := do
  let target ← castById identity mention.author mention.hash
  reply identity now target (announcementDraft url)

section Reply

variable (hub : List Exchange → Request → Answer) (past : List Exchange)
variable (identity : Option Identity) (now : Nat) (mention : Mention) (url : String)

theorem exchanges_replyWithPollUrl :
    ((replyWithPollUrl identity now mention url).run hub past).exchanges =
      ((answerAnew identity now mention url).record hub past).exchanges := by
  refine Dialogue.exchanges_bind_of_silent hub past
    (ExceptT.run (answerAnew identity now mention url)) fun outcome past => ?_
  cases outcome <;> rfl

variable {hub past identity now mention url}

theorem answersCast_of_answerAnew {exchange : Exchange} {bytes : List UInt8}
    (member : exchange ∈ ((answerAnew identity now mention url).record hub past).exchanges)
    (submits : exchange.request = .submit bytes) :
    ∃ served cast parent,
      (hub past (.castById mention.author mention.hash)).Holds Message.read served ∧
        served.cast? = some cast ∧ castId cast.fid cast.hash = .ok parent ∧
        AnswersCast parent bytes := by
  unfold answerAnew at member
  cases found : ((castById identity mention.author mention.hash).record hub past).value with
  | error error =>
      rw [Hub.Task.record_bind_of_error hub past found] at member
      exact absurd submits (castById_submits_nothing bytes member)
  | ok target =>
      rw [Hub.Task.record_bind_of_ok hub past found] at member
      rcases List.mem_append.mp member with reading | replying
      · exact absurd submits (castById_submits_nothing bytes reading)
      · obtain ⟨served, cast, holds, adds, author, hash⟩ := target_of_castById found
        obtain ⟨parent, named, answers⟩ := answersCast_of_reply replying submits
        rw [author, hash] at named
        exact ⟨served, cast, parent, holds, adds, named, answers⟩

theorem fid_of_castId {fid : Fid} {hash : String} {target : CastId}
    (named : castId fid hash = .ok target) : target.fid = fid := by
  unfold castId at named
  split at named
  · cases named
    rfl
  · cases named

/-- Where the mention is found again and has a hash, an announcement without tokens goes out. -/
theorem exists_submit {writer : Identity} {target : Mention} {parent : CastId}
    (found : ((castById (some writer) mention.author mention.hash).record hub past).value =
      .ok target)
    (named : castId target.author target.hash = .ok parent)
    (plain : Mention.tokensOf (announcement url) = [])
    (short : (announcement url).utf8ByteSize < Width.bound32) :
    ∃ exchange ∈ ((replyWithPollUrl (some writer) now mention url).run hub past).exchanges,
      ∃ bytes, exchange.request = .submit bytes ∧ AnswersCast parent bytes := by
  let read := ((castById (some writer) mention.author mention.hash).record hub past).exchanges
  let draft : Draft := { announcementDraft url with parent := some parent }
  have fits : (Mention.tokensOf draft.text).length = draft.mentions.length :=
    congrArg List.length plain
  have sent : SendsSigned writer now draft
      ((publish (some writer) now draft).record hub (read.reverse ++ past)).exchanges :=
    publish_sendsSigned hub _ fits short
  have replies : reply (some writer) now target (announcementDraft url) =
      publish (some writer) now draft := by
    simp only [reply, named]
    rfl
  obtain ⟨request, message, _, _, asked, _, _, carried, _⟩ := sent
  obtain ⟨exchange, only, rfl⟩ := List.map_eq_singleton_iff.mp asked
  have submits : exchange.request = .submit message.encode := by
    cases request : exchange.request with
    | submit bytes =>
        rw [request] at carried
        exact congrArg Request.submit (Option.some.inj carried)
    | _ =>
        rw [request] at carried
        cases carried
  have member : exchange ∈ ((reply (some writer) now target (announcementDraft url)).record hub
      (read.reverse ++ past)).exchanges := by
    rw [replies, only]
    exact List.mem_singleton_self exchange
  refine ⟨exchange, ?_, message.encode, submits, ?_⟩
  · rw [exchanges_replyWithPollUrl, answerAnew, Hub.Task.record_bind_of_ok hub past found]
    exact List.mem_append_right read member
  · obtain ⟨same, sameNamed, answers⟩ := answersCast_of_reply member submits
    cases named.symm.trans sameNamed
    exact answers

/-- The announcement of a poll goes under the cast that the hub shows when the mention is read anew,
by the author and the hash in that answer. So it goes under the mention exactly where the hub shows
a cast of the same author with the same hash. -/
theorem reply_goes_under_served_cast {exchange : Exchange} {bytes : List UInt8}
    (member : exchange ∈ ((replyWithPollUrl identity now mention url).run hub past).exchanges)
    (submits : exchange.request = .submit bytes) :
    ∃ served cast parent,
      (hub past (.castById mention.author mention.hash)).Holds Message.read served ∧
        served.cast? = some cast ∧ castId cast.fid cast.hash = .ok parent ∧
        (∀ target, AnswersCast target bytes ↔ target = parent) ∧
        ∀ own, castId mention.author mention.hash = .ok own →
          (AnswersCast own bytes ↔ cast.fid = mention.author ∧ parent.hash = own.hash) := by
  rw [exchanges_replyWithPollUrl] at member
  obtain ⟨served, cast, parent, holds, adds, named, answers⟩ :=
    answersCast_of_answerAnew member submits
  have only : ∀ target, AnswersCast target bytes ↔ target = parent := by
    intro target
    constructor
    · intro answersTarget
      exact answersTarget.unique answers
    · rintro rfl
      exact answers
  refine ⟨served, cast, parent, holds, adds, named, only, fun own ownNamed => ?_⟩
  rw [only, ← fid_of_castId named, ← fid_of_castId ownNamed]
  constructor
  · rintro rfl
    exact ⟨rfl, rfl⟩
  · rintro ⟨sameFid, sameHash⟩
    cases own
    cases parent
    cases sameFid
    cases sameHash
    rfl

end Reply

/-- A hub that shows the same cast of account 8 for every name, and leaves its hash out. -/
def elsewhere : Request → Answer
  | .castById _ _ => .response 200
      (some "[[\"MESSAGE_TYPE_CAST_ADD\",8,10,[\"hi\",[],[],null],null]]")
  | _ => .response 200 none

/-- The cast of account 8 as it is read. -/
def strayCast : Mention :=
  { isMention := false, text := "hi", author := 8, hash := "", timestamp := 10, parent := none }

/-- The address of a poll. -/
def pollAddress : String := "https://example.org/p"

/-- Account 9 gets its answer under a cast of account 8 that has no hash. -/
theorem elsewhere_misleads :
    ∃ exchange ∈ ((replyWithPollUrl (some writer) 1700000000 greeted pollAddress).run
        (fun _ => elsewhere) []).exchanges,
      ∃ bytes, exchange.request = .submit bytes ∧ AnswersCast { fid := 8, hash := [] } bytes := by
  have found : ((castById (some writer) greeted.author greeted.hash).record
      (fun _ => elsewhere) []).value = .ok strayCast := by cbv
  have named : castId strayCast.author strayCast.hash = .ok { fid := 8, hash := [] } := by cbv
  have plain : Mention.tokensOf (announcement pollAddress) = [] :=
    Mention.tokens_pieces_of_no_at (by decide)
  have short : (announcement pollAddress).utf8ByteSize < Width.bound32 := by decide
  exact exists_submit found named plain short

theorem answers_of_misled_mention :
    ∃ exchange bytes own, exchange ∈ ((replyWithPollUrl (some writer) 1700000000 greeted
        pollAddress).run (fun _ => elsewhere) []).exchanges ∧
      exchange.request = .submit bytes ∧ castId greeted.author greeted.hash = .ok own ∧
      (∀ target, AnswersCast target bytes ↔ target = { fid := 8, hash := [] }) ∧
      ¬ AnswersCast own bytes := by
  obtain ⟨exchange, member, bytes, submits, answers⟩ := elsewhere_misleads
  have ownNamed : castId greeted.author greeted.hash = .ok { fid := 9, hash := [10, 11] } := by
    cbv
  obtain ⟨_, _, parent, _, _, _, only, _⟩ := reply_goes_under_served_cast member submits
  cases (only _).mp answers
  refine ⟨exchange, bytes, _, member, submits, ownNamed, only, fun answersOwn => ?_⟩
  cases (only _).mp answersOwn

/-- An announcement need not go under the mention that it answers: the hub may show another cast
than the one that it was asked for, and one without a hash. -/
theorem not_every_reply_goes_under_its_mention :
    ¬ ∀ (hub : List Exchange → Request → Answer) (past : List Exchange)
      (identity : Option Identity) (now : Nat) (mention : Mention) (url : String),
      ∀ exchange ∈ ((replyWithPollUrl identity now mention url).run hub past).exchanges,
        ∀ bytes, exchange.request = .submit bytes →
          ∃ own, castId mention.author mention.hash = .ok own ∧ AnswersCast own bytes := by
  intro always
  obtain ⟨exchange, member, bytes, submits, answers⟩ := elsewhere_misleads
  obtain ⟨own, named, answersOwn⟩ := always _ _ _ _ _ _ exchange member bytes submits
  have fid : own.fid = 9 := fid_of_castId named
  rw [answersOwn.unique answers] at fid
  cases fid

end PollHerald.Command
