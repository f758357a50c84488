import PollHerald.Proofs.Hub.Fetch
import PollHerald.Proofs.Wire.Signed

set_option autoImplicit false

/-! What goes to the hub when a draft is published or sent as an answer: one request, whatever the
hub answers, with a signed message that says what the draft asks for. -/

namespace PollHerald.Hub

/-- Exchanges of which there is one, that hands a signed message over, in bytes that are those of no
other message: it is signed by an identity at the Unix time `now` and says what a draft asks for. -/
def SendsSigned (identity : Identity) (now : Nat) (draft : Draft) (exchanges : List Exchange) :
    Prop :=
  ∃ (request : Request) (message : Wire.Message) (data : Wire.MessageData) (body : Wire.CastBody),
    exchanges.map Exchange.request = [request] ∧ request.endpoint = "submitMessage" ∧
      request.parameters = [] ∧ request.body? = some message.encode ∧
      (∀ other : Wire.Message, request.body? = some other.encode → other = message) ∧
      message.SignedBy identity data ∧ data.Casts identity now body ∧ body.Renders draft

/-- Hands a message over where there is one. -/
def handOver : Except Error Wire.Message → Task Unit
  | .error error => throw error
  | .ok message => submit message

/-- The signed message of an answer to a cast. The hash of the cast is read first. -/
def signReply (identity : Option Identity) (now : Nat) (target : Mention) (draft : Draft) :
    Except Error Wire.Message := do
  let parent ← castId target.author target.hash
  signDraft identity now { draft with parent := some parent }

theorem reply_eq_handOver (identity : Option Identity) (now : Nat) (target : Mention)
    (draft : Draft) : reply identity now target draft =
      handOver (signReply identity now target draft) := by
  unfold reply signReply
  cases castId target.author target.hash <;> rfl

theorem signDraft_eq_ok {identity : Option Identity} {now : Nat} {draft : Draft}
    {message : Wire.Message} (signed : signDraft identity now draft = .ok message) :
    ∃ writer body, identity = some writer ∧ Wire.CastBody.ofDraft draft = .ok body ∧
      message = .sign writer (.ofCast writer (Clock.stamp now) body) := by
  cases identity with
  | none => cases signed
  | some writer =>
      simp only [signDraft] at signed
      split at signed
      · cases signed
      · rename_i body rendered
        cases signed
        exact ⟨writer, body, rfl, rendered, rfl⟩

section Publish

variable (hub : List Exchange → Request → Answer) (past : List Exchange)

/-- A message is handed over in one request, whatever comes of it. -/
theorem exchanges_submit (message : Wire.Message) :
    ((submit message).record hub past).exchanges =
      [{ request := .submit message.encode, answer := hub past (.submit message.encode) }] := by
  have asked := Task.record_request hub past (.submit message.encode)
  unfold submit
  rw [Task.record_bind_of_ok hub past (congrArg Dialogue.Record.value asked), asked]
  cases hub past (.submit message.encode) with
  | unreachable => rfl
  | broken => rfl
  | response status body =>
      by_cases accepted : status = 200
      · simp only [accepted, ne_eq, not_true_eq_false, if_false]
        rfl
      · simp only [accepted, ne_eq, not_false_eq_true, if_true]
        rfl

variable {identity : Identity} {now : Nat} {draft : Draft}

theorem publish_sendsSigned
    (fits : (Mention.tokensOf draft.text).length = draft.mentions.length)
    (short : draft.text.utf8ByteSize < Width.bound32) :
    SendsSigned identity now draft
      ((publish (some identity) now draft).record hub past).exchanges := by
  obtain ⟨body, rendered, renders⟩ := Wire.CastBody.exists_ofDraft fits short
  let data := Wire.MessageData.ofCast identity (Clock.stamp now) body
  let message := Wire.Message.sign identity data
  have signed : signDraft (some identity) now draft = .ok message := by
    simp only [signDraft, rendered]
    rfl
  refine ⟨.submit message.encode, message, data, body, ?_, rfl, rfl, rfl, ?_, ?_, ?_, renders⟩
  · simp only [publish, signed, exchanges_submit, List.map_cons, List.map_nil]
  · intro other sameBytes
    exact (Wire.Message.encode_injective (Option.some.inj sameBytes)).symm
  · exact Wire.Message.sign_signedBy identity data
  · exact Wire.MessageData.ofCast_casts identity now body

theorem reply_of_hash {target : Mention} {hash : List UInt8}
    (decoded : Hex.decode (Hex.dropMarker target.hash) = .ok hash) :
    reply (some identity) now target draft =
      publish (some identity) now
        { draft with parent := some { fid := target.author, hash } } := by
  simp only [reply, castId, decoded]

theorem record_reply_of_no_hash {target : Mention} {cause : Hex.Error}
    (undecoded : Hex.decode (Hex.dropMarker target.hash) = .error cause) :
    (reply (some identity) now target draft).record hub past =
      { value := .error (.castHash target.hash cause), exchanges := [], entries := [] } := by
  simp only [reply, castId, undecoded, Task.record_throw]

variable (identity now) in
/-- What is sent under an identity, where each token of the draft has one account: one request, with
a signed message of the identity and of the time that says what the draft asks for. An answer to a
cast does the same with that cast as the parent, and nothing is sent where the cast has no hash. -/
theorem sent_message_says_draft
    (fits : (Mention.tokensOf draft.text).length = draft.mentions.length)
    (short : draft.text.utf8ByteSize < Width.bound32) :
    SendsSigned identity now draft
        ((publish (some identity) now draft).record hub past).exchanges ∧
      ∀ target : Mention,
        (∀ hash, Hex.decode (Hex.dropMarker target.hash) = .ok hash →
          SendsSigned identity now { draft with parent := some { fid := target.author, hash } }
            ((reply (some identity) now target draft).record hub past).exchanges) ∧
        ∀ cause, Hex.decode (Hex.dropMarker target.hash) = .error cause →
          (reply (some identity) now target draft).record hub past =
            { value := .error (.castHash target.hash cause), exchanges := [], entries := [] } := by
  refine ⟨publish_sendsSigned hub past fits short, fun target => ⟨?_, ?_⟩⟩
  · intro hash decoded
    rw [reply_of_hash decoded]
    exact publish_sendsSigned hub past fits short
  · intro cause undecoded
    exact record_reply_of_no_hash hub past undecoded

end Publish

def writer : Identity :=
  { fid := 20, seed := List.replicate 32 9, seedLength := rfl }

/-- A draft with a token at its start and one behind a letter of two bytes. -/
def greeting : Draft :=
  { text := "@ann hé@bob.eth!", mentions := [9, 10], embeds := ["https://example.org"] }

/-- A cast with a hash of two bytes. -/
def greeted : Mention :=
  { isMention := true, text := "", author := 9, hash := "0x0a0b", timestamp := 1, parent := none }

/-- The greeting goes out, by itself and as an answer, also to a hub that cannot be reached. -/
theorem greeting_says_draft :
    (Mention.tokensOf greeting.text).length = greeting.mentions.length ∧
      greeting.text.utf8ByteSize < Width.bound32 ∧
      SendsSigned writer 1700000000 greeting
        ((publish (some writer) 1700000000 greeting).record (fun _ _ => .unreachable) []).exchanges ∧
      SendsSigned writer 1700000000 { greeting with parent := some { fid := 9, hash := [10, 11] } }
        ((reply (some writer) 1700000000 greeted greeting).record
          (fun _ _ => .unreachable) []).exchanges := by
  have fits : (Mention.tokensOf greeting.text).length = greeting.mentions.length := by cbv
  have short : greeting.text.utf8ByteSize < Width.bound32 := by decide
  have decoded : Hex.decode (Hex.dropMarker greeted.hash) = .ok [10, 11] := by cbv
  have sent := sent_message_says_draft (fun _ _ => .unreachable) [] writer 1700000000 fits short
  exact ⟨fits, short, sent.1, (sent.2 greeted).1 [10, 11] decoded⟩

end PollHerald.Hub
