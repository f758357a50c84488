import PollHerald.Clock
import PollHerald.Proofs.Mention.RoundTrip
import PollHerald.Proofs.Wire.Message

set_option autoImplicit false

/-! What is said in the body that is made of a draft, and what a signature covers. -/

namespace PollHerald.Wire

open Mention (tokensOf tokenOffsets pieces weave)

/-- A body that says what a draft asks for: the tokens of the draft, put back at the offsets of the
body, make up the text of the draft. -/
structure CastBody.Renders (draft : Draft) (body : CastBody) : Prop where
  text : weave 0 ((tokensOf draft.text).zip body.positions) body.text.toList =
    some draft.text.toList
  places : body.positions.length = (tokensOf draft.text).length
  mentions : body.mentions = draft.mentions
  embeds : body.embeds = draft.embeds.map .url
  deprecatedEmbeds : body.deprecatedEmbeds = []
  parent : body.parent =
    match draft.parent with
    | none => .none
    | some target => .cast target

/-- Data that adds a cast of an identity on the main network, at the Unix time `now`. -/
structure MessageData.Casts (identity : Identity) (now : Nat) (body : CastBody)
    (data : MessageData) : Prop where
  kind : data.kind = 1
  fid : data.fid = identity.fid
  timestamp : data.timestamp = min (Clock.toHub now) 4294967295
  network : data.network = 1
  body : data.body = some body

/-- A message with the bytes of its data, their hash, and the signature of the hash. No other data
have these bytes. -/
structure Message.SignedBy (identity : Identity) (data : MessageData) (message : Message) :
    Prop where
  content : message.data = some data
  dataBytes : message.dataBytes = some data.encode
  onlyData : ∀ other : MessageData, message.dataBytes = some other.encode → other = data
  hash : message.hash = (Crypto.Blake3.hash data.encode).take 20
  hashScheme : message.hashScheme = 1
  signature : message.signature = identity.sign message.hash
  signatureScheme : message.signatureScheme = 1
  signer : message.signer = identity.publicKey

theorem Message.sign_signedBy (identity : Identity) (data : MessageData) :
    (Message.sign identity data).SignedBy identity data where
  content := rfl
  dataBytes := rfl
  onlyData := fun _ sameBytes => (MessageData.encode_injective (Option.some.inj sameBytes)).symm
  hash := rfl
  hashScheme := rfl
  signature := rfl
  signatureScheme := rfl
  signer := rfl

theorem MessageData.ofCast_casts (identity : Identity) (now : Nat) (body : CastBody) :
    (MessageData.ofCast identity (Clock.stamp now) body).Casts identity now body where
  kind := rfl
  fid := rfl
  timestamp := rfl
  network := rfl
  body := rfl

/-- The offsets of tokens fit into the 32 bits that there are for them, where the length of the text
does. -/
theorem tokenOffsets_fit {text : String} (short : text.utf8ByteSize < Width.bound32) :
    (tokenOffsets 0 (pieces text.toList)).find?
      (fun position => decide (Width.bound32 ≤ position)) = none := by
  rw [List.find?_eq_none]
  intro position member
  have inText := Mention.le_of_mem_tokenOffsets member
  have plain := Mention.byteLength_plainText_le (pieces text.toList)
  rw [Mention.flatMap_text_pieces, Text.byteLength_toList] at plain
  simp only [decide_eq_true_eq]
  omega

theorem CastBody.exists_ofDraft {draft : Draft}
    (fits : (tokensOf draft.text).length = draft.mentions.length)
    (short : draft.text.utf8ByteSize < Width.bound32) :
    ∃ body, CastBody.ofDraft draft = .ok body ∧ body.Renders draft := by
  have taken := (Mention.decompose_eq_ok_iff draft.text draft.mentions _).mpr ⟨fits, rfl⟩
  refine ⟨{
    mentions := draft.mentions
    parent := .ofDraft draft.parent
    text := String.ofList (Mention.plainText (pieces draft.text.toList))
    positions := tokenOffsets 0 (pieces draft.text.toList)
    embeds := draft.embeds.map .url }, ?_, ?_⟩
  · unfold CastBody.ofDraft
    rw [taken]
    simp only [bind, Except.bind, tokenOffsets_fit short]
    rfl
  · exact {
      text := by
        rw [String.toList_ofList]
        exact Mention.weave_tokensOf draft.text
      places := Mention.length_tokenOffsets 0 _
      mentions := rfl
      embeds := rfl
      deprecatedEmbeds := rfl
      parent := by cases draft.parent <;> rfl }

end PollHerald.Wire
